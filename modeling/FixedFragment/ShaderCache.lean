import Std.Data.HashMap
import FixedFragment.DrawStats
import FixedFragment.ShaderProgram

set_option autoImplicit false

/-!
# Shader cache

Shaders are kept under their identifiers for the policy in force. Another policy empties the
cache, and the counts of hits and misses go on.
-/

namespace FixedFragment

/-- A generated shader. -/
structure Shader where
  id : ShaderId
  source : String
deriving DecidableEq, Repr

/-- The shader for `d` under the policy `p`. -/
def Decisions.shader (d : Decisions) (p : EmitPolicy) : Shader where
  id := d.shaderId
  source := d.source p

/-- The shaders generated under one policy, and how often one was found and one was missed. The two
counts have no limit. For fewer than `2 ^ 64` look-ups they are what counts of 64 bits would be. -/
structure ShaderCache where
  policy : EmitPolicy := {}
  shaders : Std.HashMap ShaderId Shader := {}
  hits : Nat := 0
  misses : Nat := 0

namespace ShaderCache

/-- The empty cache for a policy. -/
def new (p : EmitPolicy) : ShaderCache where
  policy := p

/-- The number of shaders kept. -/
def size (c : ShaderCache) : Nat := c.shaders.size

/-- Puts a policy in force. If it is another one, the shaders kept are dropped. -/
def setPolicy (c : ShaderCache) (p : EmitPolicy) : ShaderCache :=
  if p = c.policy then c else { c with policy := p, shaders := {} }

/-- The shader for `d`, generated if it is not kept yet. -/
def lookup (c : ShaderCache) (d : Decisions) : Shader × ShaderCache :=
  match c.shaders[d.shaderId]? with
  | some shader => (shader, { c with hits := c.hits + 1 })
  | none =>
      let shader := d.shader c.policy
      (shader,
        { c with shaders := c.shaders.insert d.shaderId shader, misses := c.misses + 1 })

theorem setPolicy_self (c : ShaderCache) : c.setPolicy c.policy = c :=
  if_pos rfl

theorem policy_setPolicy (c : ShaderCache) (p : EmitPolicy) : (c.setPolicy p).policy = p := by
  unfold setPolicy
  split
  · next h => exact h.symm
  · rfl

theorem policy_lookup (c : ShaderCache) (d : Decisions) : (c.lookup d).2.policy = c.policy := by
  unfold lookup
  split <;> rfl

/-- A look-up counts once, as a hit or as a miss. -/
theorem hits_add_misses_lookup (c : ShaderCache) (d : Decisions) :
    (c.lookup d).2.hits + (c.lookup d).2.misses = c.hits + c.misses + 1 := by
  unfold lookup
  split
  · show c.hits + 1 + c.misses = c.hits + c.misses + 1
    omega
  · show c.hits + (c.misses + 1) = c.hits + c.misses + 1
    omega

/-! ## Runs -/

/-- A cache together with the draw statistics that it reports to. -/
structure Session where
  cache : ShaderCache := {}
  stats : DrawStats := {}

/-- One use of a cache. -/
inductive Use where
  | get (s : PipelineState)
  | setPolicy (p : EmitPolicy)
deriving DecidableEq, Repr

namespace Session

/-- The shader that a state needs; the draw is counted whether it is found or generated. -/
def get (x : Session) (s : PipelineState) : Shader × Session :=
  let d := Decisions.ofState s
  let (shader, cache) := x.cache.lookup d
  (shader, { cache := cache, stats := x.stats.recordAll d.draws })

def setPolicy (x : Session) (p : EmitPolicy) : Session :=
  { x with cache := x.cache.setPolicy p }

/-- Sets the statistics to zero and gives what they were. -/
def resetStats (x : Session) : DrawStats × Session := (x.stats, { x with stats := {} })

/-- The session after a use, together with the shader that was asked for. -/
def step (x : Session) : Use → Session × Option Shader
  | .get s => ((x.get s).2, some (x.get s).1)
  | .setPolicy p => (x.setPolicy p, none)

/-- The session after uses in order, together with all shaders that were asked for. -/
def run (x : Session) : List Use → Session × List Shader
  | [] => (x, [])
  | u :: us =>
      let (x', given) := x.step u
      let (last, later) := x'.run us
      (last, given.toList ++ later)

end Session

end ShaderCache

end FixedFragment
