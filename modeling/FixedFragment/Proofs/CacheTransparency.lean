import FixedFragment.Proofs.IdentifierCodec
import FixedFragment.ShaderCache

set_option autoImplicit false

/-!
# The cache is transparent

A cache is `Faithful` if every shader that it keeps is the one that each state with its identifier
needs under the policy in force. Look-ups and changes of policy keep caches faithful, so whatever
came before, a look-up gives the shader that generating it afresh gives: `run_transparent`.
-/

namespace FixedFragment

/-- The shader that a state needs, generated afresh. -/
def PipelineState.freshShader (s : PipelineState) (p : EmitPolicy) : Shader where
  id := s.shaderId
  source := s.source p

namespace ShaderCache

/-- Every shader kept is the one that any state with its identifier needs under the policy in
force. -/
def Faithful (c : ShaderCache) : Prop :=
  ∀ (id : ShaderId) (shader : Shader), c.shaders[id]? = some shader →
    shader.id = id ∧ ∀ s : PipelineState, s.shaderId = id → shader = s.freshShader c.policy

theorem faithful_new (p : EmitPolicy) : (new p).Faithful := by
  intro id shader h
  simp [new] at h

theorem faithful_setPolicy {c : ShaderCache} (hc : c.Faithful) (p : EmitPolicy) :
    (c.setPolicy p).Faithful := by
  unfold setPolicy
  split
  · exact hc
  · intro id shader h
    simp at h

/-- A look-up gives the shader that the state needs, found or generated. -/
theorem lookup_fst {c : ShaderCache} (hc : c.Faithful) (s : PipelineState) :
    (c.lookup (Decisions.ofState s)).1 = s.freshShader c.policy := by
  unfold lookup
  split
  · next shader hfound => exact (hc _ shader hfound).2 s rfl
  · rfl

/-- Generating a shader serves all states with its identifier: they have the same decisions. -/
theorem faithful_lookup {c : ShaderCache} (hc : c.Faithful) (s : PipelineState) :
    (c.lookup (Decisions.ofState s)).2.Faithful := by
  unfold lookup
  split
  · exact hc
  · intro id shader h
    rw [Std.HashMap.getElem?_insert] at h
    split at h
    · next hid =>
        -- The entry is new: any state `t` with its identifier has the decisions of `s`.
        have hid : (Decisions.ofState s).shaderId = id := by simpa using hid
        obtain rfl := Option.some.inj h
        refine ⟨hid, fun t ht => ?_⟩
        have hsame : t.shaderId = s.shaderId := ht.trans hid.symm
        rw [PipelineState.freshShader, hsame, PipelineState.source_eq_of_shaderId_eq hsame]
        rfl
    · -- The entry was there before.
      exact hc id shader h

/-! ## Runs -/

namespace Session

/-- The policy in force after uses. -/
def policyAfter (p : EmitPolicy) : List Use → EmitPolicy
  | [] => p
  | .get _ :: us => policyAfter p us
  | .setPolicy q :: us => policyAfter q us

/-- The shaders that uses ask for, each generated afresh under the policy then in force. -/
def freshShaders (p : EmitPolicy) : List Use → List Shader
  | [] => []
  | .get s :: us => s.freshShader p :: freshShaders p us
  | .setPolicy q :: us => freshShaders q us

theorem faithful_step {x : Session} (hx : x.cache.Faithful) (u : Use) :
    (x.step u).1.cache.Faithful := by
  cases u with
  | get s => exact faithful_lookup hx s
  | setPolicy p => exact faithful_setPolicy hx p

theorem run_faithful {x : Session} (hx : x.cache.Faithful) (us : List Use) :
    (x.run us).1.cache.Faithful ∧ (x.run us).1.cache.policy = policyAfter x.cache.policy us
      ∧ (x.run us).2 = freshShaders x.cache.policy us := by
  -- The session changes with each use; what it keeps is that its cache is faithful.
  induction us generalizing x with
  | nil => exact ⟨hx, rfl, rfl⟩
  | cons u us ih =>
      obtain ⟨hfaithful, hpolicy, hgiven⟩ := ih (faithful_step hx u)
      cases u with
      | get s =>
          have hkeep : (x.step (.get s)).1.cache.policy = x.cache.policy := policy_lookup _ _
          rw [hkeep] at hpolicy hgiven
          refine ⟨hfaithful, hpolicy, ?_⟩
          show (x.get s).1 :: ((x.step (.get s)).1.run us).2 = _
          rw [hgiven]
          exact congrArg (· :: _) (lookup_fst hx s)
      | setPolicy p =>
          have hset : (x.step (.setPolicy p)).1.cache.policy = p := policy_setPolicy _ _
          rw [hset] at hpolicy hgiven
          exact ⟨hfaithful, hpolicy, hgiven⟩

/-- **Transparency.** Whatever the first policy and the uses, the shaders given are those generated
afresh for the states asked for, each under the policy then in force. Afterwards the next look-up
is as good as generating, and what is kept under an identifier is the shader of every state with
this identifier under the policy in force. -/
theorem run_transparent (p : EmitPolicy) (stats : DrawStats) (us : List Use) :
    let x := ({ cache := .new p, stats := stats } : Session).run us
    x.2 = freshShaders p us
      ∧ (∀ s : PipelineState, (x.1.get s).1.id = s.shaderId
          ∧ (x.1.get s).1.source = s.source (policyAfter p us))
      ∧ ∀ (s : PipelineState) (shader : Shader), x.1.cache.shaders[s.shaderId]? = some shader →
          shader.id = s.shaderId ∧ shader.source = s.source (policyAfter p us) := by
  intro x
  obtain ⟨hfaithful, hpolicy, hgiven⟩ :=
    run_faithful (x := { cache := .new p, stats := stats }) (faithful_new p) us
  refine ⟨hgiven, fun s => ?_, fun s shader hkept => ?_⟩
  · have hget : (x.1.get s).1 = s.freshShader (policyAfter p us) :=
      (lookup_fst hfaithful s).trans (congrArg s.freshShader hpolicy)
    rw [hget]
    exact ⟨rfl, rfl⟩
  · have hshader := (hfaithful _ shader hkept).2 s rfl
    rw [hpolicy] at hshader
    rw [hshader]
    exact ⟨rfl, rfl⟩

end Session

end ShaderCache

end FixedFragment
