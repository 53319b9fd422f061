import FixedFragment.ShaderId.Encoding
import FixedFragment.Text.JsonNumbers

set_option autoImplicit false

/-!
# Draw statistics

How many draws kept an alpha test and how many did not. Draws in clear mode are not counted. The
two counters are words of 64 bits and wrap around.
-/

namespace FixedFragment

/-- The two counters. -/
structure DrawStats where
  alphaTested : UInt64 := 0
  nonAlphaTested : UInt64 := 0
deriving DecidableEq, Repr

/-- Why the counters have no total. -/
inductive TotalError where
  | overflow
deriving DecidableEq, Repr

def TotalError.message : TotalError → String
  | overflow => "attempt to add with overflow"

namespace DrawStats

/-! ## Counting -/

def countAlphaTested (s : DrawStats) : DrawStats := { s with alphaTested := s.alphaTested + 1 }

def countNonAlphaTested (s : DrawStats) : DrawStats :=
  { s with nonAlphaTested := s.nonAlphaTested + 1 }

/-- Counts one draw. -/
def record (s : DrawStats) (alphaTested : Bool) : DrawStats :=
  if alphaTested then s.countAlphaTested else s.countNonAlphaTested

/-- Counts draws in order. -/
def recordAll (s : DrawStats) (draws : List Bool) : DrawStats := draws.foldl record s

theorem recordAll_append (s : DrawStats) (xs ys : List Bool) :
    s.recordAll (xs ++ ys) = (s.recordAll xs).recordAll ys :=
  List.foldl_append

/-- The number of all draws. -/
def total (s : DrawStats) : Except TotalError UInt64 :=
  if s.alphaTested.toNat + s.nonAlphaTested.toNat < UInt64.size then
    .ok (s.alphaTested + s.nonAlphaTested)
  else
    .error .overflow

/-! ## Written form -/

/-- The counters as a JSON object. -/
def toJson (s : DrawStats) : String :=
  "\x7b\"alpha_tested_draws\":" ++ Decimal.text s.alphaTested.toNat
    ++ ",\"non_alpha_tested_draws\":" ++ Decimal.text s.nonAlphaTested.toNat ++ "\x7d"

/-- Reads the counters from a JSON object that has exactly these two members, in this order. -/
def ofJson? (text : String) : Option DrawStats :=
  match JsonNumbers.read? text with
  | some [("alpha_tested_draws", a), ("non_alpha_tested_draws", n)] =>
      if a < UInt64.size ∧ n < UInt64.size then some ⟨UInt64.ofNat a, UInt64.ofNat n⟩ else none
  | _ => none

end DrawStats

/-! ## Draws -/

/-- What drawing counts: whether an alpha test is alive, and nothing in clear mode. -/
def Decisions.draws (d : Decisions) : List Bool :=
  if d.clearMode then [] else [d.alphaTest.isSome]

namespace PipelineState

/-- What drawing with a state counts. -/
def draws (s : PipelineState) : List Bool := (Decisions.ofState s).draws

/-- The identifier of the shader that a state needs, with the draw counted. -/
def countedShaderId (s : PipelineState) (stats : DrawStats) : ShaderId × DrawStats :=
  (s.shaderId, stats.recordAll s.draws)

end PipelineState

/-! ## Runs -/

namespace DrawStats

/-- One use of the counters. -/
inductive Use where
  | record (alphaTested : Bool)
  | countAlphaTested
  | countNonAlphaTested
  | draw (s : PipelineState)
  | snapshot
  | reset
deriving DecidableEq, Repr

/-- The counters after a use, together with what a snapshot or a reset gives back. A reset gives
the counters and sets them to zero. -/
def step (s : DrawStats) : Use → DrawStats × Option DrawStats
  | .record b => (s.record b, none)
  | .countAlphaTested => (s.countAlphaTested, none)
  | .countNonAlphaTested => (s.countNonAlphaTested, none)
  | .draw st => ((st.countedShaderId s).2, none)
  | .snapshot => (s, some s)
  | .reset => ({}, some s)

/-- The counters after uses in order, together with all that was given back. -/
def run (s : DrawStats) : List Use → DrawStats × List DrawStats
  | [] => (s, [])
  | u :: us =>
      let (s', given) := s.step u
      let (last, later) := s'.run us
      (last, given.toList ++ later)

end DrawStats

end FixedFragment
