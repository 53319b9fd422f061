import FixedFragment.DrawStats
import FixedFragment.Proofs.JsonObjects

set_option autoImplicit false

/-!
# Draw statistics as text

The text of the counters is a JSON object of two members (`toJson_eq_write`), and it is the only
text that is read as these counters (`ofJson?_eq_some_iff`). Main statement: `toJson_lossless`.
-/

namespace FixedFragment.DrawStats

/-- What the text of the counters says. -/
def members (s : DrawStats) : List (String × Nat) :=
  [("alpha_tested_draws", s.alphaTested.toNat), ("non_alpha_tested_draws", s.nonAlphaTested.toNat)]

theorem plainNames_members (s : DrawStats) : JsonNumbers.PlainNames s.members := by
  have hnames : ∀ name ∈ ["alpha_tested_draws", "non_alpha_tested_draws"],
      name.toList.all JsonNumbers.isPlain = true := by decide
  exact fun m hm => hnames m.1 (List.mem_map_of_mem (f := Prod.fst) hm)

theorem toJson_eq_write (s : DrawStats) : s.toJson = JsonNumbers.write s.members := by
  have hfirst : "\x7b\"alpha_tested_draws\":".toList
      = '\x7b' :: '"' :: ("alpha_tested_draws".toList ++ ['"', ':']) := by decide
  have hsecond : ",\"non_alpha_tested_draws\":".toList
      = ',' :: '"' :: ("non_alpha_tested_draws".toList ++ ['"', ':']) := by decide
  have hwrite : (JsonNumbers.write s.members).toList
      = '\x7b' :: (JsonNumbers.writeMember ("alpha_tested_draws", s.alphaTested.toNat)
        ++ JsonNumbers.writeRest [("non_alpha_tested_draws", s.nonAlphaTested.toNat)]) :=
    String.toList_ofList
  rw [← String.toList_inj, hwrite]
  show (_ ++ Decimal.text s.alphaTested.toNat ++ _ ++ Decimal.text s.nonAlphaTested.toNat
    ++ _ : String).toList = _
  rw [String.toList_append, String.toList_append, String.toList_append, String.toList_append,
    Decimal.toList_text, Decimal.toList_text, hfirst, hsecond]
  simp only [JsonNumbers.writeMember, JsonNumbers.writeRest, List.append_assoc, List.cons_append,
    List.nil_append]
  rfl

/-- Reading accepts the text of the counters and nothing else. -/
theorem ofJson?_eq_some_iff {text : String} {s : DrawStats} :
    ofJson? text = some s ↔ text = s.toJson := by
  rw [toJson_eq_write]
  constructor
  · intro h
    unfold ofJson? at h
    split at h
    · next a n hread =>
        obtain ⟨⟨ha, hn⟩, hs⟩ := Option.ite_none_right_eq_some.mp h
        obtain rfl := Option.some.inj hs
        rw [(JsonNumbers.read?_eq_some_iff.mp hread).2, members, UInt64.toNat_ofNat_of_lt' ha,
          UInt64.toNat_ofNat_of_lt' hn]
    · cases h
  · rintro rfl
    have hread : JsonNumbers.read? (JsonNumbers.write s.members) = some s.members :=
      JsonNumbers.read?_eq_some_iff.mpr ⟨s.plainNames_members, rfl⟩
    rw [ofJson?, hread]
    show (if s.alphaTested.toNat < UInt64.size ∧ s.nonAlphaTested.toNat < UInt64.size then
      some (⟨UInt64.ofNat s.alphaTested.toNat, UInt64.ofNat s.nonAlphaTested.toNat⟩ : DrawStats)
      else none) = some s
    rw [if_pos ⟨s.alphaTested.toNat_lt, s.nonAlphaTested.toNat_lt⟩, UInt64.ofNat_toNat,
      UInt64.ofNat_toNat]

theorem toJson_inj {s t : DrawStats} : s.toJson = t.toJson ↔ s = t := by
  constructor
  · intro h
    have hread := ofJson?_eq_some_iff.mpr h
    rw [ofJson?_eq_some_iff.mpr rfl] at hread
    exact Option.some.inj hread
  · rintro rfl
    rfl

/-- **The text of the counters loses nothing.** It is a JSON text, and all that it says is an object
of these two members; each has the numeral of its counter, without sign and leading zeros. The
reader takes this text and no other for these counters, so different counters have different
texts. -/
theorem toJson_lossless :
    (∀ s : DrawStats, ∃ alpha other : String,
        (∀ v, Json.IsText s.toJson v ↔ v = .object
          [("alpha_tested_draws", .number alpha), ("non_alpha_tested_draws", .number other)])
        ∧ (Decimal.IsNumeral alpha.toList
          ∧ Nat.ofDigitChars 10 alpha.toList 0 = s.alphaTested.toNat)
        ∧ Decimal.IsNumeral other.toList
          ∧ Nat.ofDigitChars 10 other.toList 0 = s.nonAlphaTested.toNat)
      ∧ (∀ text s, ofJson? text = some s ↔ text = s.toJson)
      ∧ ∀ s t : DrawStats, s.toJson = t.toJson ↔ s = t := by
  have hnumeral (n : Nat) : Decimal.IsNumeral (Decimal.text n).toList
      ∧ Nat.ofDigitChars 10 (Decimal.text n).toList 0 = n := by
    rw [Decimal.toList_text]
    exact Decimal.read?_eq_some_iff_isNumeral.mp (Decimal.read?_digits n)
  refine ⟨fun s => ?_, fun _ _ => ofJson?_eq_some_iff, fun _ _ => toJson_inj⟩
  refine ⟨Decimal.text s.alphaTested.toNat, Decimal.text s.nonAlphaTested.toNat, fun v => ?_,
    hnumeral _, hnumeral _⟩
  rw [toJson_eq_write]
  exact Json.isText_write_iff s.plainNames_members

end FixedFragment.DrawStats
