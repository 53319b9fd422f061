import FixedFragment.Proofs.FieldReadback

set_option autoImplicit false

/-!
# Runs of a field writer

A writer is offered fields one after the other and passes over those that it cannot write. It then
stands where writing the taken fields alone would have put it (`writeAll_taken`), so that its
offset is their total width, its value is the sum of their values in their places, and each of
them reads back. All of it is done on words, and nothing overflows (`WordWriter.offerAll?_eq`).
Main statement: `offerAll_accounts`.
-/

namespace FixedFragment

/-! ## Steps -/

/-- What a writer is asked to append. -/
inductive WriterStep where
  | flag (b : Bool)
  | reserved (width : UInt32)
  | field (value width : UInt32)
deriving DecidableEq, Repr

namespace WriterStep

/-- The field that a step appends. -/
def toField : WriterStep → Field
  | flag b => .flag b
  | reserved width => .reserved width.toNat
  | field value width => ⟨value, width.toNat⟩

/-- The value of the field, as a word. -/
def value : WriterStep → UInt32
  | flag b => if b then 1 else 0
  | reserved _ => 0
  | field value _ => value

/-- The width of the field, as a word. -/
def width : WriterStep → UInt32
  | flag _ => 1
  | reserved width => width
  | field _ width => width

theorem toField_eq (s : WriterStep) : s.toField = ⟨s.value, s.width.toNat⟩ := by
  cases s <;> rfl

end WriterStep

/-- A value and the slot that it was put in. -/
structure Written where
  slot : Slot
  value : UInt32
deriving DecidableEq, Repr

/-- The field that was written. -/
def Written.field (t : Written) : Field := ⟨t.value, t.slot.width⟩

/-! ## What keeps a field from being written -/

/-- The width is none that a field can have. -/
def Field.BadWidth (f : Field) : Prop := f.width = 0 ∨ 32 ≤ f.width

/-- The value has bits beyond the width. -/
def Field.TooLarge (f : Field) : Prop := 2 ^ f.width ≤ f.value.toNat

theorem Field.badWidth_iff (f : Field) : f.BadWidth ↔ ¬(0 < f.width ∧ f.width < 32) := by
  rw [BadWidth]
  omega

theorem Field.fits_iff (f : Field) : f.Fits ↔ ¬f.BadWidth ∧ ¬f.TooLarge := by
  rw [Fits, BadWidth, TooLarge, Nat.one_shiftLeft]
  omega

namespace FieldWriter

/-- The field goes past the end of the word. -/
def LacksRoom (w : FieldWriter) (f : Field) : Prop := 32 < w.offset + f.width

theorem write_of_badWidth (w : FieldWriter) {f : Field} (h : f.BadWidth) :
    w.write f = .error .width := by
  rw [write, if_pos (f.badWidth_iff.mp h)]

theorem write_of_tooLarge (w : FieldWriter) {f : Field} (hwidth : ¬f.BadWidth)
    (h : f.TooLarge) : w.write f = .error (.value f.value f.width) := by
  have hvalue : ¬f.value.toNat < 1 <<< f.width := by
    rw [Nat.one_shiftLeft]
    exact Nat.not_lt.mpr h
  rw [write, if_neg (mt f.badWidth_iff.mpr hwidth), if_pos hvalue]

theorem write_of_lacksRoom {w : FieldWriter} {f : Field} (hf : f.Fits) (h : w.LacksRoom f) :
    w.write f = .error .overflow := by
  obtain ⟨h0, h32, hvalue⟩ := hf
  have hroom : ¬w.offset + f.width ≤ 32 := Nat.not_le.mpr h
  rw [write, if_neg (not_not_intro ⟨h0, h32⟩), if_neg (not_not_intro hvalue), if_pos hroom]

/-- A field is rejected for its width, for its value or for the bits that are left, and the first
of these gives the failure. -/
structure Decides (w : FieldWriter) (f : Field) : Prop where
  rejected : (∃ e, w.write f = .error e) ↔ f.BadWidth ∨ f.TooLarge ∨ w.LacksRoom f
  width : w.write f = .error .width ↔ f.BadWidth
  value : w.write f = .error (.value f.value f.width) ↔ ¬f.BadWidth ∧ f.TooLarge
  overflow : w.write f = .error .overflow ↔ ¬f.BadWidth ∧ ¬f.TooLarge ∧ w.LacksRoom f

theorem decides (w : FieldWriter) (f : Field) : w.Decides f := by
  by_cases hwidth : f.BadWidth
  · have h := w.write_of_badWidth hwidth
    constructor <;> simp [h, hwidth]
  by_cases hvalue : f.TooLarge
  · have h := w.write_of_tooLarge hwidth hvalue
    constructor <;> simp [h, hwidth, hvalue]
  have hf : f.Fits := f.fits_iff.mpr ⟨hwidth, hvalue⟩
  by_cases hroom : w.LacksRoom f
  · have h := write_of_lacksRoom hf hroom
    constructor <;> simp [h, hwidth, hvalue, hroom]
  · have h := write_eq_ok hf (Nat.not_lt.mp hroom)
    constructor <;> simp [h, hwidth, hvalue, hroom]

/-! ## Runs -/

/-- The writer after it was offered fields in order. -/
def offerAll (w : FieldWriter) (fs : List Field) : FieldWriter := fs.foldl offer w

/-- The fields that a writer takes of those that it is offered in order, each with its slot. -/
def taken (w : FieldWriter) : List Field → List Written
  | [] => []
  | f :: fs =>
      match w.write f with
      | .ok w' => ⟨⟨w.offset, f.width⟩, f.value⟩ :: taken w' fs
      | .error _ => taken w fs

variable {w w' : FieldWriter} {f : Field} {fs : List Field}

theorem offerAll_of_ok (h : w.write f = .ok w') : w.offerAll (f :: fs) = w'.offerAll fs := by
  rw [offerAll, List.foldl_cons, offer, h]
  rfl

theorem offerAll_of_error {e : FieldError} (h : w.write f = .error e) :
    w.offerAll (f :: fs) = w.offerAll fs := by
  rw [offerAll, List.foldl_cons, offer, h]
  rfl

theorem taken_of_ok (h : w.write f = .ok w') :
    w.taken (f :: fs) = ⟨⟨w.offset, f.width⟩, f.value⟩ :: w'.taken fs := by
  rw [taken, h]

theorem taken_of_error {e : FieldError} (h : w.write f = .error e) :
    w.taken (f :: fs) = w.taken fs := by
  rw [taken, h]

/-- The fields that are taken can be written without the others, and they end the same. -/
theorem writeAll_taken (w : FieldWriter) (fs : List Field) :
    w.writeAll ((w.taken fs).map Written.field) = .ok (w.offerAll fs) := by
  induction fs generalizing w with
  | nil => rfl
  | cons f fs ih =>
      cases h : w.write f with
      | error e => rw [taken_of_error h, offerAll_of_error h, ih]
      | ok w' =>
          rw [taken_of_ok h, offerAll_of_ok h, List.map_cons, writeAll, List.foldlM_cons]
          show (w.write f >>= fun w' => w'.writeAll _) = _
          rw [h]
          exact ih w'

/-- They stand in the slots that fields take when they are written in order. -/
theorem slotsFrom_taken (w : FieldWriter) (fs : List Field) :
    slotsFrom w.offset ((w.taken fs).map Written.field) = (w.taken fs).map Written.slot := by
  induction fs generalizing w with
  | nil => rfl
  | cons f fs ih =>
      cases h : w.write f with
      | error e => rw [taken_of_error h, ih]
      | ok w' =>
          obtain ⟨-, -, rfl⟩ := of_write_eq_ok h
          rw [taken_of_ok h, List.map_cons, List.map_cons, slotsFrom]
          exact congrArg _ (ih (w.push f))

theorem tight_offer (hw : w.Tight) (f : Field) : (w.offer f).Tight := by
  cases h : w.write f with
  | error e => rwa [offer, h]
  | ok w' =>
      obtain ⟨hf, hroom, rfl⟩ := of_write_eq_ok h
      rw [offer, h]
      exact tight_push hw hf hroom

/-- The value is the sum of the old value and of those that were taken, each in its place. -/
theorem toNat_value_offerAll (hw : w.Tight) (fs : List Field) :
    (w.offerAll fs).value.toNat
      = w.value.toNat + ((w.taken fs).map fun t => t.value.toNat * 2 ^ t.slot.offset).sum := by
  induction fs generalizing w with
  | nil => rfl
  | cons f fs ih =>
      cases h : w.write f with
      | error e => rw [taken_of_error h, offerAll_of_error h, ih hw]
      | ok w' =>
          obtain ⟨hf, hroom, rfl⟩ := of_write_eq_ok h
          rw [taken_of_ok h, offerAll_of_ok h, ih (tight_push hw hf hroom),
            toNat_value_push hw hf hroom, List.map_cons, List.sum_cons, Nat.add_assoc]

end FieldWriter

/-! ## Arithmetic of words that notices overflow -/

namespace Word

/-- The sum, if it is a word. -/
def add? (a b : UInt32) : Option UInt32 :=
  if a.toNat + b.toNat < 2 ^ 32 then some (a + b) else none

/-- The difference, if there is one. -/
def sub? (a b : UInt32) : Option UInt32 := if b ≤ a then some (a - b) else none

/-- The bits moved up, if by less than the length of a word. -/
def shiftLeft? (a count : UInt32) : Option UInt32 :=
  if count < 32 then some (a <<< count) else none

/-- The bits moved down, if by less than the length of a word. -/
def shiftRight? (a count : UInt32) : Option UInt32 :=
  if count < 32 then some (a >>> count) else none

theorem add?_eq {a b : UInt32} (h : a.toNat + b.toNat < 2 ^ 32) :
    add? a b = some (a + b) ∧ (a + b).toNat = a.toNat + b.toNat := by
  refine ⟨if_pos h, ?_⟩
  rw [UInt32.toNat_add, Nat.mod_eq_of_lt h]

end Word

/-! ## Writing and reading on words -/

/-- A writer whose offset is a word too. -/
structure WordWriter where
  value : UInt32 := 0
  offset : UInt32 := 0
deriving DecidableEq, Repr

namespace WordWriter

open Word

/-- The writer with its offset as a number. -/
def toWriter (w : WordWriter) : FieldWriter := ⟨w.value, w.offset.toNat⟩

/-- Appends a field if it can be written. Gives nothing where an operation on words overflows. -/
def write? (w : WordWriter) (value width : UInt32) : Option (Except FieldError WordWriter) :=
  if ¬(0 < width ∧ width < 32) then
    some (.error .width)
  else do
    let bound ← shiftLeft? 1 width
    if ¬value < bound then
      return .error (.value value width.toNat)
    let stop ← add? w.offset width
    if ¬stop ≤ 32 then
      return .error .overflow
    let bits ← shiftLeft? value w.offset
    let offset ← add? w.offset width
    return .ok { value := w.value ||| bits, offset := offset }

/-! The three checks mean the same for words and for numbers. -/

theorem badWidth_iff (value width : UInt32) :
    Field.BadWidth ⟨value, width.toNat⟩ ↔ ¬(0 < width ∧ width < 32) := by
  rw [Field.badWidth_iff, UInt32.lt_iff_toNat_lt, UInt32.lt_iff_toNat_lt]
  rfl

theorem tooLarge_iff (value : UInt32) {width : UInt32} (h : width < 32) :
    Field.TooLarge ⟨value, width.toNat⟩ ↔ ¬value < 1 <<< width := by
  rw [UInt32.lt_iff_toNat_lt, toNat_one_shiftLeft h, Nat.not_lt]
  rfl

theorem lacksRoom_iff (w : WordWriter) (value : UInt32) {width : UInt32}
    (h : w.offset.toNat + width.toNat < 2 ^ 32) :
    w.toWriter.LacksRoom ⟨value, width.toNat⟩ ↔ ¬w.offset + width ≤ 32 := by
  rw [UInt32.le_iff_toNat_le, (add?_eq h).2, Nat.not_le]
  rfl

/-- A writer with its bits below its offset appends fields without overflow. -/
theorem write?_eq {w : WordWriter} (hw : w.toWriter.Tight) (value width : UInt32) :
    (w.write? value width).map (Except.map toWriter)
      = some (w.toWriter.write ⟨value, width.toNat⟩) := by
  unfold write?
  by_cases hbad : ¬(0 < width ∧ width < 32)
  · rw [if_pos hbad, FieldWriter.write_of_badWidth _ ((badWidth_iff value width).mpr hbad)]
    rfl
  have hgood := mt (badWidth_iff value width).mp hbad
  have hwidth : width < 32 := (not_not.mp hbad).2
  have hsmall : w.offset.toNat + width.toNat < 2 ^ 32 := by
    have hoffset : w.offset.toNat ≤ 32 := hw.offset_le
    have h32 : width.toNat < 32 := UInt32.lt_iff_toNat_lt.mp hwidth
    omega
  have hbound : shiftLeft? 1 width = some (1 <<< width) := if_pos hwidth
  obtain ⟨hstop, hsum⟩ := add?_eq hsmall
  simp only [if_neg hbad, hbound, hstop, Option.bind_eq_bind, Option.bind_some]
  by_cases hlarge : ¬value < 1 <<< width
  · rw [if_pos hlarge,
      FieldWriter.write_of_tooLarge _ hgood ((tooLarge_iff value hwidth).mpr hlarge)]
    rfl
  have hf : Field.Fits ⟨value, width.toNat⟩ :=
    (Field.fits_iff _).mpr ⟨hgood, mt (tooLarge_iff value hwidth).mp hlarge⟩
  by_cases hlacks : ¬w.offset + width ≤ 32
  · rw [if_neg hlarge, if_pos hlacks,
      FieldWriter.write_of_lacksRoom hf ((w.lacksRoom_iff value hsmall).mpr hlacks)]
    rfl
  have hroom : w.offset.toNat + width.toNat ≤ 32 :=
    Nat.not_lt.mp (mt (w.lacksRoom_iff value hsmall).mp hlacks)
  -- There are bits left, so the offset is inside the word and not at its end.
  have hinside : w.offset < 32 := by
    rw [UInt32.lt_iff_toNat_lt]
    exact Nat.lt_of_lt_of_le (Nat.lt_add_of_pos_right hf.1) hroom
  have hbits : shiftLeft? value w.offset = some (value <<< w.offset) := if_pos hinside
  rw [if_neg hlarge, if_neg hlacks, hbits, FieldWriter.write_eq_ok hf hroom, FieldWriter.push]
  simp only [toWriter, UInt32.ofNat_toNat, ← hsum]
  rfl

/-- The writer after a step; a step that is rejected leaves it as it is. -/
def offer? (w : WordWriter) (s : WriterStep) : Option WordWriter :=
  (w.write? s.value s.width).map fun answer =>
    match answer with
    | .ok w' => w'
    | .error _ => w

/-- The writer after steps in order. -/
def offerAll? (w : WordWriter) (steps : List WriterStep) : Option WordWriter :=
  steps.foldlM offer? w

theorem offer?_eq {w : WordWriter} (hw : w.toWriter.Tight) (s : WriterStep) :
    (w.offer? s).map toWriter = some (w.toWriter.offer s.toField) := by
  have h := write?_eq hw s.value s.width
  rw [← s.toField_eq, Option.map_eq_some_iff] at h
  obtain ⟨answer, hanswer, hwrite⟩ := h
  rw [offer?, hanswer, FieldWriter.offer, ← hwrite]
  cases answer <;> rfl

/-- No operation on words overflows in a run. -/
theorem offerAll?_eq {w : WordWriter} (hw : w.toWriter.Tight) (steps : List WriterStep) :
    (w.offerAll? steps).map toWriter
      = some (w.toWriter.offerAll (steps.map WriterStep.toField)) := by
  induction steps generalizing w with
  | nil => rfl
  | cons s steps ih =>
      obtain ⟨w', hstep, hnext⟩ := Option.map_eq_some_iff.mp (offer?_eq hw s)
      have htight : w'.toWriter.Tight := hnext ▸ FieldWriter.tight_offer hw s.toField
      rw [offerAll?, List.foldlM_cons, hstep, List.map_cons, FieldWriter.offerAll,
        List.foldl_cons, ← hnext]
      exact ih htight

end WordWriter

namespace ShaderId

open Word

/-- The `width` bits from `offset` on, by operations on words: a shift by the length of a word or
more leaves nothing, and such a width asks for all bits. Gives nothing where another operation
overflows. -/
def field? (id : ShaderId) (offset width : UInt32) : Option UInt32 := do
  let shifted := (shiftRight? id.word offset).getD 0
  let mask ← (shiftLeft? 1 width).elim (some 0xFFFFFFFF) (sub? · 1)
  return shifted &&& mask

/-- No operation on words overflows when an identifier is read. -/
theorem field?_eq (id : ShaderId) (offset width : UInt32) :
    id.field? offset width = some (id.field offset.toNat width.toNat) := by
  have hlt : ∀ count : UInt32, count < 32 ↔ count.toNat < 32 := fun _ => UInt32.lt_iff_toNat_lt
  have hshifted : (shiftRight? id.word offset).getD 0
      = if offset.toNat < 32 then id.word >>> UInt32.ofNat offset.toNat else 0 := by
    rw [shiftRight?, UInt32.ofNat_toNat]
    simp only [hlt]
    split <;> rfl
  have hmask : (shiftLeft? 1 width).elim (some 0xFFFFFFFF) (sub? · 1)
      = some (if width.toNat < 32 then (1 <<< UInt32.ofNat width.toNat) - 1 else 0xFFFFFFFF) := by
    rw [shiftLeft?, UInt32.ofNat_toNat]
    by_cases h : width < 32
    · -- A bit that is set is at least 1.
      have hone : (1 : UInt32) ≤ 1 <<< width := by
        rw [UInt32.le_iff_toNat_le, toNat_one_shiftLeft h]
        exact Nat.two_pow_pos width.toNat
      rw [if_pos h, if_pos ((hlt width).mp h)]
      exact if_pos hone
    · rw [if_neg h, if_neg (h ∘ (hlt width).mpr)]
      rfl
  rw [field?, hshifted, hmask]
  rfl

end ShaderId

/-! ## The account of a run -/

namespace FieldWriter

theorem totalWidth_map_field (ts : List Written) :
    Field.totalWidth (ts.map Written.field) = (ts.map fun t => t.slot.width).sum := by
  induction ts with
  | nil => rfl
  | cons t ts ih =>
      rw [List.map_cons, Field.totalWidth, ih, List.map_cons, List.sum_cons]
      rfl

/-- **A run of a writer accounts for its steps.** After any run from the empty writer, a step is
rejected exactly for its width, its value or the bits that are left, with the failure of the first
of these. The offset is the total width of the steps that were taken, and is inside the word; the
value is the sum of their values in their places, and lies below the offset; and each of them
reads back from the identifier. No operation on words overflows, neither in the run nor when an
identifier is read. -/
theorem offerAll_accounts (steps : List WriterStep) :
    let w := offerAll {} (steps.map WriterStep.toField)
    let ts := taken {} (steps.map WriterStep.toField)
    (∀ s : WriterStep, w.Decides s.toField)
      ∧ w.offset = (ts.map fun t => t.slot.width).sum
      ∧ w.offset ≤ 32
      ∧ w.value.toNat = (ts.map fun t => t.value.toNat * 2 ^ t.slot.offset).sum
      ∧ w.value.toNat < 2 ^ w.offset
      ∧ ts.map (fun t => w.finish.field t.slot.offset t.slot.width) = ts.map Written.value
      ∧ (WordWriter.offerAll? {} steps).map WordWriter.toWriter = some w
      ∧ ∀ (id : ShaderId) (offset width : UInt32),
          id.field? offset width = some (id.field offset.toNat width.toNat) := by
  intro w ts
  have hwrite : writeAll {} (ts.map Written.field) = .ok w := writeAll_taken {} _
  obtain ⟨htight, hoffset, -, hread⟩ := writeAll_spec tight_empty hwrite
  have hvalue := toNat_value_offerAll tight_empty (steps.map WriterStep.toField)
  have hstart : ({} : FieldWriter).value.toNat = 0 := rfl
  have hslots := slotsFrom_taken {} (steps.map WriterStep.toField)
  refine ⟨fun s => w.decides s.toField, ?_, htight.offset_le, ?_, htight.value_lt, ?_,
    @WordWriter.offerAll?_eq {} tight_empty steps, ShaderId.field?_eq⟩
  · rw [hoffset, totalWidth_map_field]
    exact Nat.zero_add _
  · rw [hvalue, hstart, Nat.zero_add]
  · rw [hslots, List.map_map, List.map_map] at hread
    exact hread

/-- A value that is too large, a width of 0 and a flag behind the last bit are passed over. -/
example : offerAll {} [⟨5, 3⟩, ⟨4, 2⟩, .reserved 0, ⟨0x1FFFFFFF, 29⟩, .flag true]
    = { value := 0xFFFFFFFD, offset := 32 } := by decide

end FieldWriter

end FixedFragment
