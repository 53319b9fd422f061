import FixedFragment.Proofs.FieldReadback
import FixedFragment.ShaderId.Encoding
import FixedFragment.ShaderProgram

set_option autoImplicit false

/-!
# Identifiers determine decisions

`ShaderId.unpack` reads decisions from an identifier, each from its own slot. The order in which
`Decisions.fields` are written is the layout of the slots (`slotsFrom_fields`), so that unpacking
undoes packing: `unpack_shaderId`. States with one identifier therefore have the same decisions
and the same shader text.
-/

namespace FixedFragment

open RegisterField (code decode decode_code)

/-! ## Unpacking -/

/-- The result of `read` if it is asked for. -/
def readIf {α : Type} (present : Bool) (read : Except OutOfRange α) :
    Except OutOfRange (Option α) :=
  if present then read.map some else .ok none

namespace ShaderId

/-- The use of a texture, from its three slots. -/
def unpackTexture (id : ShaderId) : Except OutOfRange TextureUse :=
  (decode (id.read .textureFunction)).map fun function =>
    { function := function
      rgba := id.flag Slot.textureAlpha.offset
      projected := id.flag Slot.textureProjection.offset }

/-- The decisions that an identifier packs. -/
def unpack (id : ShaderId) : Except OutOfRange Decisions :=
  if id.flag Slot.clearMode.offset then
    .ok { clearMode := true }
  else do
    let texture ← readIf (id.flag Slot.texture.offset) id.unpackTexture
    let alphaTest ← readIf (id.flag Slot.alphaTestLive.offset) (decode (id.read .alphaTestFunc))
    let colorTest ← readIf (id.flag Slot.colorTestLive.offset) (decode (id.read .colorTestFunc))
    .ok
      { texture := texture
        secondaryColor := id.flag Slot.secondaryColor.offset
        alphaTestEnabled := id.flag Slot.alphaTestEnabled.offset
        alphaTest := alphaTest
        colorTestEnabled := id.flag Slot.colorTestEnabled.offset
        colorTest := colorTest
        fog := id.flag Slot.fog.offset
        colorDoubling := id.flag Slot.colorDoubling.offset
        alphaDoubling := id.flag Slot.alphaDoubling.offset }

end ShaderId

/-! ## The layout -/

/-- All slots, from the lowest bit up. -/
def Slot.table : List Slot :=
  [clearMode, texture, textureFunction, textureAlpha, reserved, secondaryColor, alphaTestEnabled,
    alphaTestFunc, colorTestEnabled, colorTestFunc, fog, textureProjection, colorDoubling,
    alphaDoubling, alphaTestLive, colorTestLive]

namespace Decisions

/-- The order of writing is the layout of the slots. -/
theorem slotsFrom_fields (d : Decisions) : FieldWriter.slotsFrom 0 d.fields = Slot.table := rfl

/-- The writer takes all fields of decisions, and each slot then holds its field. -/
theorem exists_writer (d : Decisions) (hd : d.clearMode = false) :
    ∃ w, FieldWriter.writeAll {} d.fields = .ok w ∧ w.offset = Slot.usedBits
      ∧ w.value.toNat < 2 ^ Slot.usedBits ∧ d.shaderId = w.finish
      ∧ Slot.table.map d.shaderId.read = d.fields.map Field.value := by
  have hroom : ({} : FieldWriter).offset + Field.totalWidth d.fields ≤ 32 := by
    rw [totalWidth_fields]
    decide
  obtain ⟨w, hw⟩ := FieldWriter.writeAll_isOk d.fields_fit hroom
  obtain ⟨htight, hoffset, -, hread⟩ := FieldWriter.writeAll_spec FieldWriter.tight_empty hw
  have hused : w.offset = Slot.usedBits := by
    rw [hoffset, totalWidth_fields]
    rfl
  have hid : d.shaderId = w.finish := by
    have hpack : d.pack = .ok w.finish := by
      unfold pack
      rw [hd, hw]
      rfl
    exact Except.ok.inj (d.pack_eq.symm.trans hpack)
  refine ⟨w, hw, hused, hused ▸ htight.value_lt, hid, ?_⟩
  rw [hid, ← d.slotsFrom_fields]
  exact hread

end Decisions

/-! ## Unpacking undoes packing -/

theorem ShaderId.flag_of_read {id : ShaderId} {slot : Slot} {b : Bool} (hwidth : slot.width = 1)
    (h : id.read slot = (Field.flag b).value) : id.flag slot.offset = b := by
  rw [read, hwidth] at h
  rw [flag, h]
  cases b <;> decide

theorem decode_of_eq {α : Type} [RegisterField α] [DecidableEq α] {raw : UInt32} {a : α}
    (h : raw = UInt32.ofNat (code a)) (hsmall : (RegisterField.values : List α).length ≤ 2 ^ 32) :
    decode raw = .ok a := by
  apply decode_code
  have hlt : code a < 2 ^ 32 := Nat.lt_of_lt_of_le (RegisterField.code_lt a) hsmall
  rw [h, UInt32.toNat_ofNat', Nat.mod_eq_of_lt hlt]

/-- An absent value and the value of code 0 are packed alike; the flag tells them apart. -/
theorem readIf_decode {α : Type} [RegisterField α] [DecidableEq α] {raw : UInt32} {o : Option α}
    (h : raw = UInt32.ofNat (o.elim 0 code))
    (hsmall : (RegisterField.values : List α).length ≤ 2 ^ 32) :
    readIf o.isSome (decode raw) = .ok o := by
  cases o with
  | none => rfl
  | some a =>
      rw [decode_of_eq h hsmall]
      rfl

namespace Decisions

theorem flag_shaderId (d : Decisions) (hd : d.clearMode = false) :
    d.shaderId.flag Slot.clearMode.offset = false
      ∧ d.shaderId.flag Slot.reserved.offset = false := by
  obtain ⟨w, -, -, -, -, hread⟩ := d.exists_writer hd
  simp only [Slot.table, fields, List.map_cons, List.cons.injEq] at hread
  obtain ⟨hclear, -, -, -, hreserved, -⟩ := hread
  exact ⟨ShaderId.flag_of_read rfl hclear, ShaderId.flag_of_read rfl hreserved⟩

theorem unpack_shaderId (d : Decisions) (hd : d.clearMode = false) :
    d.shaderId.unpack = .ok d := by
  obtain ⟨w, -, -, -, -, hread⟩ := d.exists_writer hd
  -- One equation for each slot, in the order of the layout.
  simp only [Slot.table, fields, List.map_cons, List.cons.injEq] at hread
  obtain ⟨hclear, htexture, hfunction, hrgba, -, hsecondary, halphaOn, halpha, hcolorOn, hcolor,
    hfog, hprojected, hcolorDoubling, halphaDoubling, halphaLive, hcolorLive, -⟩ := hread
  have htextureRead : readIf (d.shaderId.flag Slot.texture.offset) d.shaderId.unpackTexture
      = .ok d.texture := by
    rw [ShaderId.flag_of_read rfl htexture]
    cases ht : d.texture with
    | none => rfl
    | some t =>
        rw [ht] at hfunction hrgba hprojected
        rw [ShaderId.unpackTexture, decode_of_eq hfunction (by decide),
          ShaderId.flag_of_read rfl hrgba, ShaderId.flag_of_read rfl hprojected]
        rfl
  have halphaRead : readIf (d.shaderId.flag Slot.alphaTestLive.offset)
      (decode (d.shaderId.read .alphaTestFunc)) = .ok d.alphaTest := by
    rw [ShaderId.flag_of_read rfl halphaLive]
    exact readIf_decode halpha (by decide)
  have hcolorRead : readIf (d.shaderId.flag Slot.colorTestLive.offset)
      (decode (d.shaderId.read .colorTestFunc)) = .ok d.colorTest := by
    rw [ShaderId.flag_of_read rfl hcolorLive]
    exact readIf_decode hcolor (by decide)
  rw [ShaderId.unpack, ShaderId.flag_of_read rfl hclear, htextureRead, halphaRead, hcolorRead,
    ShaderId.flag_of_read rfl hsecondary, ShaderId.flag_of_read rfl halphaOn,
    ShaderId.flag_of_read rfl hcolorOn, ShaderId.flag_of_read rfl hfog,
    ShaderId.flag_of_read rfl hcolorDoubling, ShaderId.flag_of_read rfl halphaDoubling]
  cases d
  cases hd
  rfl

/-- Different decisions outside clear mode have different identifiers. -/
theorem eq_of_shaderId_eq {d e : Decisions} (hd : d.clearMode = false) (he : e.clearMode = false)
    (h : d.shaderId = e.shaderId) : d = e := by
  have hunpack := d.unpack_shaderId hd
  rw [h, e.unpack_shaderId he] at hunpack
  exact (Except.ok.inj hunpack).symm

theorem shaderId_eq_clear_iff (d : Decisions) : d.shaderId = .clear ↔ d.clearMode = true := by
  cases hd : d.clearMode with
  | true =>
      have hpack : d.pack = .ok .clear := by
        unfold pack
        rw [hd]
        rfl
      simp [Except.ok.inj (d.pack_eq.symm.trans hpack)]
  | false =>
      refine ⟨fun h => ?_, fun h => by cases h⟩
      -- The bit of clear mode is set in the one identifier and not in the other.
      have hflag := (d.flag_shaderId hd).1
      rw [h] at hflag
      exact absurd hflag (by decide)

end Decisions

/-! ## States with one identifier -/

namespace PipelineState

theorem shaderId_eq_clear_iff (s : PipelineState) : s.shaderId = .clear ↔ s.clearMode = true := by
  rw [← Decisions.clearMode_ofState s]
  exact Decisions.shaderId_eq_clear_iff _

/-- The identifier of a state determines its decisions. In clear mode all states have the same
decisions. -/
theorem ofState_eq_of_shaderId_eq {s t : PipelineState} (h : s.shaderId = t.shaderId) :
    Decisions.ofState s = Decisions.ofState t := by
  have hmode : s.clearMode = true ↔ t.clearMode = true := by
    rw [← shaderId_eq_clear_iff s, ← shaderId_eq_clear_iff t, h]
  by_cases hs : s.clearMode = true
  · rw [Decisions.ofState, if_pos hs, Decisions.ofState, if_pos (hmode.mp hs)]
  · have ht : ¬t.clearMode = true := fun ht => hs (hmode.mpr ht)
    refine Decisions.eq_of_shaderId_eq ?_ ?_ h
    · rw [Decisions.clearMode_ofState, Bool.eq_false_iff.mpr hs]
    · rw [Decisions.clearMode_ofState, Bool.eq_false_iff.mpr ht]

theorem source_eq_of_shaderId_eq {s t : PipelineState} (h : s.shaderId = t.shaderId)
    (p : EmitPolicy) : s.source p = t.source p := by
  rw [source, source, ofState_eq_of_shaderId_eq h]

/-- **Identifiers pack decisions without loss.** Outside clear mode the writer takes all fields of
any decisions, fills exactly the bits in use, leaves the clear-mode bit and the reserved bit zero,
and unpacking gives the decisions back. The states of clear mode are those with the identifier
`ShaderId.clear`. States with one identifier have the same decisions, and under every policy the
same shader text. -/
theorem identifiers_lossless :
    (∀ d : Decisions, d.clearMode = false →
      ∃ w, FieldWriter.writeAll {} d.fields = .ok w ∧ w.offset = Slot.usedBits
        ∧ d.pack = .ok w.finish
        ∧ w.finish.word.toNat < 2 ^ Slot.usedBits
        ∧ w.finish.flag Slot.clearMode.offset = false
        ∧ w.finish.flag Slot.reserved.offset = false
        ∧ w.finish.unpack = .ok d
        ∧ w.finish ≠ .clear)
      ∧ (∀ s : PipelineState, s.shaderId = .clear ↔ s.clearMode = true)
      ∧ ∀ s t : PipelineState, s.shaderId = t.shaderId →
          Decisions.ofState s = Decisions.ofState t ∧ ∀ p, s.source p = t.source p := by
  refine ⟨fun d hd => ?_, shaderId_eq_clear_iff, fun s t h => ?_⟩
  · obtain ⟨w, hw, hoffset, hlt, hid, -⟩ := d.exists_writer hd
    have hclear : d.shaderId ≠ .clear := by
      rw [Ne, Decisions.shaderId_eq_clear_iff, hd]
      decide
    have hflags := d.flag_shaderId hd
    have hunpack := d.unpack_shaderId hd
    have hpack := d.pack_eq
    rw [hid] at hclear hflags hunpack hpack
    exact ⟨w, hw, hoffset, hpack, hlt, hflags.1, hflags.2, hunpack, hclear⟩
  · exact ⟨ofState_eq_of_shaderId_eq h, source_eq_of_shaderId_eq h⟩

/-- A comparison that never passes is told from no comparison, and the texture function of a state
without texturing is not told at all. -/
theorem identifiers_lossless_never :
    (∃ w, FieldWriter.writeAll {} ({ alphaTestEnabled := true, alphaTest := some .never } :
          Decisions).fields = .ok w
        ∧ w.finish.unpack = .ok { alphaTestEnabled := true, alphaTest := some .never })
      ∧ Decisions.ofState { textureFunction := .decal } = Decisions.ofState {} := by
  obtain ⟨hpack, -, hstates⟩ := identifiers_lossless
  obtain ⟨w, hw, -, -, -, -, -, hunpack, -⟩ :=
    hpack { alphaTestEnabled := true, alphaTest := some .never } rfl
  exact ⟨⟨w, hw, hunpack⟩, (hstates { textureFunction := .decal } {} rfl).1⟩

end PipelineState

end FixedFragment
