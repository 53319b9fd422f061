import FixedFragment.Proofs.Binary32Rounding
import FixedFragment.Proofs.ByteGrid
import FixedFragment.Uniforms

set_option autoImplicit false

/-!
# The block of uniform values

A block is made of sixteen words of four bytes, and each word is made from one byte of a register or
from none: `wordSources` is the table, and `block_ofState` says that blocks follow it. Rounding keeps
the bytes apart (`ofRat_channel_inj`), so a block tells exactly the bytes that the table names, of masks
whether they are empty. Main statement: `PipelineState.uniformBlock_eq_iff`.
-/

namespace FixedFragment

open Uniforms

/-! ## Words in a block -/

namespace Binary32

/-- The number that has the bytes as its digits, the lowest first. -/
def littleEndian (bs : List UInt8) : Nat := bs.foldr (fun b n => b.toNat + 256 * n) 0

/-- The bytes of a block at the place of a word. -/
def wordBytes (block : List UInt8) (place : Nat) : List UInt8 := (block.drop (4 * place)).take 4

theorem bytes_eq (w : UInt32) :
    bytes w = [wordByte w 0, wordByte w 1, wordByte w 2, wordByte w 3] := by
  have hlowest : (w >>> 0).toUInt8 = w.toUInt8 := congrArg UInt32.toUInt8 UInt32.shiftRight_zero
  show [w.toUInt8, _, _, _] = [(w >>> 0).toUInt8, _, _, _]
  rw [hlowest]
  rfl

theorem littleEndian_bytes (w : UInt32) : littleEndian (bytes w) = w.toNat := by
  have hword := w.toNat_lt
  have hbyte {i : Nat} (hi : i < 4) : (wordByte w i).toNat = w.toNat / 2 ^ (8 * i) % 256 :=
    toNat_wordByte w hi
  simp only [bytes_eq, littleEndian, List.foldr_cons, List.foldr_nil, hbyte (show 0 < 4 by decide),
    hbyte (show 1 < 4 by decide), hbyte (show 2 < 4 by decide), hbyte (show 3 < 4 by decide)]
  omega

theorem bytes_inj {v w : UInt32} : bytes v = bytes w ↔ v = w := by
  constructor
  · intro h
    rw [← UInt32.toNat_inj, ← littleEndian_bytes, ← littleEndian_bytes, h]
  · exact congrArg bytes

theorem length_flatMap_bytes (ws : List UInt32) : (ws.flatMap bytes).length = 4 * ws.length := by
  induction ws with
  | nil => rfl
  | cons w ws ih =>
      rw [List.flatMap_cons, List.length_append, ih]
      exact Nat.add_comm 4 (4 * ws.length)

theorem wordBytes_flatMap (ws : List UInt32) (place : Nat) :
    wordBytes (ws.flatMap bytes) place = (ws[place]?).elim [] bytes := by
  induction ws generalizing place with
  | nil => rw [wordBytes, List.flatMap_nil, List.drop_nil, List.take_nil]; rfl
  | cons w ws ih =>
      cases place with
      | zero => rfl
      | succ place => exact ih place

/-- A block determines its words. -/
theorem flatMap_bytes_inj {vs ws : List UInt32} :
    vs.flatMap bytes = ws.flatMap bytes ↔ vs = ws := by
  constructor
  · intro h
    induction vs generalizing ws with
    | nil =>
        cases ws with
        | nil => rfl
        | cons w ws => exact absurd h.symm (List.cons_ne_nil _ _)
    | cons v vs ih =>
        cases ws with
        | nil => exact absurd h (List.cons_ne_nil _ _)
        | cons w ws =>
            have hlength : (bytes v).length = (bytes w).length := rfl
            obtain ⟨hword, hrest⟩ := List.append_inj h hlength
            rw [bytes_inj.mp hword, ih hrest]
  · exact congrArg (List.flatMap bytes)

end Binary32

open Binary32

/-! ## What words are made from -/

/-- The bytes of the registers that uniform values are made from. -/
inductive RegisterByte where
  | colorReference (place : Fin 4)
  | colorMask (place : Fin 4)
  | textureEnv (place : Fin 4)
  | fogColor (place : Fin 4)
  | alphaReference
  | alphaMask
deriving DecidableEq, Repr

namespace RegisterByte

/-- The byte in the registers of a state. -/
def value (s : PipelineState) : RegisterByte → UInt8
  | colorReference place => wordByte s.colorTest.reference place
  | colorMask place => wordByte s.colorTest.mask place
  | textureEnv place => wordByte s.textureEnvColor place
  | fogColor place => wordByte s.fogColor place
  | alphaReference => s.alphaTest.reference
  | alphaMask => s.alphaTest.mask

/-- The number that the byte is taken to. -/
def channel : RegisterByte → UInt8 → Rat
  | colorReference _ | alphaReference => byteChannel
  | colorMask _ | alphaMask => maskChannel
  | textureEnv _ | fogColor _ => unitChannel

end RegisterByte

/-- The sources of a group: red, green and blue from the lowest byte of a register up, and a fourth
component. -/
def groupSources (color : Fin 4 → RegisterByte) (fourth : Option RegisterByte) :
    List (Option RegisterByte) :=
  [some (color 0), some (color 1), some (color 2), fourth]

/-- What the words of a block are made from, in order. -/
def wordSources : List (Option RegisterByte) :=
  groupSources .colorReference (some .alphaReference)
    ++ groupSources .colorMask (some .alphaMask)
    ++ groupSources .textureEnv none
    ++ groupSources .fogColor none

/-- The word that is made from a byte of a register; from none it is zero. -/
def sourceWord (s : PipelineState) (source : Option RegisterByte) : UInt32 :=
  source.elim 0 fun r => ofRat (r.channel (r.value s))

theorem block_ofState (s : PipelineState) :
    (ofState s).block = (wordSources.map (sourceWord s)).flatMap bytes := rfl

theorem wordBytes_block (s : PipelineState) {place : Nat} {source : Option RegisterByte}
    (h : wordSources[place]? = some source) :
    wordBytes (ofState s).block place = bytes (sourceWord s source) := by
  rw [block_ofState, wordBytes_flatMap, List.getElem?_map, h]
  rfl

/-! ## Rounding keeps bytes apart -/

theorem toRat_byteChannel (b : UInt8) : toRat (ofRat (byteChannel b)) = byteChannel b :=
  toRat_ofRat_natCast (Nat.lt_trans b.toNat_lt (by decide))

theorem toRat_maskChannel (b : UInt8) : toRat (ofRat (maskChannel b)) = maskChannel b := by
  unfold maskChannel
  split
  · exact toRat_ofRat_natCast (n := 0) (by decide)
  · exact toRat_ofRat_natCast (n := 1) (by decide)

theorem toRat_unitChannel_near (b : UInt8) :
    |toRat (ofRat (unitChannel b)) - unitChannel b| * 2 ^ 24 ≤ unitChannel b := by
  by_cases hb : b = 0
  · subst hb
    have hzero : toRat (ofRat 0) = 0 := toRat_ofRat_natCast (n := 0) (by decide)
    rw [unitChannel_zero, hzero, sub_zero, abs_zero, zero_mul]
  · have hpos : (1 : Rat) ≤ b.toNat := by
      have : 0 < b.toNat := Nat.pos_of_ne_zero fun h => hb (UInt8.toNat_inj.mp h)
      exact_mod_cast this
    apply toRat_ofRat_near
    · calc (2 : Rat) ^ (-126 : Int) ≤ 1 / 255 := by norm_num
        _ ≤ unitChannel b := by unfold unitChannel; gcongr
    · calc unitChannel b ≤ 1 := (inUnit_unitChannel b).2
        _ < (2 : Rat) ^ (127 : Int) := by norm_num

/-- The error of a word is too small for the shader to round to another byte. -/
theorem quantize_toRat_unitChannel (b : UInt8) :
    quantize (toRat (ofRat (unitChannel b))) = byteChannel b := by
  have hnear := toRat_unitChannel_near b
  have hone := (inUnit_unitChannel b).2
  have hbyte : unitChannel b * 255 = ((b.toNat : Int) : Rat) := Rat.div_mul_cancel (by decide)
  refine quantize_of_near ?_
  calc |toRat (ofRat (unitChannel b)) * 255 - ((b.toNat : Int) : Rat)|
      = |toRat (ofRat (unitChannel b)) - unitChannel b| * 255 := by
        rw [← hbyte, ← sub_mul, abs_mul]
        norm_num
    _ < 1 / 2 := by linarith

/-- Words tell the numbers apart that they are made from. -/
theorem ofRat_channel_inj {r : RegisterByte} {a b : UInt8} :
    ofRat (r.channel a) = ofRat (r.channel b) ↔ r.channel a = r.channel b := by
  constructor
  · intro h
    cases r with
    | colorReference _ | alphaReference =>
        have h : ofRat (byteChannel a) = ofRat (byteChannel b) := h
        show byteChannel a = byteChannel b
        rw [← toRat_byteChannel, h, toRat_byteChannel]
    | colorMask _ | alphaMask =>
        have h : ofRat (maskChannel a) = ofRat (maskChannel b) := h
        show maskChannel a = maskChannel b
        rw [← toRat_maskChannel, h, toRat_maskChannel]
    | textureEnv _ | fogColor _ =>
        -- These words are rounded, so the bytes are read back as a shader reads them.
        have h : ofRat (unitChannel a) = ofRat (unitChannel b) := h
        show unitChannel a = unitChannel b
        rw [unitChannel_inj, ← byteChannel_inj, ← quantize_toRat_unitChannel, h,
          quantize_toRat_unitChannel]
  · exact congrArg ofRat

/-! ## What a block tells of a state -/

namespace PipelineState

/-- Two states have the same registers as far as uniform values go. -/
structure UniformsAgree (a b : PipelineState) : Prop where
  colorReference : a.colorTest.reference &&& 0xFFFFFF = b.colorTest.reference &&& 0xFFFFFF
  textureEnv : a.textureEnvColor &&& 0xFFFFFF = b.textureEnvColor &&& 0xFFFFFF
  fogColor : a.fogColor &&& 0xFFFFFF = b.fogColor &&& 0xFFFFFF
  alphaReference : a.alphaTest.reference = b.alphaTest.reference
  colorMask : ∀ i ∈ colorPlaces, wordByte a.colorTest.mask i ≠ 0 ↔ wordByte b.colorTest.mask i ≠ 0
  alphaMask : a.alphaTest.mask ≠ 0 ↔ b.alphaTest.mask ≠ 0

variable (a b : PipelineState)

/-- The two states have one number for a source of words. -/
def SameChannel (source : Option RegisterByte) : Prop :=
  ∀ r ∈ source, r.channel (r.value a) = r.channel (r.value b)

@[simp]
theorem sameChannel_none : a.SameChannel b none := by simp [SameChannel]

@[simp]
theorem sameChannel_some (r : RegisterByte) :
    a.SameChannel b (some r) ↔ r.channel (r.value a) = r.channel (r.value b) := by
  simp [SameChannel]

theorem sourceWord_eq_iff (source : Option RegisterByte) :
    sourceWord a source = sourceWord b source ↔ a.SameChannel b source := by
  cases source with
  | none => simp [sourceWord]
  | some r => simp [sourceWord, ofRat_channel_inj]

/-- The sources of a group are the three color bytes of a register and the fourth. -/
theorem forall_mem_groupSources (color : Fin 4 → RegisterByte) (fourth : Option RegisterByte) :
    (∀ o ∈ groupSources color fourth, a.SameChannel b o)
      ↔ (∀ i ∈ [0, 1, 2], a.SameChannel b (some (color i))) ∧ a.SameChannel b fourth := by
  simp [groupSources, and_assoc]

/-- Where numbers tell bytes apart, the numbers of the three color bytes tell the color. -/
theorem forall_channel_eq_iff {channel : UInt8 → Rat}
    (hchannel : ∀ {x y : UInt8}, channel x = channel y ↔ x = y) (v w : UInt32) :
    (∀ i ∈ ([0, 1, 2] : List (Fin 4)), channel (wordByte v i) = channel (wordByte w i))
      ↔ v &&& 0xFFFFFF = w &&& 0xFFFFFF := by
  rw [low24_eq_iff]
  simp [hchannel, colorPlaces]

theorem forall_mem_wordSources :
    (∀ o ∈ wordSources, a.SameChannel b o) ↔ a.UniformsAgree b := by
  have hreference := forall_channel_eq_iff byteChannel_inj a.colorTest.reference
    b.colorTest.reference
  have htextureEnv := forall_channel_eq_iff unitChannel_inj a.textureEnvColor b.textureEnvColor
  have hfogColor := forall_channel_eq_iff unitChannel_inj a.fogColor b.fogColor
  have hmask : (∀ i ∈ ([0, 1, 2] : List (Fin 4)),
        maskChannel (wordByte a.colorTest.mask i) = maskChannel (wordByte b.colorTest.mask i))
      ↔ ∀ i ∈ colorPlaces,
        wordByte a.colorTest.mask i ≠ 0 ↔ wordByte b.colorTest.mask i ≠ 0 := by
    simp [colorPlaces, maskChannel_eq_iff]
  simp only [wordSources, List.forall_mem_append, forall_mem_groupSources, sameChannel_some,
    sameChannel_none, RegisterByte.channel, RegisterByte.value, and_true]
  rw [hreference, htextureEnv, hfogColor, hmask, byteChannel_inj, maskChannel_eq_iff]
  constructor
  · rintro ⟨⟨⟨⟨hr, har⟩, hm, ham⟩, ht⟩, hf⟩
    exact ⟨hr, ht, hf, har, hm, ham⟩
  · rintro ⟨hr, ht, hf, har, hm, ham⟩
    exact ⟨⟨⟨⟨hr, har⟩, hm, ham⟩, ht⟩, hf⟩

theorem block_eq_iff : (ofState a).block = (ofState b).block ↔ a.UniformsAgree b := by
  rw [block_ofState, block_ofState, flatMap_bytes_inj, List.map_inj_left, ← forall_mem_wordSources]
  exact forall₂_congr fun o _ => sourceWord_eq_iff a b o

/-- The words that are not made from the one register byte in which two states differ are the
same. -/
theorem wordBytes_eq_of_source_ne {r : RegisterByte} (h : ∀ r' ≠ r, r'.value a = r'.value b)
    {place : Nat} (hplace : wordSources[place]? ≠ some (some r)) :
    wordBytes (ofState a).block place = wordBytes (ofState b).block place := by
  rw [block_ofState, block_ofState, wordBytes_flatMap, wordBytes_flatMap, List.getElem?_map,
    List.getElem?_map]
  cases hsource : wordSources[place]? with
  | none => rfl
  | some source =>
      have hword : sourceWord a source = sourceWord b source := by
        rw [sourceWord_eq_iff]
        intro r' hr'
        have hne : r' ≠ r := by
          rintro rfl
          exact hplace (hsource.trans (congrArg some hr'))
        rw [h r' hne]
      rw [Option.map_some, Option.map_some, hword]

/-- A word is made from a byte of a register without rounding, or from the byte over 255. -/
theorem toRat_sourceWord (s : PipelineState) (r : RegisterByte) :
    toRat (sourceWord s (some r)) = r.channel (r.value s)
      ∨ r.channel = unitChannel
        ∧ |toRat (sourceWord s (some r)) - unitChannel (r.value s)| * 2 ^ 24
          ≤ unitChannel (r.value s) := by
  cases r with
  | colorReference _ | alphaReference => exact Or.inl (toRat_byteChannel _)
  | colorMask _ | alphaMask => exact Or.inl (toRat_maskChannel _)
  | textureEnv _ | fogColor _ => exact Or.inr ⟨rfl, toRat_unitChannel_near _⟩

end PipelineState

/-- No register byte is the source of two words. -/
theorem source_unique {r : RegisterByte} {i j : Nat} (hi : wordSources[i]? = some (some r))
    (hj : wordSources[j]? = some (some r)) : i = j := by
  have hapart : ∀ i j : Fin 16, wordSources[i.val]? = wordSources[j.val]? →
      (wordSources[i.val]?).join.isSome → i = j := by decide
  have hlength : wordSources.length = 16 := rfl
  obtain ⟨hi16, -⟩ := List.getElem?_eq_some_iff.mp hi
  obtain ⟨hj16, -⟩ := List.getElem?_eq_some_iff.mp hj
  rw [hlength] at hi16 hj16
  have heq := hapart ⟨i, hi16⟩ ⟨j, hj16⟩ (hi.trans hj.symm) (by rw [hi]; rfl)
  exact congrArg Fin.val heq

namespace PipelineState

/-- **What the block of uniform values tells.** Two states have one block exactly if they agree on
the color bytes of three registers, on the alpha reference, and on which bytes of the masks are
empty. The block has sixteen words of four bytes, the lowest byte first. A word is made from the
register byte that the table of sources names: it is the number of the byte, or the byte over 255
up to one part in `2 ^ 24`, and without a source it is zero. States that differ in one register
byte, and in whatever else, differ in no word but the one that is made from the byte. -/
theorem uniformBlock_eq_iff (a b : PipelineState) :
    ((ofState a).block = (ofState b).block ↔ a.UniformsAgree b)
      ∧ (ofState a).block.length = 64
      ∧ (∀ place < 16, ∃ source, wordSources[place]? = some source
          ∧ littleEndian (wordBytes (ofState a).block place) = (sourceWord a source).toNat)
      ∧ (∀ r : RegisterByte, toRat (sourceWord a (some r)) = r.channel (r.value a)
          ∨ r.channel = unitChannel
            ∧ |toRat (sourceWord a (some r)) - unitChannel (r.value a)| * 2 ^ 24
              ≤ unitChannel (r.value a))
      ∧ (∀ r : RegisterByte, (∀ r' ≠ r, r'.value a = r'.value b) →
          ∀ place, wordSources[place]? ≠ some (some r) →
            wordBytes (ofState a).block place = wordBytes (ofState b).block place)
      ∧ ∀ (r : RegisterByte) (i j : Nat), wordSources[i]? = some (some r) →
          wordSources[j]? = some (some r) → i = j := by
  refine ⟨block_eq_iff a b, ?_, fun place hplace => ?_, toRat_sourceWord a,
    fun r h place => wordBytes_eq_of_source_ne a b h, fun r i j => source_unique⟩
  · rw [block_ofState, length_flatMap_bytes, List.length_map]
    rfl
  · have hsource : wordSources[place]? = some wordSources[place] := List.getElem?_eq_getElem _
    exact ⟨_, hsource, by rw [wordBytes_block a hsource, littleEndian_bytes]⟩

/-- The highest byte of a color and the bits of a mask byte do not show. The lowest byte of the fog
color shows, and in no other word than its own. -/
theorem uniformBlock_eq_iff_fog :
    let a : PipelineState :=
      { colorTest := { reference := 0xFF102030, mask := 0x0F }, fogColor := 0x804020 }
    let b : PipelineState :=
      { clearMode := true, colorTest := { reference := 0x102030, mask := 0xFF },
        fogColor := 0x1804020 }
    let c : PipelineState := { a with fogColor := 0x804021 }
    a.UniformsAgree b ∧ (ofState a).block = (ofState b).block
      ∧ (ofState a).block ≠ (ofState c).block
      ∧ (∀ r' ≠ RegisterByte.fogColor 0, r'.value a = r'.value c)
      ∧ wordSources[13]? ≠ some (some (.fogColor 0))
      ∧ wordBytes (ofState a).block 13 = wordBytes (ofState c).block 13 := by
  intro a b c
  have hagree : a.UniformsAgree b :=
    ⟨by decide, by decide, by decide, by decide, by decide, by decide⟩
  have hdiffer : ¬a.UniformsAgree c := fun h => absurd h.fogColor (by decide)
  have hothers : ∀ r' ≠ RegisterByte.fogColor 0, r'.value a = r'.value c := by
    intro r' hr'
    cases r' with
    | fogColor place =>
        have hplace : ∀ i : Fin 4, i ≠ 0 → wordByte 0x804020 i = wordByte 0x804021 i := by decide
        exact hplace place fun h => hr' (congrArg RegisterByte.fogColor h)
    | colorReference _ | colorMask _ | textureEnv _ | alphaReference | alphaMask => rfl
  have hsource : wordSources[13]? ≠ some (some (.fogColor 0)) := by decide
  exact ⟨hagree, (uniformBlock_eq_iff a b).1.mpr hagree,
    mt (uniformBlock_eq_iff a c).1.mp hdiffer, hothers, hsource,
    (uniformBlock_eq_iff a c).2.2.2.2.1 (.fogColor 0) hothers 13 hsource⟩

end PipelineState

end FixedFragment
