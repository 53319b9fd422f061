import Mathlib.Data.Finset.Option
import Mathlib.Data.Finset.Prod
import Mathlib.Data.Fintype.Option
import Mathlib.Data.Fintype.Prod
import Mathlib.Data.Set.Card
import FixedFragment.Proofs.CacheAccounting
import FixedFragment.Proofs.SourceKernel

set_option autoImplicit false

/-!
# Identifiers that states have

The decisions of states are the settled ones: each settled decision has a state, in which all
registers are chosen one by one (`Decisions.ofState_toState`). Outside clear mode the settled
decisions are a product of what is settled for the texture, for each test and for each flag, which
counts them and their identifiers. A cache keeps one shader for an identifier, so it cannot grow
beyond this number. Main statement: `reachable_identifiers`.
-/

namespace FixedFragment

/-! ## A state for settled decisions -/

namespace Decisions

/-- A state with the given decisions. No comparison with the reference 1 is sure to pass, and twice
the source alpha against a fixed color can be doubled in the shader. -/
def toState (d : Decisions) : PipelineState where
  clearMode := d.clearMode
  textureEnabled := d.texture.isSome
  textureFunction := d.texture.elim .modulate TextureUse.function
  textureAlphaUsed := d.texture.any TextureUse.rgba
  uvGenMode := if d.texture.any TextureUse.projected then .textureMatrix else .texCoords
  lightingEnabled := d.secondaryColor
  secondaryColor := d.secondaryColor
  fogEnabled := d.fog
  colorDoubling := d.colorDoubling
  alphaTest := { enabled := d.alphaTestEnabled, func := d.alphaTest.getD .always, reference := 1 }
  colorTest := { enabled := d.colorTestEnabled, func := d.colorTest.getD .always }
  blend := { enabled := d.alphaDoubling, src := .doubleSrcAlpha, dst := .fixed }

theorem alphaTestTrivial_toState {d : Decisions} (hd : d.Settled) :
    d.toState.alphaTestTrivial = d.alphaTest.isNone := by
  unfold PipelineState.alphaTestTrivial
  cases hf : d.alphaTest with
  | none => simp [toState, hf]
  | some f =>
      have hne : f ≠ .always := (hd.alphaTest f hf).2
      cases f with
      | always => exact absurd rfl hne
      | never | equal | notEqual | less | lessEqual | greater | greaterEqual => simp [toState, hf]

theorem colorTestTrivial_toState {d : Decisions} (hd : d.Settled) :
    d.toState.colorTestTrivial = d.colorTest.isNone := by
  unfold PipelineState.colorTestTrivial
  cases hf : d.colorTest with
  | none => simp [toState, hf]
  | some f =>
      have hne : f ≠ .always := (hd.colorTest f hf).2
      cases f with
      | always => exact absurd rfl hne
      | never | equal | notEqual => simp [toState, hf]

/-- The state of a settled decision shows the texture as it was decided. -/
theorem texture_toState {d : Decisions} (hd : d.Settled) :
    (if d.toState.textureEnabled then some d.toState.textureUse else none) = d.texture := by
  cases ht : d.texture with
  | none => simp [toState, ht]
  | some t =>
      have hrgba : (t.rgba && !t.function.isReserved) = t.rgba := by
        cases hreserved : t.function.isReserved with
        | false => exact Bool.and_true t.rgba
        | true =>
            rw [hd.rgba t ht hreserved]
            rfl
      obtain ⟨function, rgba, projected⟩ := t
      cases projected <;> simpa [toState, ht, PipelineState.textureUse] using hrgba

theorem alphaTest_toState {d : Decisions} (hd : d.Settled) :
    (if d.toState.alphaTest.enabled && !d.toState.alphaTestTrivial then
      some d.toState.alphaTest.func else none) = d.alphaTest := by
  rw [alphaTestTrivial_toState hd]
  cases hf : d.alphaTest with
  | none => simp
  | some f => simp [toState, hf, (hd.alphaTest f hf).1]

theorem colorTest_toState {d : Decisions} (hd : d.Settled) :
    (if d.toState.colorTest.enabled && !d.toState.colorTestTrivial then
      some d.toState.colorTest.func else none) = d.colorTest := by
  rw [colorTestTrivial_toState hd]
  cases hf : d.colorTest with
  | none => simp
  | some f => simp [toState, hf, (hd.colorTest f hf).1]

theorem ofState_toState {d : Decisions} (hd : d.Settled) : ofState d.toState = d := by
  cases hclear : d.clearMode with
  | true =>
      have hmode : d.toState.clearMode = true := hclear
      rw [ofState, if_pos hmode]
      exact (hd.clear hclear).symm
  | false =>
      have hmode : ¬d.toState.clearMode = true := Bool.eq_false_iff.mp hclear
      have hsecond : (d.toState.lightingEnabled && d.toState.secondaryColor) = d.secondaryColor :=
        Bool.and_self d.secondaryColor
      have hfog : (d.toState.fogEnabled && !d.toState.throughMode) = d.fog := Bool.and_true d.fog
      have hdoubling : d.toState.alphaDoubledInShader = d.alphaDoubling :=
        Bool.and_true d.alphaDoubling
      rw [ofState, if_neg hmode, texture_toState hd, alphaTest_toState hd, colorTest_toState hd,
        hsecond, hfog, hdoubling, ← hclear]
      rfl

/-- The decisions of states are the settled ones. -/
theorem exists_ofState_iff (d : Decisions) : (∃ s, ofState s = d) ↔ d.Settled := by
  constructor
  · rintro ⟨s, rfl⟩
    exact settled_ofState s
  · intro hd
    exact ⟨d.toState, ofState_toState hd⟩

theorem settled_iff (d : Decisions) :
    d.Settled ↔ d = { clearMode := true }
      ∨ (d.clearMode = false
        ∧ (∀ t, d.texture = some t → t.rgba = true → t.function.isReserved = false)
        ∧ (∀ f, d.alphaTest = some f → d.alphaTestEnabled = true ∧ f ≠ .always)
        ∧ ∀ f, d.colorTest = some f → d.colorTestEnabled = true ∧ f ≠ .always) := by
  constructor
  · intro hd
    cases hclear : d.clearMode with
    | true => exact .inl (hd.clear hclear)
    | false =>
        refine .inr ⟨rfl, fun t ht hrgba => ?_, hd.alphaTest, hd.colorTest⟩
        by_contra hreserved
        have hoff := hd.rgba t ht (Bool.eq_true_of_not_eq_false hreserved)
        exact Bool.false_ne_true (hoff.symm.trans hrgba)
  · rintro (rfl | ⟨hclear, hrgba, halpha, hcolor⟩)
    · exact settled_ofState { clearMode := true }
    · exact
        { clear := fun h => absurd (hclear.symm.trans h) Bool.false_ne_true
          rgba := fun t ht hreserved => by
            by_contra hon
            have hfree := hrgba t ht (Bool.eq_true_of_not_eq_false hon)
            exact Bool.false_ne_true (hfree.symm.trans hreserved)
          alphaTest := halpha
          colorTest := hcolor }

end Decisions

/-! ## Counting settled decisions -/

/-- All values of a register field. -/
abbrev RegisterField.fintype (α : Type) [RegisterField α] [DecidableEq α] : Fintype α where
  elems := (RegisterField.values : List α).toFinset
  complete a := List.mem_toFinset.mpr (RegisterField.mem_values a)

instance : Fintype TextureFunction := RegisterField.fintype TextureFunction
instance : Fintype CompareFunc := RegisterField.fintype CompareFunc
instance : Fintype ColorTestFunc := RegisterField.fintype ColorTestFunc

instance : Fintype TextureUse :=
  .ofEquiv (TextureFunction × Bool × Bool)
    { toFun := fun t => ⟨t.1, t.2.1, t.2.2⟩
      invFun := fun t => (t.function, t.rgba, t.projected) }

/-- What is settled for the texture. -/
def settledTextures : Finset (Option TextureUse) :=
  Finset.univ.filter fun o => ∀ t ∈ o, t.rgba = true → t.function.isReserved = false

/-- What is settled for a test: whether it is on, and the comparison that is alive. -/
def settledTests {α : Type} [Fintype α] [DecidableEq α] (always : α) : Finset (Bool × Option α) :=
  Finset.univ.filter fun t => ∀ f ∈ t.2, t.1 = true ∧ f ≠ always

theorem card_settledTextures : settledTextures.card = 27 := by decide

theorem card_settledAlphaTests : (settledTests CompareFunc.always).card = 9 := by decide

theorem card_settledColorTests : (settledTests ColorTestFunc.always).card = 5 := by decide

namespace Decisions

/-- Decisions outside clear mode from their parts: the texture, the two tests, and the flags for the
second color, for fog and for doubling color and alpha. -/
def ofParts : Option TextureUse × (Bool × Option CompareFunc) × (Bool × Option ColorTestFunc)
    × Bool × Bool × Bool × Bool ↪ Decisions where
  toFun := fun (texture, (alphaOn, alpha), (colorOn, color), secondary, fog, colorDoubling,
      alphaDoubling) =>
    { texture := texture
      secondaryColor := secondary
      alphaTestEnabled := alphaOn
      alphaTest := alpha
      colorTestEnabled := colorOn
      colorTest := color
      fog := fog
      colorDoubling := colorDoubling
      alphaDoubling := alphaDoubling }
  inj' := by
    rintro ⟨_, ⟨_, _⟩, ⟨_, _⟩, _, _, _, _⟩ ⟨_, ⟨_, _⟩, ⟨_, _⟩, _, _, _, _⟩ h
    cases h
    rfl

/-- All settled decisions. -/
def allSettled : Finset Decisions :=
  insert { clearMode := true }
    ((settledTextures ×ˢ settledTests CompareFunc.always ×ˢ settledTests ColorTestFunc.always
      ×ˢ Finset.univ).map ofParts)

theorem mem_allSettled (d : Decisions) : d ∈ allSettled ↔ d.Settled := by
  rw [settled_iff, allSettled, Finset.mem_insert, Finset.mem_map]
  refine or_congr_right ?_
  constructor
  · rintro ⟨⟨texture, ⟨alphaOn, alpha⟩, ⟨colorOn, color⟩, flags⟩, hparts, rfl⟩
    simp only [Finset.mem_product, settledTextures, settledTests, Finset.mem_filter,
      Finset.mem_univ, true_and, and_true] at hparts
    exact ⟨rfl, hparts⟩
  · rintro ⟨hclear, hparts⟩
    obtain ⟨_, texture, secondary, alphaOn, alpha, colorOn, color, fog, colorDoubling,
      alphaDoubling⟩ := d
    obtain rfl : _ = false := hclear
    refine ⟨(texture, (alphaOn, alpha), (colorOn, color), secondary, fog, colorDoubling,
      alphaDoubling), ?_, rfl⟩
    simp only [Finset.mem_product, settledTextures, settledTests, Finset.mem_filter,
      Finset.mem_univ, true_and, and_true]
    exact hparts

theorem card_allSettled : allSettled.card = 19441 := by
  rw [allSettled, Finset.card_insert_of_notMem, Finset.card_map, Finset.card_product,
    Finset.card_product, Finset.card_product, card_settledTextures, card_settledAlphaTests,
    card_settledColorTests]
  · rfl
  · -- The decisions of clear mode have no parts.
    rw [Finset.mem_map]
    rintro ⟨parts, -, h⟩
    cases congrArg clearMode h

/-- Identifiers tell settled decisions apart, in clear mode too. -/
theorem shaderId_injOn : Set.InjOn shaderId (allSettled : Set Decisions) := by
  intro d hd e he h
  obtain ⟨s, rfl⟩ := (exists_ofState_iff d).mpr ((mem_allSettled d).mp hd)
  obtain ⟨t, rfl⟩ := (exists_ofState_iff e).mpr ((mem_allSettled e).mp he)
  exact PipelineState.ofState_eq_of_shaderId_eq h

/-- The identifiers of all settled decisions. -/
def allIds : Finset ShaderId := allSettled.image shaderId

theorem card_allIds : allIds.card = 19441 := by
  rw [allIds, Finset.card_image_of_injOn shaderId_injOn, card_allSettled]

theorem mem_allIds (id : ShaderId) : id ∈ allIds ↔ id ∈ Set.range PipelineState.shaderId := by
  rw [allIds, Finset.mem_image, Set.mem_range]
  constructor
  · rintro ⟨d, hd, rfl⟩
    obtain ⟨s, rfl⟩ := (exists_ofState_iff d).mpr ((mem_allSettled d).mp hd)
    exact ⟨s, rfl⟩
  · rintro ⟨s, rfl⟩
    exact ⟨ofState s, (mem_allSettled _).mpr (settled_ofState s), rfl⟩

end Decisions

/-! ## The size of a cache -/

namespace ShaderCache.Session

theorem idsAsked_subset {ids : List ShaderId} (h : ∀ id ∈ ids, id ∈ Decisions.allIds)
    (p : EmitPolicy) (us : List Use) : ∀ id ∈ idsAsked p ids us, id ∈ Decisions.allIds := by
  induction us generalizing p ids with
  | nil => exact h
  | cons u us ih =>
      cases u with
      | get s =>
          refine ih (fun id hid => ?_) p
          rcases List.mem_cons.mp hid with rfl | hid
          · exact (Decisions.mem_allIds _).mpr ⟨s, rfl⟩
          · exact h id hid
      | setPolicy q =>
          refine ih (fun id hid => ?_) q
          split at hid
          · exact h id hid
          · cases hid

theorem size_after_le (p : EmitPolicy) (us : List Use) :
    ((start p).after us).cache.size ≤ 19441 := by
  rw [((accounts_start p).after us).size, ← Decisions.card_allIds]
  refine Finset.card_le_card fun id hid => ?_
  exact idsAsked_subset (by simp) p us id (List.mem_toFinset.mp hid)

theorem mem_idsAsked_get (p : EmitPolicy) (ids : List ShaderId) (ss : List PipelineState)
    (id : ShaderId) :
    id ∈ idsAsked p ids (ss.map Use.get) ↔ id ∈ ids ∨ ∃ s ∈ ss, s.shaderId = id := by
  induction ss generalizing ids with
  | nil => simp [idsAsked]
  | cons s ss ih =>
      rw [List.map_cons, idsAsked, ih, List.mem_cons, List.exists_mem_cons_iff, @eq_comm _ id,
        or_assoc, or_left_comm]

/-- Asking for a state of each settled decision fills the cache. -/
theorem exists_size_after (p : EmitPolicy) :
    ∃ us : List Use, ((start p).after us).cache.size = 19441 := by
  refine ⟨(Decisions.allSettled.toList.map Decisions.toState).map Use.get, ?_⟩
  have hall : (idsAsked p [] ((Decisions.allSettled.toList.map Decisions.toState).map
      Use.get)).toFinset = Decisions.allIds := by
    ext id
    rw [List.mem_toFinset, mem_idsAsked_get, Decisions.allIds, Finset.mem_image]
    constructor
    · rintro (h | ⟨s, hs, rfl⟩)
      · cases h
      · obtain ⟨d, hd, rfl⟩ := List.mem_map.mp hs
        refine ⟨d, Finset.mem_toList.mp hd, ?_⟩
        have hsettled := (Decisions.mem_allSettled d).mp (Finset.mem_toList.mp hd)
        rw [PipelineState.shaderId, Decisions.ofState_toState hsettled]
    · rintro ⟨d, hd, rfl⟩
      refine .inr ⟨d.toState, List.mem_map_of_mem (Finset.mem_toList.mpr hd), ?_⟩
      rw [PipelineState.shaderId, Decisions.ofState_toState ((Decisions.mem_allSettled d).mp hd)]
  rw [((accounts_start p).after _).size, hall, Decisions.card_allIds]

end ShaderCache.Session

/-- **The identifiers that states have.** Decisions are those of some state exactly if they are
those of clear mode, or clear mode is off, the reserved texture functions read no texel alpha, and a
test is alive only if it is on and not sure to pass. States have 19441 identifiers, so whatever the
uses, a cache keeps at most as many shaders, and for every policy some uses make it keep as many. -/
theorem reachable_identifiers :
    (∀ d : Decisions, (∃ s, Decisions.ofState s = d)
        ↔ d = { clearMode := true }
          ∨ (d.clearMode = false
            ∧ (∀ t, d.texture = some t → t.rgba = true → t.function.isReserved = false)
            ∧ (∀ f, d.alphaTest = some f → d.alphaTestEnabled = true ∧ f ≠ .always)
            ∧ ∀ f, d.colorTest = some f → d.colorTestEnabled = true ∧ f ≠ .always))
      ∧ (Set.range PipelineState.shaderId).ncard = 19441
      ∧ (∀ (p : EmitPolicy) (us : List ShaderCache.Use),
          ((ShaderCache.Session.start p).after us).cache.size ≤ 19441)
      ∧ ∀ p : EmitPolicy, ∃ us : List ShaderCache.Use,
          ((ShaderCache.Session.start p).after us).cache.size = 19441 := by
  have hids : Set.range PipelineState.shaderId = (Decisions.allIds : Set ShaderId) := by
    ext id
    exact (Decisions.mem_allIds id).symm
  refine ⟨fun d => ?_, ?_, ShaderCache.Session.size_after_le,
    ShaderCache.Session.exists_size_after⟩
  · rw [Decisions.exists_ofState_iff, Decisions.settled_iff]
  · rw [hids, Set.ncard_coe_finset, Decisions.card_allIds]

/-- A reserved function that reads texel alpha is a decision of no state, and a comparison that
never passes is one of some state. -/
theorem reachable_identifiers_reserved :
    (¬∃ s, Decisions.ofState s = { texture := some ⟨.reserved5, true, false⟩ })
      ∧ ∃ s, Decisions.ofState s = { alphaTestEnabled := true, alphaTest := some .never } := by
  obtain ⟨hreachable, -⟩ := reachable_identifiers
  constructor
  · rw [hreachable]
    rintro (h | ⟨-, hrgba, -⟩)
    · cases congrArg Decisions.clearMode h
    · cases hrgba _ rfl rfl
  · rw [hreachable]
    refine .inr ⟨rfl, fun t ht => ?_, fun f hf => ?_, fun f hf => ?_⟩
    · cases ht
    · cases hf
      exact ⟨rfl, by decide⟩
    · cases hf

end FixedFragment
