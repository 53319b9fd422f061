import Mathlib.Data.Finset.Card
import FixedFragment.Proofs.CacheTransparency
import FixedFragment.Proofs.DrawCounting

set_option autoImplicit false

/-!
# What a cache counts

Since the policy last changed, a cache has kept one shader for each identifier asked for
(`Session.Accounts`), so a look-up misses exactly if its identifier is new. Look-ups count once, as
a hit or a miss, and their draws are those of the states asked for. Sessions are `Alike` if no use
tells them apart; uses under one policy can be put in any order. Main statement: `run_accounts`.
-/

namespace FixedFragment

namespace ShaderCache

/-! ## One look-up -/

theorem lookup_of_mem {c : ShaderCache} {d : Decisions} (h : d.shaderId ∈ c.shaders) :
    c.lookup d = (c.shaders[d.shaderId], { c with hits := c.hits + 1 }) := by
  rw [lookup, Std.HashMap.getElem?_eq_some_getElem h]

theorem lookup_of_notMem {c : ShaderCache} {d : Decisions} (h : d.shaderId ∉ c.shaders) :
    c.lookup d
      = (d.shader c.policy,
          { c with
            shaders := c.shaders.insert d.shaderId (d.shader c.policy)
            misses := c.misses + 1 }) := by
  rw [lookup, Std.HashMap.getElem?_eq_none h]

theorem hits_lookup (c : ShaderCache) (d : Decisions) :
    (c.lookup d).2.hits = c.hits + if d.shaderId ∈ c.shaders then 1 else 0 := by
  by_cases h : d.shaderId ∈ c.shaders
  · rw [lookup_of_mem h, if_pos h]
  · rw [lookup_of_notMem h, if_neg h]
    rfl

theorem misses_lookup (c : ShaderCache) (d : Decisions) :
    (c.lookup d).2.misses = c.misses + if d.shaderId ∈ c.shaders then 0 else 1 := by
  by_cases h : d.shaderId ∈ c.shaders
  · rw [lookup_of_mem h, if_pos h]
    rfl
  · rw [lookup_of_notMem h, if_neg h]

/-- A look-up keeps the shader that it gives, and all others as they are. -/
theorem getElem?_lookup (c : ShaderCache) (d : Decisions) (id : ShaderId) :
    (c.lookup d).2.shaders[id]?
      = if d.shaderId = id then some ((c.shaders[d.shaderId]?).getD (d.shader c.policy))
        else c.shaders[id]? := by
  by_cases h : d.shaderId ∈ c.shaders
  · rw [lookup_of_mem h, Std.HashMap.getElem?_eq_some_getElem h]
    split
    · next hid =>
        subst hid
        exact Std.HashMap.getElem?_eq_some_getElem h
    · rfl
  · rw [lookup_of_notMem h, Std.HashMap.getElem?_eq_none h]
    simp only [Std.HashMap.getElem?_insert, beq_iff_eq, Option.getD_none]

theorem mem_lookup (c : ShaderCache) (d : Decisions) (id : ShaderId) :
    id ∈ (c.lookup d).2.shaders ↔ d.shaderId = id ∨ id ∈ c.shaders := by
  rw [Std.HashMap.mem_iff_isSome_getElem?, Std.HashMap.mem_iff_isSome_getElem?, getElem?_lookup]
  split <;> simp [*]

theorem size_lookup (c : ShaderCache) (d : Decisions) :
    (c.lookup d).2.size = c.size + if d.shaderId ∈ c.shaders then 0 else 1 := by
  by_cases h : d.shaderId ∈ c.shaders
  · rw [lookup_of_mem h, if_pos h]
    rfl
  · rw [lookup_of_notMem h, if_neg h]
    exact Std.HashMap.size_insert.trans (if_neg h)

theorem hits_setPolicy (c : ShaderCache) (p : EmitPolicy) : (c.setPolicy p).hits = c.hits := by
  unfold setPolicy
  split <;> rfl

theorem misses_setPolicy (c : ShaderCache) (p : EmitPolicy) :
    (c.setPolicy p).misses = c.misses := by
  unfold setPolicy
  split <;> rfl

/-! ## Uses and what they ask for -/

/-- The state that a use asks a shader for. -/
def Use.state? : Use → Option PipelineState
  | .get s => some s
  | .setPolicy _ => none

/-- The use leaves the policy `p` in force. -/
def Use.Keeps (p : EmitPolicy) : Use → Prop
  | .get _ => True
  | .setPolicy q => q = p

namespace Session

/-- The session of a new cache with new statistics. -/
def start (p : EmitPolicy) : Session where
  cache := .new p

/-- The session after uses in order. -/
def after (x : Session) (us : List Use) : Session := (x.run us).1

theorem after_cons (x : Session) (u : Use) (us : List Use) :
    x.after (u :: us) = (x.step u).1.after us := rfl

theorem after_append (x : Session) (us vs : List Use) :
    x.after (us ++ vs) = (x.after us).after vs := by
  induction us generalizing x with
  | nil => rfl
  | cons u us ih => exact ih (x.step u).1

/-- The states that uses ask shaders for, one for each look-up. -/
def statesAsked (us : List Use) : List PipelineState := us.filterMap Use.state?

/-- The identifiers asked for since the policy last changed, the last one first. Before the uses,
`p` was in force and `ids` were asked for. -/
def idsAsked (p : EmitPolicy) (ids : List ShaderId) : List Use → List ShaderId
  | [] => ids
  | .get s :: us => idsAsked p (s.shaderId :: ids) us
  | .setPolicy q :: us => idsAsked q (if q = p then ids else []) us

/-! ## The parts of a session after one use -/

theorem cache_get (x : Session) (s : PipelineState) :
    (x.get s).2.cache = (x.cache.lookup (Decisions.ofState s)).2 := rfl

theorem stats_get (x : Session) (s : PipelineState) :
    (x.get s).2.stats = x.stats.recordAll s.draws := rfl

theorem cache_setPolicy (x : Session) (p : EmitPolicy) :
    (x.setPolicy p).cache = x.cache.setPolicy p := rfl

/-- Setting the policy in force changes nothing. -/
theorem setPolicy_self (x : Session) : x.setPolicy x.cache.policy = x :=
  congrArg (Session.mk · x.stats) x.cache.setPolicy_self

/-! ## The shaders kept -/

/-- Since the policy `p` is in force, `ids` were asked for, and one shader is kept for each. -/
structure Accounts (x : Session) (p : EmitPolicy) (ids : List ShaderId) : Prop where
  policy : x.cache.policy = p
  mem : ∀ id, id ∈ x.cache.shaders ↔ id ∈ ids
  size : x.cache.size = ids.toFinset.card

theorem accounts_start (p : EmitPolicy) : (start p).Accounts p [] where
  policy := rfl
  mem id := by simp [start, ShaderCache.new]
  size := rfl

variable {x : Session} {p : EmitPolicy} {ids : List ShaderId}

/-- The shader of a state is found exactly if its identifier was asked for. -/
theorem Accounts.found_iff (h : x.Accounts p ids) (s : PipelineState) :
    (Decisions.ofState s).shaderId ∈ x.cache.shaders ↔ s.shaderId ∈ ids :=
  h.mem s.shaderId

theorem Accounts.get (h : x.Accounts p ids) (s : PipelineState) :
    (x.get s).2.Accounts p (s.shaderId :: ids) where
  policy := by rw [cache_get, policy_lookup, h.policy]
  mem id := by
    rw [cache_get, mem_lookup, h.mem, List.mem_cons, eq_comm]
    rfl
  size := by
    rw [cache_get, size_lookup, h.size, List.toFinset_cons]
    by_cases hid : s.shaderId ∈ ids
    · rw [if_pos ((h.found_iff s).mpr hid), Finset.insert_eq_of_mem (List.mem_toFinset.mpr hid)]
      rfl
    · rw [if_neg (mt (h.found_iff s).mp hid),
        Finset.card_insert_of_notMem (mt List.mem_toFinset.mp hid)]

theorem Accounts.setPolicy (h : x.Accounts p ids) (q : EmitPolicy) :
    (x.setPolicy q).Accounts q (if q = p then ids else []) := by
  obtain ⟨rfl, hmem, hsize⟩ := h
  by_cases hq : q = x.cache.policy
  · subst hq
    rw [setPolicy_self, if_pos rfl]
    exact ⟨rfl, hmem, hsize⟩
  · have hset : (x.setPolicy q).cache = { x.cache with policy := q, shaders := {} } := if_neg hq
    rw [if_neg hq]
    exact ⟨policy_setPolicy _ _, fun id => by simp [hset], by rw [hset]; rfl⟩

theorem Accounts.after (h : x.Accounts p ids) (us : List Use) :
    (x.after us).Accounts (policyAfter p us) (idsAsked p ids us) := by
  -- The session changes with each use; what it keeps is that its cache has accounts.
  induction us generalizing x p ids with
  | nil => exact h
  | cons u us ih =>
      cases u with
      | get s => exact ih (h.get s)
      | setPolicy q => exact ih (h.setPolicy q)

/-- A look-up misses exactly if its identifier was not asked for since the policy changed. -/
theorem Accounts.get_counts (h : x.Accounts p ids) (s : PipelineState) :
    ((x.get s).2.cache.misses = x.cache.misses + 1 ↔ s.shaderId ∉ ids)
      ∧ ((x.get s).2.cache.hits = x.cache.hits + 1 ↔ s.shaderId ∈ ids) := by
  rw [cache_get, hits_lookup, misses_lookup]
  by_cases hid : s.shaderId ∈ ids <;> simp [h.found_iff, hid]

/-! ## Look-ups and draws -/

theorem hits_add_misses_after (x : Session) (us : List Use) :
    (x.after us).cache.hits + (x.after us).cache.misses
      = x.cache.hits + x.cache.misses + (statesAsked us).length := by
  induction us generalizing x with
  | nil => rfl
  | cons u us ih =>
      rw [after_cons, ih]
      cases u with
      | get s =>
          show (x.get s).2.cache.hits + (x.get s).2.cache.misses + (statesAsked us).length
            = x.cache.hits + x.cache.misses + ((statesAsked us).length + 1)
          rw [cache_get, hits_add_misses_lookup]
          omega
      | setPolicy q =>
          show (x.setPolicy q).cache.hits + (x.setPolicy q).cache.misses + (statesAsked us).length
            = x.cache.hits + x.cache.misses + (statesAsked us).length
          rw [cache_setPolicy, hits_setPolicy, misses_setPolicy]

/-- A draw is counted at most once. -/
theorem length_draws_le (ss : List PipelineState) :
    (ss.flatMap PipelineState.draws).length ≤ ss.length := by
  induction ss with
  | nil => exact Nat.le_refl 0
  | cons s ss ih =>
      have hone : s.draws.length ≤ 1 := by
        unfold PipelineState.draws Decisions.draws
        split <;> simp
      rw [List.flatMap_cons, List.length_append, List.length_cons]
      omega

theorem stats_after (x : Session) (us : List Use) :
    (x.after us).stats = x.stats.recordAll ((statesAsked us).flatMap PipelineState.draws) := by
  induction us generalizing x with
  | nil => rfl
  | cons u us ih =>
      rw [after_cons, ih]
      cases u with
      | get s => exact (x.stats.recordAll_append _ _).symm
      | setPolicy q => rfl

/-! ## Sessions that no use tells apart -/

/-- The sessions have the same policy, counts and statistics, and keep the same shaders. -/
structure Alike (x y : Session) : Prop where
  policy : x.cache.policy = y.cache.policy
  shaders : ∀ id : ShaderId, x.cache.shaders[id]? = y.cache.shaders[id]?
  hits : x.cache.hits = y.cache.hits
  misses : x.cache.misses = y.cache.misses
  stats : x.stats = y.stats

variable {y z : Session}

theorem Alike.refl (x : Session) : Alike x x := ⟨rfl, fun _ => rfl, rfl, rfl, rfl⟩

theorem Alike.trans (h : Alike x y) (h' : Alike y z) : Alike x z where
  policy := h.policy.trans h'.policy
  shaders id := (h.shaders id).trans (h'.shaders id)
  hits := h.hits.trans h'.hits
  misses := h.misses.trans h'.misses
  stats := h.stats.trans h'.stats

theorem Alike.mem_iff (h : Alike x y) (id : ShaderId) :
    id ∈ x.cache.shaders ↔ id ∈ y.cache.shaders := by
  rw [Std.HashMap.mem_iff_isSome_getElem?, Std.HashMap.mem_iff_isSome_getElem?, h.shaders]

theorem Alike.size (h : Alike x y) : x.cache.size = y.cache.size :=
  (Std.HashMap.Equiv.of_forall_getElem?_eq h.shaders).size_eq

theorem Alike.get (h : Alike x y) (s : PipelineState) : Alike (x.get s).2 (y.get s).2 where
  policy := by simp only [cache_get, policy_lookup, h.policy]
  shaders id := by simp only [cache_get, getElem?_lookup, h.shaders, h.policy]
  hits := by simp only [cache_get, hits_lookup, h.hits, h.mem_iff]
  misses := by simp only [cache_get, misses_lookup, h.misses, h.mem_iff]
  stats := by rw [stats_get, stats_get, h.stats]

theorem Alike.setPolicy (h : Alike x y) (q : EmitPolicy) :
    Alike (x.setPolicy q) (y.setPolicy q) where
  policy := (policy_setPolicy _ _).trans (policy_setPolicy _ _).symm
  shaders id := by
    rw [cache_setPolicy, cache_setPolicy, ShaderCache.setPolicy, ShaderCache.setPolicy, h.policy]
    split
    · exact h.shaders id
    · rfl
  hits := ((hits_setPolicy _ _).trans h.hits).trans (hits_setPolicy _ _).symm
  misses := ((misses_setPolicy _ _).trans h.misses).trans (misses_setPolicy _ _).symm
  stats := h.stats

theorem Alike.after (h : Alike x y) (us : List Use) : Alike (x.after us) (y.after us) := by
  induction us generalizing x y with
  | nil => exact h
  | cons u us ih =>
      cases u with
      | get s => exact ih (h.get s)
      | setPolicy q => exact ih (h.setPolicy q)

/-! ## The order of uses -/

/-- States with one identifier have the same decisions, so that asking for the one is asking for
the other. The shaders of other states do not touch each other. -/
theorem alike_get_get (x : Session) (s t : PipelineState) :
    Alike ((x.get s).2.get t).2 ((x.get t).2.get s).2 := by
  by_cases hid : s.shaderId = t.shaderId
  · have hget (z : Session) : z.get s = z.get t := by
      rw [Session.get, Session.get, PipelineState.ofState_eq_of_shaderId_eq hid]
    rw [hget, hget]
    exact Alike.refl _
  · have hids : (Decisions.ofState s).shaderId ≠ (Decisions.ofState t).shaderId := hid
    exact
      { policy := by simp only [cache_get, policy_lookup]
        shaders := fun id => by
          simp only [cache_get, getElem?_lookup, policy_lookup, if_neg hids, if_neg hids.symm]
          split
          · next h => rw [if_neg fun h' => hids (h'.trans h.symm)]
          · rfl
        hits := by
          simp only [cache_get, hits_lookup, mem_lookup, hids, hids.symm, false_or]
          exact Nat.add_right_comm _ _ _
        misses := by
          simp only [cache_get, misses_lookup, mem_lookup, hids, hids.symm, false_or]
          exact Nat.add_right_comm _ _ _
        stats := by
          simp only [stats_get, ← DrawStats.recordAll_append]
          exact DrawStats.recordAll_perm List.perm_append_comm x.stats }

theorem policy_step_of_keeps {u : Use} (hu : u.Keeps x.cache.policy) :
    (x.step u).1.cache.policy = x.cache.policy := by
  cases u with
  | get s => exact policy_lookup _ _
  | setPolicy q => exact (policy_setPolicy _ _).trans hu

theorem step_setPolicy_of_keeps {q : EmitPolicy} (hq : (Use.setPolicy q).Keeps x.cache.policy) :
    (x.step (.setPolicy q)).1 = x := by
  obtain rfl : q = x.cache.policy := hq
  exact x.setPolicy_self

theorem alike_step_step {u v : Use} (hu : u.Keeps x.cache.policy) (hv : v.Keeps x.cache.policy) :
    Alike ((x.step u).1.step v).1 ((x.step v).1.step u).1 := by
  have hu' : u.Keeps (x.step v).1.cache.policy := (policy_step_of_keeps hv).symm ▸ hu
  have hv' : v.Keeps (x.step u).1.cache.policy := (policy_step_of_keeps hu).symm ▸ hv
  cases u with
  | setPolicy q =>
      rw [step_setPolicy_of_keeps hu, step_setPolicy_of_keeps hu']
      exact Alike.refl _
  | get s =>
      cases v with
      | setPolicy q =>
          rw [step_setPolicy_of_keeps hv, step_setPolicy_of_keeps hv']
          exact Alike.refl _
      | get t => exact alike_get_get x s t

/-- Uses that keep the policy in force can be put in any order. -/
theorem alike_after_of_perm {us vs : List Use} (h : us.Perm vs)
    (hkeeps : ∀ u ∈ us, u.Keeps x.cache.policy) : Alike (x.after us) (x.after vs) := by
  induction h generalizing x with
  | nil => exact Alike.refl _
  | cons u _ ih =>
      have hu : u.Keeps x.cache.policy := hkeeps u List.mem_cons_self
      refine ih fun v hv => ?_
      show v.Keeps (x.step u).1.cache.policy
      rw [policy_step_of_keeps hu]
      exact hkeeps v (List.mem_cons_of_mem u hv)
  | swap u v us =>
      have hu : u.Keeps x.cache.policy := hkeeps u (by simp)
      have hv : v.Keeps x.cache.policy := hkeeps v (by simp)
      exact (alike_step_step hv hu).after us
  | trans hfirst _ ihfirst ihsecond =>
      exact (ihfirst hkeeps).trans (ihsecond fun u hu => hkeeps u (hfirst.mem_iff.mpr hu))

/-! ## Whole runs -/

/-- **What a cache counts.** After fewer than `2 ^ 64` uses of a new cache, every look-up is counted
once, as a hit or as a miss, the cache keeps as many shaders as there are different identifiers
asked for since the policy last changed, and the statistics count the draws of the states asked
for. The next look-up misses exactly if its identifier is not among these, and hit or miss it
counts what computing the identifier counts: one draw, and none in clear mode. Setting a policy
leaves the counts, and setting the one in force leaves everything. Further uses that keep the
policy in force can be put in any order, whatever comes after them. -/
theorem run_accounts (p : EmitPolicy) (us : List Use) (hus : us.length < 2 ^ 64) :
    let x := (start p).after us
    let ids := idsAsked p [] us
    (x.cache.hits + x.cache.misses = (statesAsked us).length
        ∧ x.cache.hits < 2 ^ 64 ∧ x.cache.misses < 2 ^ 64)
      ∧ x.cache.size = ids.toFinset.card
      ∧ (∀ b, (x.stats.counter b).toNat
          = ((statesAsked us).flatMap PipelineState.draws).count b)
      ∧ (∀ s : PipelineState,
          ((x.get s).2.cache.misses = x.cache.misses + 1 ↔ s.shaderId ∉ ids)
            ∧ ((x.get s).2.cache.hits = x.cache.hits + 1 ↔ s.shaderId ∈ ids)
            ∧ (x.get s).2.stats = (s.countedShaderId x.stats).2
            ∧ s.draws = if s.clearMode then [] else [(Decisions.ofState s).alphaTest.isSome])
      ∧ (∀ q : EmitPolicy,
          (x.setPolicy q).cache.hits = x.cache.hits
            ∧ (x.setPolicy q).cache.misses = x.cache.misses
            ∧ (x.setPolicy q).stats = x.stats
            ∧ (q = x.cache.policy → x.setPolicy q = x))
      ∧ ∀ vs vs' ws : List Use, vs.Perm vs' → (∀ v ∈ vs, v.Keeps x.cache.policy) →
          Alike (x.after (vs ++ ws)) (x.after (vs' ++ ws))
            ∧ (x.after (vs ++ ws)).cache.size = (x.after (vs' ++ ws)).cache.size := by
  intro x ids
  have haccounts : x.Accounts (policyAfter p us) ids := (accounts_start p).after us
  have hasked : (statesAsked us).length ≤ us.length := List.length_filterMap_le _ _
  have hlookups : x.cache.hits + x.cache.misses = (statesAsked us).length :=
    ((start p).hits_add_misses_after us).trans (Nat.zero_add _)
  have hdraws : x.stats
      = ({} : DrawStats).recordAll ((statesAsked us).flatMap PipelineState.draws) :=
    (start p).stats_after us
  refine ⟨⟨hlookups, by omega, by omega⟩, haccounts.size, fun b => ?_, fun s => ?_, fun q => ?_,
    fun vs vs' ws hperm hkeeps => ?_⟩
  · have hfew : ((statesAsked us).flatMap PipelineState.draws).length < 2 ^ 64 :=
      Nat.lt_of_le_of_lt ((length_draws_le _).trans hasked) hus
    rw [hdraws, DrawStats.toNat_counter_recordAll_new hfew]
  · obtain ⟨hmiss, hhit⟩ := haccounts.get_counts s
    refine ⟨hmiss, hhit, rfl, ?_⟩
    rw [PipelineState.draws, Decisions.draws, Decisions.clearMode_ofState]
  · exact ⟨hits_setPolicy _ _, misses_setPolicy _ _, rfl, fun hq => step_setPolicy_of_keeps hq⟩
  · rw [after_append, after_append]
    have halike := (alike_after_of_perm hperm hkeeps).after ws
    exact ⟨halike, halike.size⟩

/-- After a change of policy an identifier is new again, and setting the same policy once more
forgets nothing. -/
theorem run_accounts_changed :
    let us : List Use :=
      [.get {}, .get { textureFunction := .decal }, .setPolicy .embedded, .get {},
        .setPolicy .embedded, .get { clearMode := true }]
    let x := (start .desktop).after us
    us.length < 2 ^ 64
      ∧ x.cache.hits + x.cache.misses = 4 ∧ x.cache.size = 2
      ∧ (x.stats.counter false).toNat = 3 ∧ (x.stats.counter true).toNat = 0
      ∧ (x.get {}).2.cache.hits = x.cache.hits + 1
      ∧ (x.get { fogEnabled := true }).2.cache.misses = x.cache.misses + 1
      ∧ Alike (x.after ([.get {}, .get { fogEnabled := true }] ++ []))
          (x.after ([.get { fogEnabled := true }, .get {}] ++ [])) := by
  intro us x
  have hus : us.length < 2 ^ 64 := by decide
  obtain ⟨⟨hlookups, -⟩, hsize, hdraws, hnext, -, horder⟩ := run_accounts .desktop us hus
  have hids : idsAsked .desktop [] us
      = [PipelineState.shaderId { clearMode := true }, PipelineState.shaderId {}] := rfl
  rw [hids] at hsize hnext
  refine ⟨hus, hlookups, hsize.trans ?_, (hdraws false).trans ?_, (hdraws true).trans ?_,
    (hnext {}).2.1.mpr (by decide), (hnext { fogEnabled := true }).1.mpr (by decide), ?_⟩
  · decide
  · decide
  · decide
  · exact (horder _ _ [] (List.Perm.swap _ _ _) (by simp [Use.Keeps])).1

end Session

end ShaderCache

end FixedFragment
