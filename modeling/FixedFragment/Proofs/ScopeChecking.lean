import FixedFragment.Glsl.Typing

set_option autoImplicit false

/-!
# What the check of scopes and types ensures

A program that passes the check declares every name before its uses and declares it once:
`Program.wellScoped_of_wellTyped`. A statement that passes uses known names and makes fresh ones
known (`Stmt.of_check`), and so does a run of statements. In the other direction, declarations
under distinct fresh names pass, and are found under their names (`foldlM_globalCheck`,
`foldlM_helperCheck`).
-/

namespace FixedFragment.Glsl

/-! ## The names in a program -/

/-- The helper that is called, if it is one. -/
def Func.names : Func → List String
  | helper name => [name]
  | vec4 | mix | clamp | floor | fract | texture2D | texture2DProj => []

/-- The variables and helpers that an expression mentions. -/
def Expr.names : Expr → List String
  | lit _ _ => []
  | var name => [name]
  | part e _ | not e => e.names
  | arith _ lhs rhs | compare _ lhs rhs => lhs.names ++ rhs.names
  | call1 f a => f.names ++ a.names
  | call2 f a b => f.names ++ (a.names ++ b.names)
  | call3 f a b c => f.names ++ (a.names ++ (b.names ++ c.names))
  | call4 f a b c d => f.names ++ (a.names ++ (b.names ++ (c.names ++ d.names)))

/-- The names that a statement needs. -/
def Stmt.uses : Stmt → List String
  | declare _ _ value => value.names
  | assign name value | assignPart name _ value | addAssign name value => name :: value.names
  | discard => []
  | discardIf cond => cond.names

/-- The name that a statement declares, if it does. -/
def Stmt.declares : Stmt → List String
  | declare _ name _ => [name]
  | assign .. | assignPart .. | addAssign .. | discard | discardIf _ => []

/-- The local variables of a helper as statements. -/
def Helper.body (h : Helper) : List Stmt := h.locals.map fun l => .declare h.ty.ty l.1 l.2

/-- Behind the names `known`, each statement uses names declared before it and declares a new
one. -/
def Scoped (known : List String) : List Stmt → Prop
  | [] => True
  | s :: ss =>
      (∀ name ∈ s.uses, name ∈ known) ∧ (∀ name ∈ s.declares, name ∉ known)
        ∧ Scoped (s.declares ++ known) ss

/-- Behind the names `known`, each helper has a new name, a new parameter and a scoped body. -/
def HelpersScoped (known : List String) : List Helper → Prop
  | [] => True
  | h :: hs =>
      (h.name ∉ known ∧ h.param ∉ known ∧ Scoped (h.param :: known) h.body
          ∧ ∀ name ∈ h.result.names, name ∈ h.body.flatMap Stmt.declares ++ h.param :: known)
        ∧ HelpersScoped (h.name :: known) hs

/-- All names are declared before their uses and once. -/
structure Program.WellScoped (p : Program) : Prop where
  globals : ("gl_FragColor" :: p.globals.map Global.name).Nodup
  helpers : HelpersScoped ("gl_FragColor" :: p.globals.map Global.name) p.helpers
  main : Scoped (p.helpers.map Helper.name ++ "gl_FragColor" :: p.globals.map Global.name) p.main

/-! ## Known names -/

namespace Scope

/-- The name means something. -/
def Knows (g : Scope) (name : String) : Prop := g.isFresh name = false

/-- The names known are those in the list. -/
def KnowsExactly (g : Scope) (known : List String) : Prop := ∀ name, g.Knows name ↔ name ∈ known

theorem knows_of_type? {g : Scope} {name : String} {t : Ty} (h : g.type? name = some t) :
    g.Knows name := by
  rw [type?, Option.map_eq_some_iff] at h
  obtain ⟨v, hv, -⟩ := h
  rw [Knows, isFresh, hv]
  rfl

theorem knows_of_helper? {g : Scope} {name : String} {t : Ty} (h : g.helper? name = some t) :
    g.Knows name := by
  rw [Knows, isFresh, h]
  exact Bool.and_false _

theorem knows_of_assignable? {g : Scope} {name : String} {t : Ty}
    (h : g.assignable? name = some t) : g.Knows name := by
  rw [assignable?, Option.map_eq_some_iff] at h
  obtain ⟨v, hv, -⟩ := h
  rw [Knows, isFresh, (Option.filter_eq_some_iff.mp hv).1]
  rfl

/-- The scope with a variable on top. -/
def push (g : Scope) (v : Variable) : Scope := { g with vars := v :: g.vars }

/-- The scope with a helper on top. -/
def pushHelper (g : Scope) (name : String) (ty : Ty) : Scope :=
  { g with helpers := (name, ty) :: g.helpers }

theorem declare_eq_some_iff {g g' : Scope} {v : Variable} :
    g.declare v = some g' ↔ g.isFresh v.name = true ∧ g' = g.push v := by
  rw [declare, Option.ite_none_right_eq_some, push]
  exact and_congr_right' (by rw [Option.some.injEq, eq_comm])

theorem declareHelper_eq_some_iff {g g' : Scope} {name : String} {ty : Ty} :
    g.declareHelper name ty = some g' ↔ g.isFresh name = true ∧ g' = g.pushHelper name ty := by
  rw [declareHelper, Option.ite_none_right_eq_some, pushHelper]
  exact and_congr_right' (by rw [Option.some.injEq, eq_comm])

theorem entry?_push (g : Scope) (v : Variable) (name : String) :
    entry? (g.push v) name = if v.name = name then some v else g.entry? name := by
  rw [push, entry?, List.find?_cons]
  by_cases h : v.name = name
  · simp [h]
  · simp [h, entry?]

theorem helper?_pushHelper (g : Scope) (helperName : String) (ty : Ty) (name : String) :
    (g.pushHelper helperName ty).helper? name
      = if helperName = name then some ty else g.helper? name := by
  rw [helper?, pushHelper, List.lookup_cons]
  by_cases h : helperName = name
  · simp [h]
  · have hne : (name == helperName) = false := beq_false_of_ne (Ne.symm h)
    simp [h, hne, helper?]

theorem isFresh_iff {g : Scope} {name : String} : g.isFresh name = true ↔ ¬g.Knows name := by
  rw [Knows, Bool.not_eq_false]

theorem knows_push {g : Scope} {v : Variable} {name : String} :
    (g.push v).Knows name ↔ v.name = name ∨ g.Knows name := by
  rw [Knows, isFresh, entry?_push]
  by_cases h : v.name = name
  · simp [h]
  · simp [h, Knows, isFresh, helper?, push]

theorem knows_pushHelper {g : Scope} {helperName : String} {ty : Ty} {name : String} :
    (g.pushHelper helperName ty).Knows name ↔ helperName = name ∨ g.Knows name := by
  rw [Knows, isFresh, helper?_pushHelper]
  by_cases h : helperName = name
  · simp [h]
  · simp [h, Knows, isFresh, entry?, pushHelper]

theorem entry?_start (name : String) :
    start.entry? name
      = if "gl_FragColor" = name then some ⟨"gl_FragColor", .vec4, true⟩ else none := by
  rw [start, entry?, List.find?_cons]
  by_cases h : "gl_FragColor" = name
  · simp [h]
  · simp [h]

theorem knowsExactly_start : start.KnowsExactly ["gl_FragColor"] := by
  intro name
  rw [List.mem_singleton, eq_comm, Knows, isFresh, entry?_start]
  by_cases h : "gl_FragColor" = name
  · simp [h]
  · simp [h, helper?, start]

theorem KnowsExactly.push {g : Scope} {known : List String} (h : g.KnowsExactly known)
    (v : Variable) : (g.push v).KnowsExactly (v.name :: known) := by
  intro name
  rw [knows_push, List.mem_cons, h name, eq_comm]

theorem KnowsExactly.pushHelper {g : Scope} {known : List String} (h : g.KnowsExactly known)
    (helperName : String) (ty : Ty) :
    (g.pushHelper helperName ty).KnowsExactly (helperName :: known) := by
  intro name
  rw [knows_pushHelper, List.mem_cons, h name, eq_comm]

theorem KnowsExactly.notMem {g : Scope} {known : List String} (h : g.KnowsExactly known)
    {name : String} (hfresh : g.isFresh name = true) : name ∉ known := by
  rw [← h name]
  exact isFresh_iff.mp hfresh

end Scope

/-! ## What passes the check uses known names -/

theorem Func.knows_of_type? {g : Scope} {f : Func} {args : List Ty} {t : Ty}
    (h : f.type? g.helper? args = some t) : ∀ name ∈ f.names, g.Knows name := by
  cases f with
  | helper name =>
      intro other hother
      obtain rfl := List.mem_singleton.mp hother
      -- A helper takes one argument; its type is looked up under its name.
      match args, h with
      | [s], h => exact Scope.knows_of_helper? (Option.filter_eq_some_iff.mp h).1
  | vec4 | mix | clamp | floor | fract | texture2D | texture2DProj =>
      exact fun _ hname => absurd hname List.not_mem_nil

theorem Expr.knows_of_type? {g : Scope} {e : Expr} {t : Ty} (h : e.type? g = some t) :
    ∀ name ∈ e.names, g.Knows name := by
  induction e generalizing t with
  | lit whole tenths => exact fun _ hname => absurd hname List.not_mem_nil
  | var name =>
      intro other hother
      obtain rfl := List.mem_singleton.mp hother
      exact Scope.knows_of_type? h
  | part e sel ih =>
      obtain ⟨s, hs, -⟩ := Option.bind_eq_some_iff.mp h
      exact ih hs
  | not e ih => exact ih (Option.filter_eq_some_iff.mp h).1
  | arith op lhs rhs ihl ihr | compare rel lhs rhs ihl ihr =>
      obtain ⟨s, hs, h⟩ := Option.bind_eq_some_iff.mp h
      obtain ⟨r, hr, -⟩ := Option.bind_eq_some_iff.mp h
      exact List.forall_mem_append.mpr ⟨ihl hs, ihr hr⟩
  | call1 f a iha =>
      obtain ⟨ta, ha, h⟩ := Option.bind_eq_some_iff.mp h
      exact List.forall_mem_append.mpr ⟨Func.knows_of_type? h, iha ha⟩
  | call2 f a b iha ihb =>
      obtain ⟨ta, ha, h⟩ := Option.bind_eq_some_iff.mp h
      obtain ⟨tb, hb, h⟩ := Option.bind_eq_some_iff.mp h
      simp only [names, List.forall_mem_append]
      exact ⟨Func.knows_of_type? h, iha ha, ihb hb⟩
  | call3 f a b c iha ihb ihc =>
      obtain ⟨ta, ha, h⟩ := Option.bind_eq_some_iff.mp h
      obtain ⟨tb, hb, h⟩ := Option.bind_eq_some_iff.mp h
      obtain ⟨tc, hc, h⟩ := Option.bind_eq_some_iff.mp h
      simp only [names, List.forall_mem_append]
      exact ⟨Func.knows_of_type? h, iha ha, ihb hb, ihc hc⟩
  | call4 f a b c d iha ihb ihc ihd =>
      obtain ⟨ta, ha, h⟩ := Option.bind_eq_some_iff.mp h
      obtain ⟨tb, hb, h⟩ := Option.bind_eq_some_iff.mp h
      obtain ⟨tc, hc, h⟩ := Option.bind_eq_some_iff.mp h
      obtain ⟨td, hd, h⟩ := Option.bind_eq_some_iff.mp h
      simp only [names, List.forall_mem_append]
      exact ⟨Func.knows_of_type? h, iha ha, ihb hb, ihc hc, ihd hd⟩

theorem Expr.knows_of_hasType {g : Scope} {e : Expr} {t : Ty} (h : e.hasType g t = true) :
    ∀ name ∈ e.names, g.Knows name :=
  knows_of_type? (of_decide_eq_true h)

theorem Stmt.knows_of_check {g g' : Scope} {s : Stmt} (h : s.check g = some g') :
    ∀ name ∈ s.uses, g.Knows name := by
  cases s with
  | declare ty name value =>
      exact Expr.knows_of_hasType (Option.ite_none_right_eq_some.mp h).1
  | assign name value =>
      obtain ⟨t, ht, h⟩ := Option.bind_eq_some_iff.mp h
      have hvalue := Expr.knows_of_hasType (Option.ite_none_right_eq_some.mp h).1
      exact List.forall_mem_cons.mpr ⟨Scope.knows_of_assignable? ht, hvalue⟩
  | assignPart name sel value =>
      obtain ⟨t, ht, h⟩ := Option.bind_eq_some_iff.mp h
      obtain ⟨r, -, h⟩ := Option.bind_eq_some_iff.mp h
      have hvalue := Expr.knows_of_hasType (Option.ite_none_right_eq_some.mp h).1
      exact List.forall_mem_cons.mpr ⟨Scope.knows_of_assignable? ht, hvalue⟩
  | addAssign name value =>
      obtain ⟨t, ht, h⟩ := Option.bind_eq_some_iff.mp h
      obtain ⟨r, hr, -⟩ := Option.bind_eq_some_iff.mp (Option.ite_none_right_eq_some.mp h).1
      exact List.forall_mem_cons.mpr ⟨Scope.knows_of_assignable? ht, Expr.knows_of_type? hr⟩
  | discard => exact fun _ hname => absurd hname List.not_mem_nil
  | discardIf cond => exact Expr.knows_of_hasType (Option.ite_none_right_eq_some.mp h).1

/-- A statement that passes declares a variable under a fresh name, or leaves the scope as it
is. -/
theorem Stmt.scope_of_check {g g' : Scope} {s : Stmt} (h : s.check g = some g') :
    (∃ v : Variable, s.declares = [v.name] ∧ g.isFresh v.name = true ∧ g' = g.push v)
      ∨ (s.declares = [] ∧ g' = g) := by
  cases s with
  | declare ty name value =>
      obtain ⟨hfresh, hg'⟩ :=
        Scope.declare_eq_some_iff.mp (Option.ite_none_right_eq_some.mp h).2
      exact .inl ⟨_, rfl, hfresh, hg'⟩
  | assign name value | addAssign name value =>
      obtain ⟨t, -, h⟩ := Option.bind_eq_some_iff.mp h
      exact .inr ⟨rfl, (Option.some.inj (Option.ite_none_right_eq_some.mp h).2).symm⟩
  | assignPart name sel value =>
      obtain ⟨t, -, h⟩ := Option.bind_eq_some_iff.mp h
      obtain ⟨r, -, h⟩ := Option.bind_eq_some_iff.mp h
      exact .inr ⟨rfl, (Option.some.inj (Option.ite_none_right_eq_some.mp h).2).symm⟩
  | discard => exact .inr ⟨rfl, (Option.some.inj h).symm⟩
  | discardIf cond =>
      exact .inr ⟨rfl, (Option.some.inj (Option.ite_none_right_eq_some.mp h).2).symm⟩

/-- A statement that passes uses known names, declares a new one, and makes it known. -/
theorem Stmt.of_check {g g' : Scope} {s : Stmt} (h : s.check g = some g') {known : List String}
    (hg : g.KnowsExactly known) :
    (∀ name ∈ s.uses, name ∈ known) ∧ (∀ name ∈ s.declares, name ∉ known)
      ∧ g'.KnowsExactly (s.declares ++ known) := by
  refine ⟨fun name hname => (hg name).mp (knows_of_check h name hname), ?_⟩
  rcases scope_of_check h with ⟨v, hdeclares, hfresh, rfl⟩ | ⟨hdeclares, rfl⟩
  · rw [hdeclares]
    exact ⟨List.forall_mem_singleton.mpr (hg.notMem hfresh), hg.push v⟩
  · rw [hdeclares]
    exact ⟨fun _ hname => absurd hname List.not_mem_nil, hg⟩

/-- Statements that pass one after another are scoped, and make their names known. -/
theorem scoped_of_check {g g' : Scope} {ss : List Stmt} (h : ss.foldlM Stmt.check g = some g')
    {known : List String} (hg : g.KnowsExactly known) :
    Scoped known ss ∧ g'.KnowsExactly (ss.flatMap Stmt.declares ++ known) := by
  induction ss generalizing g known with
  | nil =>
      obtain rfl := Option.some.inj h
      exact ⟨trivial, hg⟩
  | cons s ss ih =>
      rw [List.foldlM_cons] at h
      obtain ⟨g₁, hstep, hrest⟩ := Option.bind_eq_some_iff.mp h
      obtain ⟨huses, hdeclares, hknown⟩ := Stmt.of_check hstep hg
      obtain ⟨hscoped, hlast⟩ := ih hrest hknown
      refine ⟨⟨huses, hdeclares, hscoped⟩, fun name => ?_⟩
      rw [hlast name, List.flatMap_cons]
      simp only [List.mem_append, or_left_comm, or_assoc]

theorem Helper.of_check {g g' : Scope} {h : Helper} (hcheck : h.check g = some g')
    {known : List String} (hg : g.KnowsExactly known) :
    (h.name ∉ known ∧ h.param ∉ known ∧ Scoped (h.param :: known) h.body
        ∧ ∀ name ∈ h.result.names, name ∈ h.body.flatMap Stmt.declares ++ h.param :: known)
      ∧ g'.KnowsExactly (h.name :: known) := by
  obtain ⟨inner, hparam, hcheck⟩ := Option.bind_eq_some_iff.mp hcheck
  obtain ⟨inner', hlocals, hcheck⟩ := Option.bind_eq_some_iff.mp hcheck
  obtain ⟨hresult, hname⟩ := Option.ite_none_right_eq_some.mp hcheck
  obtain ⟨hfreshParam, rfl⟩ := Scope.declare_eq_some_iff.mp hparam
  obtain ⟨hfreshName, rfl⟩ := Scope.declareHelper_eq_some_iff.mp hname
  have hbody : h.body.foldlM Stmt.check (g.push ⟨h.param, h.ty.ty, true⟩) = some inner' := by
    rw [body, List.foldlM_map]
    exact hlocals
  obtain ⟨hscoped, hknown⟩ := scoped_of_check hbody (hg.push _)
  exact ⟨⟨hg.notMem hfreshName, hg.notMem hfreshParam, hscoped,
    fun name hn => (hknown name).mp (Expr.knows_of_hasType hresult name hn)⟩, hg.pushHelper _ _⟩

theorem helpersScoped_of_check {g g' : Scope} {hs : List Helper}
    (h : hs.foldlM Helper.check g = some g') {known : List String} (hg : g.KnowsExactly known) :
    HelpersScoped known hs ∧ g'.KnowsExactly (hs.map Helper.name ++ known) := by
  induction hs generalizing g known with
  | nil =>
      obtain rfl := Option.some.inj h
      exact ⟨trivial, hg⟩
  | cons hd hs ih =>
      rw [List.foldlM_cons] at h
      obtain ⟨g₁, hstep, hrest⟩ := Option.bind_eq_some_iff.mp h
      obtain ⟨hhelper, hknown⟩ := Helper.of_check hstep hg
      obtain ⟨hscoped, hlast⟩ := ih hrest hknown
      refine ⟨⟨hhelper, hscoped⟩, fun name => ?_⟩
      rw [hlast name, List.map_cons]
      simp only [List.mem_append, List.mem_cons, or_left_comm, or_assoc]

theorem globals_of_check {g g' : Scope} {vs : List Global}
    (h : vs.foldlM Global.check g = some g') {known : List String} (hg : g.KnowsExactly known) :
    (vs.map Global.name).Nodup ∧ (∀ name ∈ vs.map Global.name, name ∉ known)
      ∧ g'.KnowsExactly (known ++ vs.map Global.name) := by
  induction vs generalizing g known with
  | nil =>
      obtain rfl := Option.some.inj h
      exact ⟨List.nodup_nil, fun _ hname => absurd hname List.not_mem_nil, by simpa using hg⟩
  | cons v vs ih =>
      rw [List.foldlM_cons] at h
      obtain ⟨g₁, hstep, hrest⟩ := Option.bind_eq_some_iff.mp h
      obtain ⟨hfresh, rfl⟩ := Scope.declare_eq_some_iff.mp hstep
      obtain ⟨hnodup, hnew, hlast⟩ := ih hrest (hg.push _)
      have hv : v.name ∉ vs.map Global.name := fun hmem => hnew _ hmem List.mem_cons_self
      refine ⟨List.nodup_cons.mpr ⟨hv, hnodup⟩, List.forall_mem_cons.mpr ⟨hg.notMem hfresh, ?_⟩, ?_⟩
      · exact fun name hname hmem => hnew name hname (List.mem_cons_of_mem _ hmem)
      · intro name
        rw [hlast name, List.map_cons]
        simp only [List.mem_append, List.mem_cons, or_left_comm, or_assoc]

/-! ## What passes the check -/

/-- Global variables under distinct fresh names pass, and are found under their names. -/
theorem foldlM_globalCheck {g : Scope} {vs : List Global}
    (hnodup : (vs.map Global.name).Nodup) (hfresh : ∀ v ∈ vs, g.isFresh v.name = true) :
    ∃ g', vs.foldlM Global.check g = some g' ∧ g'.helpers = g.helpers
      ∧ (∀ v ∈ vs, g'.entry? v.name = some ⟨v.name, v.ty.ty, false⟩)
      ∧ ∀ name ∉ vs.map Global.name, g'.entry? name = g.entry? name := by
  induction vs generalizing g with
  | nil => exact ⟨g, rfl, rfl, fun _ hv => absurd hv List.not_mem_nil, fun _ _ => rfl⟩
  | cons v vs ih =>
      obtain ⟨hv, hvs⟩ := List.nodup_cons.mp hnodup
      have hstep : Global.check g v = some (g.push ⟨v.name, v.ty.ty, false⟩) :=
        Scope.declare_eq_some_iff.mpr ⟨hfresh v List.mem_cons_self, rfl⟩
      have hlater : ∀ w ∈ vs, (g.push ⟨v.name, v.ty.ty, false⟩).isFresh w.name = true := by
        intro w hw
        rw [Scope.isFresh_iff, Scope.knows_push, not_or, ← Scope.isFresh_iff]
        refine ⟨fun heq => hv ?_, hfresh w (List.mem_cons_of_mem v hw)⟩
        exact (show v.name = w.name from heq) ▸ List.mem_map_of_mem hw
      obtain ⟨g', hrun, hhelpers, hfound, hkept⟩ := ih hvs hlater
      refine ⟨g', ?_, hhelpers, ?_, fun name hname => ?_⟩
      · rw [List.foldlM_cons, hstep]
        exact hrun
      · refine List.forall_mem_cons.mpr ⟨?_, hfound⟩
        rw [hkept v.name hv, Scope.entry?_push, if_pos rfl]
      · rw [List.map_cons, List.mem_cons, not_or] at hname
        rw [hkept name hname.2, Scope.entry?_push, if_neg (Ne.symm hname.1)]

/-- Helpers under distinct fresh names pass if each of them passes wherever its parameter and
local variables are fresh, and are found under their names. -/
theorem foldlM_helperCheck {g : Scope} {hs : List Helper} {inside : List String}
    (hnodup : (hs.map Helper.name).Nodup) (hfresh : ∀ h ∈ hs, g.isFresh h.name = true)
    (hinside : ∀ name ∈ inside, g.isFresh name = true)
    (hnames : ∀ h ∈ hs, h.name ∉ inside)
    (hcheck : ∀ h ∈ hs, ∀ g : Scope, (∀ name ∈ inside, g.isFresh name = true) →
      h.check g = g.declareHelper h.name h.ty.ty) :
    ∃ g', hs.foldlM Helper.check g = some g' ∧ g'.vars = g.vars
      ∧ (∀ h ∈ hs, g'.helper? h.name = some h.ty.ty)
      ∧ ∀ name ∉ hs.map Helper.name, g'.helper? name = g.helper? name := by
  induction hs generalizing g with
  | nil => exact ⟨g, rfl, rfl, fun _ hh => absurd hh List.not_mem_nil, fun _ _ => rfl⟩
  | cons h hs ih =>
      obtain ⟨hh, hhs⟩ := List.nodup_cons.mp hnodup
      rw [List.forall_mem_cons] at hfresh hnames hcheck
      have hstep : h.check g = some (g.pushHelper h.name h.ty.ty) :=
        (hcheck.1 g hinside).trans (Scope.declareHelper_eq_some_iff.mpr ⟨hfresh.1, rfl⟩)
      -- A name other than that of the helper stays fresh.
      have hstays : ∀ name, h.name ≠ name → g.isFresh name = true →
          (g.pushHelper h.name h.ty.ty).isFresh name = true := by
        intro name hne hname
        rw [Scope.isFresh_iff, Scope.knows_pushHelper, not_or, ← Scope.isFresh_iff]
        exact ⟨hne, hname⟩
      obtain ⟨g', hrun, hvars, hfound, hkept⟩ := ih hhs
        (fun k hk => hstays _ (fun heq => hh (heq ▸ List.mem_map_of_mem hk)) (hfresh.2 k hk))
        (fun name hname => hstays _ (fun heq => hnames.1 (heq ▸ hname)) (hinside name hname))
        hnames.2 hcheck.2
      refine ⟨g', ?_, hvars, ?_, fun name hname => ?_⟩
      · rw [List.foldlM_cons, hstep]
        exact hrun
      · refine List.forall_mem_cons.mpr ⟨?_, hfound⟩
        rw [hkept h.name hh, Scope.helper?_pushHelper, if_pos rfl]
      · rw [List.map_cons, List.mem_cons, not_or] at hname
        rw [hkept name hname.2, Scope.helper?_pushHelper, if_neg (Ne.symm hname.1)]

/-! ## Programs -/

namespace Program

/-- The scope in which `main` starts. -/
def mainScope? (p : Program) : Option Scope :=
  (p.globals.foldlM Global.check Scope.start).bind (p.helpers.foldlM Helper.check)

theorem wellTyped_eq (p : Program) :
    p.wellTyped = (p.mainScope?.bind (p.main.foldlM Stmt.check)).isSome := by
  rw [mainScope?, Option.bind_assoc]
  rfl

/-- A program that passes the check declares its names before their uses and once. -/
theorem wellScoped_of_wellTyped {p : Program} (h : p.wellTyped = true) : p.WellScoped := by
  rw [wellTyped_eq, Option.isSome_iff_exists] at h
  obtain ⟨last, h⟩ := h
  obtain ⟨inner, hinner, hmain⟩ := Option.bind_eq_some_iff.mp h
  obtain ⟨outer, hglobals, hhelpers⟩ := Option.bind_eq_some_iff.mp hinner
  obtain ⟨hnodup, hnew, houter⟩ := globals_of_check hglobals Scope.knowsExactly_start
  obtain ⟨hscoped, hknown⟩ := helpersScoped_of_check hhelpers houter
  refine ⟨List.nodup_cons.mpr ⟨fun hmem => hnew _ hmem List.mem_cons_self, hnodup⟩, hscoped, ?_⟩
  exact (scoped_of_check hmain hknown).1

end Program

end FixedFragment.Glsl
