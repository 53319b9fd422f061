import FixedFragment.Proofs.ScopeChecking
import FixedFragment.Proofs.SourceReading

set_option autoImplicit false

/-!
# Shader programs are well typed

Every statement of a shader program finds the variables and helpers that it names, since these are
declared under the conditions under which they are named. A scope inside `main` that has all
declarations `Provides` for the decisions; each stage of `main` passes in such a scope. Main
statement: `Decisions.source_wellTyped`.
-/

namespace FixedFragment

open Glsl

/-! ## Names -/

/-- All global variables that shader programs declare, in their order. -/
def ShaderName.globals : List String :=
  [sampler, reference, colorMask, textureEnv, primary, secondary, fogColor, fogDepth, texCoord]

/-- The local variables of `main`. -/
def ShaderName.locals : List String := ["s", "t", "p", "v", "fogCoef"]

theorem onlyIf_sublist {α : Type} (b : Bool) (a : α) : (onlyIf b a).Sublist [a] := by
  cases b with
  | false => exact List.nil_sublist [a]
  | true => exact List.Sublist.refl [a]

theorem map_onlyIf {α β : Type} (f : α → β) (b : Bool) (a : α) :
    (onlyIf b a).map f = onlyIf b (f a) := by
  cases b <;> rfl

theorem mem_onlyIf {α : Type} {b : Bool} (hb : b = true) (a : α) : a ∈ onlyIf b a := by
  rw [hb]
  exact List.mem_singleton_self a

namespace Decisions

/-- Each global variable is declared at most once, and in one order. -/
theorem names_globals (d : Decisions) (p : EmitPolicy) :
    ((d.globals p).map Global.name).Sublist ShaderName.globals := by
  have hcoord : ((d.texture.toList.map fun t =>
      (⟨.varying, { ty := if t.projected then .vec3 else .vec2 }, ShaderName.texCoord⟩ :
        Global)).map Global.name).Sublist [ShaderName.texCoord] := by
    cases d.texture with
    | none => exact List.nil_sublist _
    | some t => exact List.Sublist.refl _
  simp only [globals, List.map_append, map_onlyIf]
  exact ((((((((onlyIf_sublist _ _).append (onlyIf_sublist _ _)).append (onlyIf_sublist _ _)).append
    (onlyIf_sublist _ _)).append (List.Sublist.refl _)).append (onlyIf_sublist _ _)).append
    (onlyIf_sublist _ _)).append (onlyIf_sublist _ _)).append hcoord

theorem names_helpers (d : Decisions) (p : EmitPolicy) :
    ((d.helpers p).map Helper.name).Sublist
      [(Quantizer.ofPolicy p).scalarName, (Quantizer.ofPolicy p).vectorName] := by
  simp only [helpers, List.map_append, map_onlyIf]
  exact (onlyIf_sublist _ _).append (onlyIf_sublist _ _)

end Decisions

namespace Glsl

section

variable {g : Scope} {e f w : Expr} {t u v r : Ty}

/-! ## Scopes behind a declaration -/

theorem Scope.type?_push (g : Scope) (name : String) (ty : Ty) (assignable : Bool) :
    (g.push ⟨name, ty, assignable⟩).type? name = some ty := by
  rw [Scope.type?, Scope.entry?_push, if_pos rfl]
  rfl

theorem Scope.type?_push_of_ne {v : Variable} {name : String} (hne : v.name ≠ name) :
    (g.push v).type? name = g.type? name := by
  rw [Scope.type?, Scope.entry?_push, if_neg hne]
  rfl

/-- A name stays fresh behind the declaration of another. -/
theorem Scope.isFresh_push_of_ne {v : Variable} {name : String} (hne : v.name ≠ name)
    (hname : g.isFresh name = true) : (g.push v).isFresh name = true := by
  rw [isFresh_iff, knows_push, not_or, ← isFresh_iff]
  exact ⟨hne, hname⟩

/-! ## Types of expressions

One rule for each form: the type of an expression from the types of its parts. -/

theorem Expr.type?_part {sel : Swizzle} (he : e.type? g = some t) (hsel : sel.type? t = some r) :
    (part e sel).type? g = some r := by
  show (e.type? g).bind sel.type? = some r
  rw [he, Option.bind_some, hsel]

theorem Expr.type?_not (he : e.type? g = some .bool) : (not e).type? g = some .bool := by
  show (e.type? g).filter (· = .bool) = some .bool
  rw [he]
  rfl

theorem Expr.type?_arith (op : Arith) (he : e.type? g = some t) (hf : f.type? g = some u)
    (hjoin : t.join u = some r) : (arith op e f).type? g = some r := by
  show (do (← e.type? g).join (← f.type? g)) = some r
  rw [he, hf]
  exact hjoin

theorem Expr.type?_compare {rel : Relation} (he : e.type? g = some t) (hf : f.type? g = some u)
    (hrel : rel.type? t u = some r) : (compare rel e f).type? g = some r := by
  show (do rel.type? (← e.type? g) (← f.type? g)) = some r
  rw [he, hf]
  exact hrel

theorem Expr.type?_call1 {func : Func} (he : e.type? g = some t)
    (hcall : func.type? g.helper? [t] = some r) : (call1 func e).type? g = some r := by
  show (do func.type? g.helper? [← e.type? g]) = some r
  rw [he]
  exact hcall

theorem Expr.type?_call2 {func : Func} (he : e.type? g = some t) (hf : f.type? g = some u)
    (hcall : func.type? g.helper? [t, u] = some r) : (call2 func e f).type? g = some r := by
  show (do func.type? g.helper? [← e.type? g, ← f.type? g]) = some r
  rw [he, hf]
  exact hcall

theorem Expr.type?_call3 {func : Func} (he : e.type? g = some t) (hf : f.type? g = some u)
    (hw : w.type? g = some v) (hcall : func.type? g.helper? [t, u, v] = some r) :
    (call3 func e f w).type? g = some r := by
  show (do func.type? g.helper? [← e.type? g, ← f.type? g, ← w.type? g]) = some r
  rw [he, hf, hw]
  exact hcall

/-! ## The expressions that shader programs use -/

theorem Ty.join_self (ht : t.isNumeric = true) : t.join t = some t := by
  cases t <;> first | rfl | exact absurd ht (by decide)

/-- A number goes with every vector. -/
theorem Ty.join_float (ht : t.isNumeric = true) : t.join .float = some t := by
  cases t <;> first | rfl | exact absurd ht (by decide)

theorem Expr.type?_rgb (he : e.type? g = some .vec4) : (part e .rgb).type? g = some .vec3 :=
  type?_part he rfl

theorem Expr.type?_a (he : e.type? g = some .vec4) : (part e .a).type? g = some .float :=
  type?_part he rfl

theorem Expr.type?_vec4 (he : e.type? g = some .vec3) (hf : f.type? g = some .float) :
    (call2 .vec4 e f).type? g = some .vec4 :=
  type?_call2 he hf rfl

theorem Expr.type?_arith_self (op : Arith) (ht : t.isNumeric = true) (he : e.type? g = some t)
    (hf : f.type? g = some t) : (arith op e f).type? g = some t :=
  type?_arith op he hf (Ty.join_self ht)

theorem Expr.type?_arith_float (op : Arith) (ht : t.isNumeric = true) (he : e.type? g = some t)
    (hf : f.type? g = some .float) : (arith op e f).type? g = some t :=
  type?_arith op he hf (Ty.join_float ht)

theorem Expr.type?_mix (ht : t.isNumeric = true) (he : e.type? g = some t)
    (hf : f.type? g = some t) (hw : w.type? g = some t ∨ w.type? g = some .float) :
    (call3 .mix e f w).type? g = some t := by
  rcases hw with hw | hw
  · exact type?_call3 he hf hw (if_pos ⟨rfl, ht, .inl rfl⟩)
  · exact type?_call3 he hf hw (if_pos ⟨rfl, ht, .inr rfl⟩)

theorem Expr.type?_floor (ht : t.isNumeric = true) (he : e.type? g = some t) :
    (call1 .floor e).type? g = some t :=
  type?_call1 he (if_pos ht)

theorem Expr.type?_fract (ht : t.isNumeric = true) (he : e.type? g = some t) :
    (call1 .fract e).type? g = some t :=
  type?_call1 he (if_pos ht)

theorem Expr.type?_helper {name : String} (hname : g.helper? name = some t)
    (he : e.type? g = some t) : (call1 (.helper name) e).type? g = some t := by
  apply type?_call1 he
  show (g.helper? name).filter (· = t) = some t
  rw [hname]
  exact Option.filter_some_pos (decide_eq_true rfl)

/-! ## Checks of statements -/

theorem Stmt.check_declare {ty : Ty} (he : e.type? g = some ty) {name : String}
    (hname : g.isFresh name = true) :
    (declare ty name e).check g = some (g.push ⟨name, ty, true⟩) := by
  rw [check, Expr.hasType, he, if_pos (decide_eq_true rfl)]
  exact Scope.declare_eq_some_iff.mpr ⟨hname, rfl⟩

theorem Stmt.check_assign {t : Ty} {name : String} (hname : g.assignable? name = some t)
    (he : e.type? g = some t) : (assign name e).check g = some g := by
  rw [check, hname, Option.bind_eq_bind, Option.bind_some, Expr.hasType, he,
    if_pos (decide_eq_true rfl)]

theorem Stmt.check_assignPart {t r : Ty} {name : String} {sel : Swizzle}
    (hname : g.assignable? name = some t) (hsel : sel.type? t = some r)
    (he : e.type? g = some r) : (assignPart name sel e).check g = some g := by
  simp only [check, hname, hsel, Option.bind_eq_bind, Option.bind_some, Expr.hasType, he,
    decide_true, if_true]

theorem Stmt.check_discardIf (he : e.type? g = some .bool) :
    (discardIf (.not e)).check g = some g := by
  rw [check, Expr.hasType, Expr.type?_not he]
  rfl

theorem foldlM_check_cons {g' : Scope} {s : Stmt} (h : s.check g = some g') (ss : List Stmt) :
    (s :: ss).foldlM Stmt.check g = ss.foldlM Stmt.check g' := by
  rw [List.foldlM_cons, h]
  rfl

theorem foldlM_check_append {g' : Scope} {ss : List Stmt} (h : ss.foldlM Stmt.check g = some g')
    (ts : List Stmt) : (ss ++ ts).foldlM Stmt.check g = ts.foldlM Stmt.check g' := by
  rw [List.foldlM_append, h]
  rfl

theorem Helper.check_eq {inner : Scope} {h : Helper} (hparam : g.isFresh h.param = true)
    (hbody : h.body.foldlM Stmt.check (g.push ⟨h.param, h.ty.ty, true⟩) = some inner)
    (hresult : h.result.type? inner = some h.ty.ty) :
    h.check g = g.declareHelper h.name h.ty.ty := by
  rw [body, List.foldlM_map] at hbody
  rw [check, Scope.declare_eq_some_iff.mpr ⟨hparam, rfl⟩, Option.bind_eq_bind, Option.bind_some,
    hbody, Option.bind_some, Expr.hasType, hresult, if_pos (decide_eq_true rfl)]

end

end Glsl

/-! ## The scope of `main` -/

/-- The names inside the helpers. -/
def ShaderName.inside : List String := ["x", "y"]

/-- The helpers of a quantizer are named as nothing else in a program. -/
theorem Quantizer.names_apart (q : Quantizer) : ∀ name ∈ [q.scalarName, q.vectorName],
    name ∉ ShaderName.output :: ShaderName.globals ∧ name ∉ ShaderName.inside
      ∧ name ∉ ShaderName.locals := by
  cases q <;> decide

/-- The helpers of a quantizer pass wherever their parameter and local variable are fresh. -/
theorem Quantizer.check_helper (q : Quantizer) (dialect : Dialect) {ty : Ty}
    (hty : ty.isNumeric = true) (name : String) {g : Scope}
    (hg : ∀ name ∈ ShaderName.inside, g.isFresh name = true) :
    (q.helper dialect ty name).check g = g.declareHelper name ty := by
  have hx : (Expr.var "x").type? (g.push ⟨"x", ty, true⟩) = some ty := g.type?_push "x" ty true
  have hparam : g.isFresh "x" = true := hg "x" (by decide)
  cases q with
  | floor =>
      refine Helper.check_eq hparam rfl ?_
      have hscaled := Expr.type?_arith_float .mul hty hx (f := .lit 255 0) rfl
      exact Expr.type?_floor hty (Expr.type?_arith_float .add hty hscaled rfl)
  | biased =>
      have hfreshY : (g.push ⟨"x", ty, true⟩).isFresh "y" = true :=
        Scope.isFresh_push_of_ne (show "x" ≠ "y" by decide) (hg "y" (by decide))
      have hlocal := Stmt.check_declare (Expr.type?_arith_float .add hty hx
        (f := .arith .div (.lit 0 5) (.lit 255 0)) rfl) hfreshY
      refine Helper.check_eq hparam (foldlM_check_cons hlocal []) ?_
      have hy : (Expr.var "y").type? ((g.push ⟨"x", ty, true⟩).push ⟨"y", ty, true⟩) = some ty :=
        (g.push ⟨"x", ty, true⟩).type?_push "y" ty true
      -- `(y - fract(y * 255.0) * (1.0 / 255.0)) * 255.0`, from the inside out.
      have hscaled := Expr.type?_arith_float .mul hty hy (f := .lit 255 0) rfl
      have hrest := Expr.type?_arith_float .mul hty (Expr.type?_fract hty hscaled)
        (f := .arith .div (.lit 1 0) (.lit 255 0)) rfl
      exact Expr.type?_arith_float .mul hty (Expr.type?_arith_self .sub hty hy hrest) rfl

/-- The scope has everything that a program for `d` declares, and the output. -/
structure Decisions.Provides (d : Decisions) (p : EmitPolicy) (g : Scope) : Prop where
  globals : ∀ v ∈ d.globals p, g.type? v.name = some v.ty.ty
  helpers : ∀ h ∈ d.helpers p, g.helper? h.name = some h.ty.ty
  output : g.assignable? ShaderName.output = some .vec4

namespace Decisions

variable {d : Decisions} {p : EmitPolicy} {g : Scope}

/-- A local variable hides nothing. -/
theorem Provides.push (h : d.Provides p g) {v : Variable} (hv : v.name ∈ ShaderName.locals) :
    d.Provides p (g.push v) := by
  have hother : ∀ name ∉ ShaderName.locals, Scope.entry? (g.push v) name = g.entry? name := by
    intro name hname
    rw [Scope.entry?_push, if_neg fun heq : v.name = name => hname (heq ▸ hv)]
  refine ⟨fun w hw => ?_, h.helpers, ?_⟩
  · have hmem : w.name ∈ ShaderName.globals :=
      (d.names_globals p).subset (List.mem_map_of_mem hw)
    have hlocal : ∀ name ∈ ShaderName.globals, name ∉ ShaderName.locals := by decide
    rw [Scope.type?, hother w.name (hlocal w.name hmem)]
    exact h.globals w hw
  · rw [Scope.assignable?, hother ShaderName.output (by decide)]
    exact h.output

/-- The global variables pass: their names are distinct, and none is that of the output. -/
theorem exists_globalScope (d : Decisions) (p : EmitPolicy) :
    ∃ g, (d.globals p).foldlM Global.check Scope.start = some g
      ∧ (∀ v ∈ d.globals p, g.type? v.name = some v.ty.ty)
      ∧ g.assignable? ShaderName.output = some .vec4
      ∧ ∀ name ∉ ShaderName.output :: ShaderName.globals, g.isFresh name = true := by
  have hmem : ∀ name ∈ (d.globals p).map Global.name, name ∈ ShaderName.globals :=
    (d.names_globals p).subset
  have hstart : ∀ name ∈ ShaderName.globals, Scope.start.isFresh name = true := by decide
  obtain ⟨g, hrun, hhelpers, hfound, hkept⟩ := foldlM_globalCheck
    ((d.names_globals p).nodup (by decide))
    fun v hv => hstart v.name (hmem v.name (List.mem_map_of_mem hv))
  have houtput : ShaderName.output ∉ (d.globals p).map Global.name := fun h =>
    absurd (hmem _ h) (by decide)
  refine ⟨g, hrun, fun v hv => ?_, ?_, fun name hname => ?_⟩
  · rw [Scope.type?, hfound v hv]
    rfl
  · rw [Scope.assignable?, hkept _ houtput]
    rfl
  · rw [List.mem_cons, not_or] at hname
    have hne : "gl_FragColor" ≠ name := Ne.symm hname.1
    rw [Scope.isFresh, hkept name fun h => hname.2 (hmem name h), Scope.entry?_start, if_neg hne,
      Scope.helper?, hhelpers]
    rfl

theorem check_helpers (d : Decisions) (p : EmitPolicy) : ∀ h ∈ d.helpers p, ∀ g : Scope,
    (∀ name ∈ ShaderName.inside, g.isFresh name = true) →
      h.check g = g.declareHelper h.name h.ty.ty := by
  exact forall_mem_helpers (fun q _ hg => q.check_helper _ (by decide) _ hg)
    fun q _ hg => q.check_helper _ (by decide) _ hg

/-- The helpers pass behind the global variables, and everything is provided. -/
theorem exists_mainScope (d : Decisions) (p : EmitPolicy) :
    ∃ g, (d.program p).mainScope? = some g ∧ d.Provides p g
      ∧ ∀ name ∈ ShaderName.locals, g.isFresh name = true := by
  obtain ⟨outer, hglobals, htypes, houtput, hfresh⟩ := d.exists_globalScope p
  have hmem : ∀ h ∈ d.helpers p,
      h.name ∈ [(Quantizer.ofPolicy p).scalarName, (Quantizer.ofPolicy p).vectorName] :=
    fun h hh => (d.names_helpers p).subset (List.mem_map_of_mem hh)
  have hnew := (Quantizer.ofPolicy p).names_apart
  have hinside : ∀ name ∈ ShaderName.inside, name ∉ ShaderName.output :: ShaderName.globals := by
    decide
  have hlocals : ∀ name ∈ ShaderName.locals, name ∉ ShaderName.output :: ShaderName.globals := by
    decide
  obtain ⟨g, hhelpers, hvars, hfound, hkept⟩ := foldlM_helperCheck
    ((d.names_helpers p).nodup (by cases Quantizer.ofPolicy p <;> decide))
    (fun h hh => hfresh h.name (hnew h.name (hmem h hh)).1)
    (fun name hname => hfresh name (hinside name hname))
    (fun h hh => (hnew h.name (hmem h hh)).2.1) (d.check_helpers p)
  have hentry : ∀ name, g.entry? name = outer.entry? name := by
    intro name
    rw [Scope.entry?, hvars]
    rfl
  refine ⟨g, ?_, ⟨fun v hv => ?_, hfound, ?_⟩, fun name hname => ?_⟩
  · show ((d.globals p).foldlM Global.check Scope.start).bind _ = _
    rw [hglobals]
    exact hhelpers
  · rw [Scope.type?, hentry]
    exact htypes v hv
  · rw [Scope.assignable?, hentry]
    exact houtput
  · have hnot : name ∉ (d.helpers p).map Helper.name := by
      intro h
      obtain ⟨k, hk, rfl⟩ := List.mem_map.mp h
      exact (hnew k.name (hmem k hk)).2.2 hname
    rw [Scope.isFresh, hentry, hkept name hnot]
    exact hfresh name (hlocals name hname)

/-! ## Declared where they are used -/

theorem Provides.sampler (h : d.Provides p g) {t : TextureUse} (ht : d.texture = some t) :
    g.type? ShaderName.sampler = some .sampler2D :=
  h.globals ⟨.uniform, { ty := .sampler2D }, ShaderName.sampler⟩
    (by simp [Decisions.globals, onlyIf, ht])

theorem Provides.texCoord (h : d.Provides p g) {t : TextureUse} (ht : d.texture = some t) :
    g.type? ShaderName.texCoord = some (if t.projected then .vec3 else .vec2) :=
  h.globals ⟨.varying, { ty := if t.projected then .vec3 else .vec2 }, ShaderName.texCoord⟩
    (by simp [Decisions.globals, ht])

theorem Provides.textureEnv (h : d.Provides p g) {t : TextureUse} (ht : d.texture = some t)
    (hblend : t.function = .blend) : g.type? ShaderName.textureEnv = some .vec3 :=
  h.globals ⟨.uniform, { ty := .vec3 }, ShaderName.textureEnv⟩
    (by simp [Decisions.globals, onlyIf, ht, hblend])

theorem Provides.primary (h : d.Provides p g) : g.type? ShaderName.primary = some .vec4 :=
  h.globals ⟨.varying, { ty := .vec4 }, ShaderName.primary⟩ (by simp [Decisions.globals])

theorem Provides.secondary (h : d.Provides p g) (hd : d.secondaryColor = true) :
    g.type? ShaderName.secondary = some .vec3 :=
  h.globals ⟨.varying, { ty := .vec3 }, ShaderName.secondary⟩
    (by simp [Decisions.globals, onlyIf, hd])

theorem Provides.fogColor (h : d.Provides p g) (hd : d.fog = true) :
    g.type? ShaderName.fogColor = some .vec3 :=
  h.globals ⟨.uniform, { ty := .vec3 }, ShaderName.fogColor⟩
    (by simp [Decisions.globals, onlyIf, hd])

theorem Provides.fogDepth (h : d.Provides p g) (hd : d.fog = true) :
    g.type? ShaderName.fogDepth = some .float :=
  h.globals ⟨.varying, { precision := p.dialect.raisedPrecision, ty := .float },
    ShaderName.fogDepth⟩ (by simp [Decisions.globals, onlyIf, hd])

theorem Provides.reference (h : d.Provides p g)
    (hd : d.comparesAlpha p = true ∨ d.comparesColor = true) :
    g.type? ShaderName.reference = some .vec4 :=
  h.globals ⟨.uniform, { precision := p.dialect.raisedPrecision, ty := .vec4 },
    ShaderName.reference⟩ (by simp [Decisions.globals, onlyIf, hd])

theorem Provides.colorMask (h : d.Provides p g) (hd : d.comparesColor = true) :
    g.type? ShaderName.colorMask = some .vec4 :=
  h.globals ⟨.uniform, { ty := .vec4 }, ShaderName.colorMask⟩
    (by simp [Decisions.globals, onlyIf, hd])

theorem Provides.scalarHelper (h : d.Provides p g) (hd : d.comparesAlpha p = true) :
    g.helper? (Quantizer.ofPolicy p).scalarName = some .float :=
  h.helpers ((Quantizer.ofPolicy p).helper p.dialect .float _)
    (List.mem_append_left _ (mem_onlyIf hd _))

theorem Provides.vectorHelper (h : d.Provides p g) (hd : d.comparesColor = true) :
    g.helper? (Quantizer.ofPolicy p).vectorName = some .vec3 :=
  h.helpers ((Quantizer.ofPolicy p).helper p.dialect .vec3 _)
    (List.mem_append_right _ (mem_onlyIf hd _))

/-! ## The working color -/

/-- Behind the first statements: the working color is declared, the fog weight is not. -/
structure HasColor (d : Decisions) (p : EmitPolicy) (g : Scope) : Prop extends
    d.Provides p g where
  color : g.entry? "v" = some ⟨"v", .vec4, true⟩
  fogCoef : g.isFresh "fogCoef" = true

theorem Provides.type?_lookup (h : d.Provides p g) {t : TextureUse} (ht : d.texture = some t) :
    t.lookup.type? g = some .vec4 := by
  have hsampler : (Expr.var ShaderName.sampler).type? g = some .sampler2D := h.sampler ht
  have hcoord : (Expr.var ShaderName.texCoord).type? g
      = some (if t.projected then .vec3 else .vec2) := h.texCoord ht
  refine Expr.type?_call2 hsampler hcoord ?_
  cases t.projected <;> rfl

/-- The parts of a combination are colors and numbers, and the environment color is declared where
it takes part. -/
theorem type?_combination {t : TextureUse} (hp : g.type? "p" = some .vec4)
    (ht : g.type? "t" = some .vec4)
    (henv : t.function = .blend → g.type? ShaderName.textureEnv = some .vec3) :
    ∀ e ∈ t.combination, e.type? g = some .vec4 := by
  have hprimary : (Expr.var "p").type? g = some .vec4 := hp
  have htexel : (Expr.var "t").type? g = some .vec4 := ht
  have hrgb := Expr.type?_rgb hprimary
  have hrgb' := Expr.type?_rgb htexel
  have ha := Expr.type?_a hprimary
  have ha' := Expr.type?_a htexel
  have hproduct := Expr.type?_arith_self .mul (by decide) ha ha'
  obtain ⟨function, rgba, projected⟩ := t
  intro e he
  cases function with
  | modulate =>
      obtain rfl := Option.some.inj he
      cases rgba with
      | true => exact Expr.type?_arith_self .mul (by decide) hprimary htexel
      | false => exact Expr.type?_vec4 (Expr.type?_arith_self .mul (by decide) hrgb' hrgb) ha
  | decal =>
      obtain rfl := Option.some.inj he
      cases rgba with
      | true => exact Expr.type?_vec4 (Expr.type?_mix (by decide) hrgb hrgb' (.inr ha')) ha
      | false => exact Expr.type?_vec4 hrgb' ha
  | blend =>
      obtain rfl := Option.some.inj he
      have hcolor : (Expr.part (.var ShaderName.textureEnv) .rgb).type? g = some .vec3 :=
        Expr.type?_part (henv rfl) rfl
      exact Expr.type?_vec4 (Expr.type?_mix (by decide) hrgb hcolor (.inl hrgb')) hproduct
  | replace =>
      obtain rfl := Option.some.inj he
      cases rgba with
      | true => exact htexel
      | false => exact Expr.type?_vec4 hrgb' ha
  | add =>
      obtain rfl := Option.some.inj he
      have hsum := Expr.type?_arith_self .add (by decide) hrgb hrgb'
      cases rgba with
      | true => exact Expr.type?_vec4 hsum hproduct
      | false => exact Expr.type?_vec4 hsum ha
  | reserved5 | reserved6 | reserved7 => cases he

theorem type?_plusSecondary (hs : d.secondaryColor = true → g.type? "s" = some .vec4) {e : Expr}
    (he : e.type? g = some .vec4) : (d.plusSecondary e).type? g = some .vec4 := by
  unfold plusSecondary
  by_cases hsecond : d.secondaryColor = true
  · rw [if_pos hsecond]
    exact Expr.type?_arith_self .add (by decide) he (hs hsecond)
  · rw [if_neg hsecond]
    exact he

/-- The reserved functions have no combination and leave the primary color. -/
theorem type?_combined {t : TextureUse} (hs : d.secondaryColor = true → g.type? "s" = some .vec4)
    (hp : g.type? "p" = some .vec4) (h : ∀ e ∈ t.combination, e.type? g = some .vec4) :
    (t.combination.elim (.var "p") d.plusSecondary).type? g = some .vec4 := by
  cases hc : t.combination with
  | none => exact hp
  | some e => exact type?_plusSecondary hs (h e hc)

/-- The working color is declared last. -/
theorem Provides.check_color (h : d.Provides p g) {value : Expr}
    (hvalue : value.type? g = some .vec4) (hv : g.isFresh "v" = true)
    (hfog : g.isFresh "fogCoef" = true) :
    ∃ g', [Stmt.declare .vec4 "v" value].foldlM Stmt.check g = some g' ∧ d.HasColor p g' := by
  refine ⟨g.push ⟨"v", .vec4, true⟩, foldlM_check_cons (Stmt.check_declare hvalue hv) [], ?_⟩
  refine ⟨h.push (by decide), ?_, Scope.isFresh_push_of_ne (by decide) hfog⟩
  rw [Scope.entry?_push, if_pos rfl]

theorem Provides.check_secondary (h : d.Provides p g)
    (hfresh : ∀ name ∈ ShaderName.locals, g.isFresh name = true) :
    ∃ g', (onlyIf d.secondaryColor (.declare .vec4 "s"
          (.call2 .vec4 (.var ShaderName.secondary) (.lit 0 0)))).foldlM Stmt.check g = some g'
      ∧ d.Provides p g' ∧ (∀ name ∈ ["t", "p", "v", "fogCoef"], g'.isFresh name = true)
      ∧ (d.secondaryColor = true → g'.type? "s" = some .vec4) := by
  have hothers : ∀ name ∈ ["t", "p", "v", "fogCoef"], name ∈ ShaderName.locals ∧ "s" ≠ name := by
    decide
  cases hsecond : d.secondaryColor with
  | false =>
      exact ⟨g, rfl, h, fun name hname => hfresh name (hothers name hname).1, fun h => nomatch h⟩
  | true =>
      have hvalue : (Expr.call2 .vec4 (.var ShaderName.secondary) (.lit 0 0)).type? g
          = some .vec4 := Expr.type?_vec4 (h.secondary hsecond) rfl
      have hstep := Stmt.check_declare hvalue (hfresh "s" (by decide))
      refine ⟨_, foldlM_check_cons hstep [], h.push (by decide), fun name hname => ?_,
        fun _ => Scope.type?_push g "s" .vec4 true⟩
      exact Scope.isFresh_push_of_ne (hothers name hname).2 (hfresh name (hothers name hname).1)

theorem Provides.check_colorStage (h : d.Provides p g)
    (hfresh : ∀ name ∈ ShaderName.locals, g.isFresh name = true) :
    ∃ g', d.colorStage.foldlM Stmt.check g = some g' ∧ d.HasColor p g' := by
  obtain ⟨g₁, hrun, h₁, hfresh₁, hs⟩ := h.check_secondary hfresh
  rw [colorStage, foldlM_check_append hrun]
  cases htexture : d.texture with
  | none =>
      exact h₁.check_color (type?_plusSecondary hs h₁.primary) (hfresh₁ "v" (by decide))
        (hfresh₁ "fogCoef" (by decide))
  | some t =>
      -- The texel, then the primary color, then what is made of them.
      have htexel := Stmt.check_declare (h₁.type?_lookup htexture) (hfresh₁ "t" (by decide))
      have h₂ := h₁.push (v := ⟨"t", .vec4, true⟩) (by decide)
      have hprimary := Stmt.check_declare (e := .var ShaderName.primary) h₂.primary
        (Scope.isFresh_push_of_ne (by decide) (hfresh₁ "p" (by decide)))
      have h₃ := h₂.push (v := ⟨"p", .vec4, true⟩) (by decide)
      have hp := Scope.type?_push (g₁.push ⟨"t", .vec4, true⟩) "p" .vec4 true
      have ht : ((g₁.push ⟨"t", .vec4, true⟩).push ⟨"p", .vec4, true⟩).type? "t" = some .vec4 := by
        rw [Scope.type?_push_of_ne (by decide), Scope.type?_push]
      have hs₃ : d.secondaryColor = true →
          ((g₁.push ⟨"t", .vec4, true⟩).push ⟨"p", .vec4, true⟩).type? "s" = some .vec4 := by
        intro hsecond
        rw [Scope.type?_push_of_ne (by decide), Scope.type?_push_of_ne (by decide)]
        exact hs hsecond
      have hvalue := type?_combined hs₃ hp (type?_combination hp ht (h₃.textureEnv htexture))
      have hstays : ∀ name, "t" ≠ name → "p" ≠ name → g₁.isFresh name = true →
          ((g₁.push ⟨"t", .vec4, true⟩).push ⟨"p", .vec4, true⟩).isFresh name = true :=
        fun name ht hp hname => Scope.isFresh_push_of_ne hp (Scope.isFresh_push_of_ne ht hname)
      obtain ⟨g', hrun', h'⟩ := h₃.check_color hvalue
        (hstays "v" (by decide) (by decide) (hfresh₁ "v" (by decide)))
        (hstays "fogCoef" (by decide) (by decide) (hfresh₁ "fogCoef" (by decide)))
      refine ⟨g', ?_, h'⟩
      rw [foldlM_check_cons htexel, foldlM_check_cons hprimary]
      exact hrun'

/-! ## The other stages -/

theorem HasColor.type?_color (h : d.HasColor p g) : (Expr.var "v").type? g = some .vec4 := by
  show g.type? "v" = some .vec4
  rw [Scope.type?, h.color]
  rfl

theorem HasColor.assignable (h : d.HasColor p g) : g.assignable? "v" = some .vec4 := by
  rw [Scope.assignable?, h.color]
  rfl

theorem check_testStage {code : Option TestCode} {lhs rhs : Expr}
    (h : ∀ rel, code = some (.compare rel) → (Expr.compare rel lhs rhs).type? g = some .bool) :
    (testStage code lhs rhs).foldlM Stmt.check g = some g := by
  rcases code with - | ⟨- | rel⟩
  · rfl
  · rfl
  · exact foldlM_check_cons (Stmt.check_discardIf (h rel rfl)) []

theorem comparesAlpha_of_code {rel : Relation} (h : d.alphaTestCode p = some (.compare rel)) :
    d.comparesAlpha p = true := by
  rw [comparesAlpha, h]
  rfl

theorem comparesColor_of_code {rel : Relation} (h : d.colorTestCode = some (.compare rel)) :
    d.comparesColor = true := by
  rw [comparesColor, h]
  rfl

/-- The alpha test compares two numbers. -/
theorem HasColor.check_alphaTestStage (h : d.HasColor p g) :
    (d.alphaTestStage p).foldlM Stmt.check g = some g := by
  refine check_testStage fun rel hcode => ?_
  have hcompares := comparesAlpha_of_code hcode
  have hlhs := Expr.type?_helper (h.scalarHelper hcompares) (Expr.type?_a h.type?_color)
  have hrhs : (Expr.part (.var ShaderName.reference) .a).type? g = some .float :=
    Expr.type?_a (h.reference (.inl hcompares))
  apply Expr.type?_compare hlhs hrhs
  cases rel <;> rfl

/-- The color test compares two vectors, and by equality only. -/
theorem HasColor.check_colorTestStage (h : d.HasColor p g) :
    (d.colorTestStage p).foldlM Stmt.check g = some g := by
  refine check_testStage fun rel hcode => ?_
  have hcompares := comparesColor_of_code hcode
  have hmask : (Expr.part (.var ShaderName.colorMask) .rgb).type? g = some .vec3 :=
    Expr.type?_rgb (h.colorMask hcompares)
  have hreference : (Expr.part (.var ShaderName.reference) .rgb).type? g = some .vec3 :=
    Expr.type?_rgb (h.reference (.inr hcompares))
  have hcall := Expr.type?_helper (h.vectorHelper hcompares) (Expr.type?_rgb h.type?_color)
  have hlhs := Expr.type?_arith_self .mul (by decide) hcall hmask
  have hrhs := Expr.type?_arith_self .mul (by decide) hreference hmask
  apply Expr.type?_compare hlhs hrhs
  -- No function of the color test is an order.
  rw [colorTestCode, Option.bind_eq_some_iff] at hcode
  obtain ⟨f, -, hf⟩ := hcode
  cases f <;> cases hf <;> rfl

theorem HasColor.check_doublingStage (h : d.HasColor p g) :
    d.doublingStage.foldlM Stmt.check g = some g := by
  have hv := h.type?_color
  have htwo : (Expr.lit 2 0).type? g = some .float := rfl
  have hall := Expr.type?_arith_float .mul (by decide) hv htwo
  have hrgb := Expr.type?_arith_float .mul (by decide) (Expr.type?_rgb hv) htwo
  have ha := Expr.type?_arith_float .mul (by decide) (Expr.type?_a hv) htwo
  unfold doublingStage
  cases d.colorDoubling <;> cases d.alphaDoubling
  · rfl
  · exact foldlM_check_cons (Stmt.check_assignPart h.assignable rfl ha) []
  · exact foldlM_check_cons (Stmt.check_assignPart h.assignable rfl hrgb) []
  · exact foldlM_check_cons (Stmt.check_assign h.assignable hall) []

theorem HasColor.check_outputStage (h : d.HasColor p g) :
    ∃ g', d.outputStage.foldlM Stmt.check g = some g' ∧ d.Provides p g' := by
  unfold outputStage
  by_cases hfog : d.fog = true
  · rw [if_pos hfog]
    have hdepth : (Expr.var ShaderName.fogDepth).type? g = some .float := h.fogDepth hfog
    have hclamp : (Expr.call3 .clamp (.var ShaderName.fogDepth) (.lit 0 0) (.lit 1 0)).type? g
        = some .float := Expr.type?_call3 hdepth rfl rfl rfl
    have hstep := Stmt.check_declare hclamp h.fogCoef
    have h' := h.toProvides.push (v := ⟨"fogCoef", .float, true⟩) (by decide)
    have hv : (Expr.var "v").type? (g.push ⟨"fogCoef", .float, true⟩) = some .vec4 := by
      show (g.push ⟨"fogCoef", .float, true⟩).type? "v" = some .vec4
      rw [Scope.type?_push_of_ne (by decide)]
      exact h.type?_color
    have hcolor : (Expr.var ShaderName.fogColor).type? (g.push ⟨"fogCoef", .float, true⟩)
        = some .vec3 := h'.fogColor hfog
    have hweight := Scope.type?_push g "fogCoef" .float true
    have hmix := Expr.type?_mix (w := .var "fogCoef") (by decide)
      (Expr.type?_vec4 hcolor (Expr.type?_a hv)) hv (.inr hweight)
    refine ⟨_, ?_, h'⟩
    rw [foldlM_check_cons hstep]
    exact foldlM_check_cons (Stmt.check_assign h'.output hmix) []
  · rw [if_neg hfog]
    exact ⟨g, foldlM_check_cons (Stmt.check_assign h.output h.type?_color) [], h.toProvides⟩

/-- Two components of a coordinate can be looked up, whether it has two or three. -/
theorem Provides.type?_overlayLookup (h : d.Provides p g) {t : TextureUse}
    (ht : d.texture = some t) :
    (Expr.call2 .texture2D (.var ShaderName.sampler)
      (.part (.var ShaderName.texCoord) .xy)).type? g = some .vec4 := by
  have hcoord : (Expr.var ShaderName.texCoord).type? g
      = some (if t.projected then .vec3 else .vec2) := h.texCoord ht
  have hparts : (Expr.part (.var ShaderName.texCoord) .xy).type? g = some .vec2 := by
    apply Expr.type?_part hcoord
    cases t.projected <;> rfl
  have hsampler : (Expr.var ShaderName.sampler).type? g = some .sampler2D := h.sampler ht
  exact Expr.type?_call2 hsampler hparts rfl

theorem Provides.check_overlayStage (h : d.Provides p g) :
    d.overlayStage.foldlM Stmt.check g = some g := by
  unfold overlayStage
  cases htexture : d.texture with
  | none => exact foldlM_check_cons (Stmt.check_assign h.output rfl) []
  | some t =>
      have hlookup := Stmt.check_assign h.output (h.type?_overlayLookup htexture)
      have htint : (Stmt.addAssign ShaderName.output
          (.call4 .vec4 (.lit 0 3) (.lit 0 0) (.lit 0 3) (.lit 0 3))).check g = some g := by
        rw [Stmt.check, h.output]
        rfl
      rw [Option.isSome_some, if_pos rfl, foldlM_check_cons hlookup]
      exact foldlM_check_cons htint []

/-! ## Whole programs -/

theorem Provides.check_shadingStages (h : d.Provides p g)
    (hfresh : ∀ name ∈ ShaderName.locals, g.isFresh name = true) :
    ∃ g', (d.shadingStages p).foldlM Stmt.check g = some g' ∧ d.Provides p g' := by
  unfold shadingStages
  by_cases hclear : d.clearMode = true
  · rw [if_pos hclear]
    have hprimary : (Expr.var ShaderName.primary).type? g = some .vec4 := h.primary
    exact ⟨g, foldlM_check_cons (Stmt.check_assign h.output hprimary) [], h⟩
  · rw [if_neg hclear]
    obtain ⟨g₁, hcolor, h₁⟩ := h.check_colorStage hfresh
    obtain ⟨g₂, houtput, h₂⟩ := h₁.check_outputStage
    refine ⟨g₂, ?_, h₂⟩
    rw [List.append_assoc, List.append_assoc, List.append_assoc, foldlM_check_append hcolor,
      foldlM_check_append h₁.check_alphaTestStage, foldlM_check_append h₁.check_doublingStage,
      foldlM_check_append h₁.check_colorTestStage, houtput]

theorem wellTyped_program (d : Decisions) (p : EmitPolicy) : (d.program p).wellTyped = true := by
  obtain ⟨g, hscope, h, hfresh⟩ := d.exists_mainScope p
  obtain ⟨g', hrun, h'⟩ := h.check_shadingStages hfresh
  have hmain : (d.program p).main.foldlM Stmt.check g = some g' := by
    rw [program, foldlM_check_append hrun]
    split
    · exact h'.check_overlayStage
    · rfl
  rw [Program.wellTyped_eq, hscope, Option.bind_some, hmain]
  rfl

/-- **Shaders are well scoped and well typed.** The text for any decisions under any policy is read
as a program that declares every name before its uses and once, and whose declarations,
expressions and assignments agree in type. Where `main` starts, the references, masks and helpers
that the tests name have their types, and so has the look-up of the overlay, for both types of
coordinates. -/
theorem source_wellTyped (d : Decisions) (p : EmitPolicy) :
    ∃ prog g, Program.parse (d.source p) = some prog
      ∧ prog.WellScoped ∧ prog.wellTyped = true
      ∧ prog.mainScope? = some g
      ∧ (∀ t, d.texture = some t →
          (Expr.call2 .texture2D (.var ShaderName.sampler)
            (.part (.var ShaderName.texCoord) .xy)).type? g = some .vec4)
      ∧ (d.comparesAlpha p = true →
          g.type? ShaderName.reference = some .vec4
            ∧ g.helper? (Quantizer.ofPolicy p).scalarName = some .float)
      ∧ (d.comparesColor = true →
          g.type? ShaderName.reference = some .vec4 ∧ g.type? ShaderName.colorMask = some .vec4
            ∧ g.helper? (Quantizer.ofPolicy p).vectorName = some .vec3) := by
  obtain ⟨g, hscope, h, -⟩ := d.exists_mainScope p
  have htyped := d.wellTyped_program p
  refine ⟨d.program p, g, d.parse_source p, Program.wellScoped_of_wellTyped htyped, htyped, hscope,
    fun t ht => h.type?_overlayLookup ht, fun hd => ?_, fun hd => ?_⟩
  · exact ⟨h.reference (.inl hd), h.scalarHelper hd⟩
  · exact ⟨h.reference (.inr hd), h.colorMask hd, h.vectorHelper hd⟩

/-- Both tests compare and the coordinate is projected, so that every declaration is there. -/
theorem source_wellTyped_projected :
    let d : Decisions :=
      { texture := some ⟨.blend, true, true⟩, alphaTest := some .less, colorTest := some .equal }
    ∃ prog g, Program.parse (d.source .embedded) = some prog ∧ prog.WellScoped
      ∧ prog.mainScope? = some g
      ∧ g.type? ShaderName.colorMask = some .vec4
      ∧ g.helper? (Quantizer.ofPolicy .embedded).scalarName = some .float
      ∧ (Expr.call2 .texture2D (.var ShaderName.sampler)
          (.part (.var ShaderName.texCoord) .xy)).type? g = some .vec4 := by
  intro d
  obtain ⟨prog, g, hparse, hscoped, -, hscope, hlookup, halpha, hcolor⟩ :=
    source_wellTyped d .embedded
  have halphaTest := halpha rfl
  have hcolorTest := hcolor rfl
  exact ⟨prog, g, hparse, hscoped, hscope, hcolorTest.2.1, halphaTest.2, hlookup _ rfl⟩

end Decisions

end FixedFragment
