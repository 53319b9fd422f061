import FixedFragment.Proofs.SourceReading
import FixedFragment.Text.Bytes

set_option autoImplicit false

/-!
# Shader texts are plain

A plain text consists of printable ASCII characters and line ends, so that each of its characters
is one byte, and none of its bytes is zero (`Text.zero_notMem_bytes`). The text of a program whose
names are names is plain: `Decisions.plain_source`.
-/

namespace FixedFragment.Text

/-! ## Plain texts -/

/-- A printable character of ASCII or a line end. -/
def isPlain (c : Char) : Bool := c = '\n' || (' ' ≤ c && c ≤ '~')

/-- All characters are plain. -/
def Plain (s : String) : Prop := ∀ c ∈ s.toList, isPlain c = true

instance (s : String) : Decidable (Plain s) :=
  decidable_of_iff (s.toList.all isPlain = true) List.all_eq_true

theorem Plain.append {s t : String} (hs : Plain s) (ht : Plain t) : Plain (s ++ t) := by
  intro c hc
  rw [String.toList_append, List.mem_append] at hc
  rcases hc with hc | hc
  · exact hs c hc
  · exact ht c hc

/-- Two plain texts with a plain one between them. -/
theorem Plain.joined {s g t : String} (hs : Plain s) (hg : Plain g) (ht : Plain t) :
    Plain (s ++ g ++ t) :=
  (hs.append hg).append ht

theorem plain_join {ss : List String} (h : ∀ s ∈ ss, Plain s) : Plain (String.join ss) := by
  induction ss with
  | nil => exact fun c hc => absurd hc (by simp)
  | cons s ss ih =>
      rw [String.join_cons]
      exact (h s List.mem_cons_self).append (ih fun t ht => h t (List.mem_cons_of_mem s ht))

theorem isPlain_of_range {c : Char} (hlow : ' '.toNat ≤ c.toNat) (hhigh : c.toNat ≤ '~'.toNat) :
    isPlain c = true := by
  simp only [isPlain, Bool.or_eq_true, Bool.and_eq_true, decide_eq_true_eq, Char.le_def,
    UInt32.le_iff_toNat_le]
  exact .inr ⟨hlow, hhigh⟩

theorem toNat_of_isPlain {c : Char} (h : isPlain c = true) : 0 < c.toNat ∧ c.toNat < 127 := by
  simp only [isPlain, Bool.or_eq_true, decide_eq_true_eq, Bool.and_eq_true, Char.le_def,
    UInt32.le_iff_toNat_le] at h
  rcases h with rfl | ⟨hlow, hhigh⟩
  · decide
  · exact ⟨Nat.lt_of_lt_of_le (by decide) hlow, Nat.lt_of_le_of_lt hhigh (by decide)⟩

theorem flatMap_utf8EncodeChar_of_plain {cs : List Char} (h : ∀ c ∈ cs, isPlain c = true) :
    cs.flatMap String.utf8EncodeChar = cs.map Char.toUInt8 := by
  induction cs with
  | nil => rfl
  | cons c cs ih =>
      have hsmall : c.toNat < 127 := (toNat_of_isPlain (h c List.mem_cons_self)).2
      have hone : c.utf8Size = 1 := by
        rw [Char.utf8Size_eq_one_iff, UInt32.le_iff_toNat_le]
        exact Nat.le_of_lt hsmall
      rw [List.flatMap_cons, String.utf8EncodeChar_eq_singleton hone,
        ih fun d hd => h d (List.mem_cons_of_mem c hd)]
      rfl

/-- The bytes of a plain text are the codes of its characters. -/
theorem bytes_of_plain {s : String} (h : Plain s) : bytes s = s.toList.map Char.toUInt8 := by
  rw [bytes, ← String.utf8Encode_toList, List.utf8Encode, List.data_toByteArray,
    List.toList_toArray]
  exact flatMap_utf8EncodeChar_of_plain h

/-- No byte of a plain text is zero. -/
theorem zero_notMem_bytes {s : String} (h : Plain s) : 0 ∉ bytes s := by
  rw [bytes_of_plain h, List.mem_map]
  rintro ⟨c, hc, hzero⟩
  obtain ⟨hpos, hsmall⟩ := toNat_of_isPlain (h c hc)
  have hcode : c.toNat % 256 = 0 := congrArg UInt8.toNat hzero
  omega

end FixedFragment.Text

namespace FixedFragment.Glsl

open Text (Plain plain_join isPlain_of_range)

/-! ## Words and expressions -/

theorem isPlain_of_isWordChar {c : Char} (h : isWordChar c = true) : Text.isPlain c = true := by
  -- Upper and lower case letters, digits and the underscore.
  change (((decide ('A'.val ≤ c.val ∧ c.val ≤ 'Z'.val)
    || (decide ('a'.val ≤ c.val) && decide (c.val ≤ 'z'.val)))
    || (decide ('0'.val ≤ c.val) && decide (c.val ≤ '9'.val))) || decide (c = '_')) = true at h
  simp only [Bool.or_eq_true, Bool.and_eq_true, decide_eq_true_eq, UInt32.le_iff_toNat_le] at h
  rcases h with ((⟨hlow, hhigh⟩ | ⟨hlow, hhigh⟩) | ⟨hlow, hhigh⟩) | rfl
  · exact isPlain_of_range (Nat.le_trans (by decide) hlow) (Nat.le_trans hhigh (by decide))
  · exact isPlain_of_range (Nat.le_trans (by decide) hlow) (Nat.le_trans hhigh (by decide))
  · exact isPlain_of_range (Nat.le_trans (by decide) hlow) (Nat.le_trans hhigh (by decide))
  · decide

theorem IsWord.plain {w : String} (h : IsWord w) : Plain w :=
  fun c hc => isPlain_of_isWordChar (h.2 c hc)

namespace Expr

theorem plain_bracketed (e : Expr) (least : Nat) {text : String} (h : Plain text) :
    Plain (e.bracketed least text) := by
  unfold bracketed
  split
  · exact (Plain.append (by decide) h).append (by decide)
  · exact h

theorem plain_text {e : Expr} (he : e.WellNamed) : Plain e.text := by
  have hopen : Plain "(" := by decide
  have hclose : Plain ")" := by decide
  have hcomma : Plain ", " := by decide
  have hspace : Plain " " := by decide
  have hdot : Plain "." := by decide
  induction e with
  | lit whole tenths =>
      exact (isWord_decimal whole).plain.joined hdot (isWord_decimal tenths).plain
  | var name => exact he.1.plain
  | part e sel ih => exact (plain_bracketed e 6 (ih he.1)).joined hdot sel.isWord_text.plain
  | not e ih => exact Plain.append (by decide) (plain_bracketed e 5 (ih he))
  | arith op lhs rhs ihl ihr =>
      have hop : Plain op.text := by cases op <;> decide
      have hl := plain_bracketed lhs op.level (ihl he.1)
      have hr := plain_bracketed rhs (op.level + 1) (ihr he.2)
      exact (hl.joined hspace hop).joined hspace hr
  | compare rel lhs rhs ihl ihr =>
      have hrel : Plain rel.text := by cases rel <;> decide
      have hl := plain_bracketed lhs rel.level (ihl he.1)
      have hr := plain_bracketed rhs (rel.level + 1) (ihr he.2)
      exact (hl.joined hspace hrel).joined hspace hr
  | call1 f a ih =>
      have hf := (Func.isWord_text he.1).plain
      exact (hf.joined hopen (ih he.2)).append hclose
  | call2 f a b iha ihb =>
      have hf := (Func.isWord_text he.1).plain
      exact ((hf.joined hopen (iha he.2.1)).joined hcomma (ihb he.2.2)).append hclose
  | call3 f a b c iha ihb ihc =>
      have hf := (Func.isWord_text he.1).plain
      have hab := (hf.joined hopen (iha he.2.1)).joined hcomma (ihb he.2.2.1)
      exact (hab.joined hcomma (ihc he.2.2.2)).append hclose
  | call4 f a b c d iha ihb ihc ihd =>
      have hf := (Func.isWord_text he.1).plain
      have hab := (hf.joined hopen (iha he.2.1)).joined hcomma (ihb he.2.2.1)
      exact ((hab.joined hcomma (ihc he.2.2.2.1)).joined hcomma (ihd he.2.2.2.2)).append hclose

end Expr

/-! ## Lines -/

theorem QualifiedTy.plain_text (q : QualifiedTy) : Plain q.text := by
  unfold text
  cases q.precision with
  | some p => exact p.isWord_text.plain.joined (by decide) q.ty.isWord_text.plain
  | none => exact q.ty.isWord_text.plain

theorem Global.plain_line {g : Global} (hg : g.WellNamed) : Plain g.line := by
  have hspace : Plain " " := by decide
  have htyped := g.storage.isWord_text.plain.joined hspace g.ty.plain_text
  exact (htyped.joined hspace hg.1.plain).append (by decide)

theorem Stmt.plain_line {s : Stmt} (hs : s.WellNamed) : Plain s.line := by
  refine Plain.append (by decide) ?_
  cases s with
  | declare ty name value =>
      have hname : Plain (ty.text ++ " " ++ name) :=
        ty.isWord_text.plain.joined (by decide) hs.1.1.plain
      exact (hname.joined (by decide) (Expr.plain_text hs.2)).append (by decide)
  | assign name value | addAssign name value =>
      exact (hs.1.1.plain.joined (by decide) (Expr.plain_text hs.2)).append (by decide)
  | assignPart name sel value =>
      have hpart : Plain (name ++ "." ++ sel.text) :=
        hs.1.1.plain.joined (by decide) sel.isWord_text.plain
      exact (hpart.joined (by decide) (Expr.plain_text hs.2)).append (by decide)
  | discard => decide
  | discardIf cond => exact (Plain.append (by decide) (Expr.plain_text hs)).append (by decide)

theorem Helper.plain_line {h : Helper} (hh : h.WellNamed) : Plain h.line := by
  have hlocals : Plain (String.join (h.locals.map h.localText)) := by
    refine plain_join fun text htext => ?_
    obtain ⟨l, hl, rfl⟩ := List.mem_map.mp htext
    have hname : Plain (h.ty.text ++ " " ++ l.1) :=
      h.ty.plain_text.joined (by decide) (hh.locals l hl).1.1.plain
    exact (hname.joined (by decide) (Expr.plain_text (hh.locals l hl).2)).append (by decide)
  have hname : Plain (h.ty.text ++ " " ++ h.name) :=
    h.ty.plain_text.joined (by decide) hh.name.1.plain
  have hparam : Plain (h.ty.text ++ " " ++ h.name ++ "(in " ++ h.ty.text ++ " " ++ h.param) :=
    (hname.joined (by decide) h.ty.plain_text).joined (by decide) hh.param.1.plain
  exact ((hparam.joined (by decide) hlocals).joined (by decide) (Expr.plain_text hh.result)).append
    (by decide)

/-! ## Programs -/

theorem Program.plain_lines {p : Program} (hp : p.WellNamed) : ∀ line ∈ p.lines, Plain line := by
  have hversion : Plain (versionLine p.version) :=
    Plain.append (by decide) (isWord_decimal p.version).plain
  simp only [lines, List.forall_mem_cons, List.forall_mem_append, List.forall_mem_map]
  refine ⟨hversion, ⟨⟨fun q _ => ?_, fun g hg => Global.plain_line (hp.globals g hg)⟩,
    fun h hh => Helper.plain_line (hp.helpers h hh)⟩, by decide,
    fun s hs => Stmt.plain_line (hp.main s hs), by decide⟩
  cases q <;> decide

/-- The text of a program whose names are names is plain. -/
theorem Program.plain_text {p : Program} (hp : p.WellNamed) : Plain p.text := by
  refine plain_join fun piece hpiece => ?_
  obtain ⟨line, hline, rfl⟩ := List.mem_map.mp hpiece
  exact (plain_lines hp line hline).append (by decide)

end FixedFragment.Glsl

namespace FixedFragment

theorem Decisions.plain_source (d : Decisions) (p : EmitPolicy) : Text.Plain (d.source p) :=
  Glsl.Program.plain_text (d.wellNamed_program p)

end FixedFragment
