import FixedFragment.Emission

set_option autoImplicit false

/-!
# Shader texts in sinks that fail

A sink that takes a limited number of bytes holds the first bytes of a text, as many as it takes,
whatever the pieces of the text are, and after the first piece that it does not take whole it is
offered no other (`Sink.writeAll_noting_bounded`). So the writing of a shader ends with the first
piece that is refused, also where each of its pieces comes in parts (`Sink.inParts`). The other
ways to have a text never fail and give all of it. Main statement: `emit_agrees`.
-/

namespace FixedFragment

namespace Sink

variable {σ : Type}

/-! ## Pieces that are offered -/

/-- Offers pieces to `k` and notes each of them, whether `k` takes it or refuses it. -/
def noting (k : Sink σ) : Sink (σ × List String) where
  write x piece :=
    match k.write x.1 piece with
    | .ok s => .ok (s, x.2 ++ [piece])
    | .error s => .error (s, x.2 ++ [piece])

/-- What a noting sink tells without its notes. -/
def withoutNotes : Except (σ × List String) (σ × List String) → Except σ σ
  | .ok x => .ok x.1
  | .error x => .error x.1

/-- Notes change nothing about what is written. -/
theorem withoutNotes_writeAll_noting (k : Sink σ) (start : σ) (noted pieces : List String) :
    withoutNotes (k.noting.writeAll (start, noted) pieces) = k.writeAll start pieces := by
  induction pieces generalizing start noted with
  | nil => rfl
  | cons piece pieces ih =>
      show withoutNotes
            (k.noting.write (start, noted) piece >>= fun x => k.noting.writeAll x pieces)
        = (k.write start piece >>= fun s => k.writeAll s pieces)
      cases hwrite : k.write start piece with
      | ok s =>
          have hnoting : k.noting.write (start, noted) piece = .ok (s, noted ++ [piece]) := by
            simp only [noting, hwrite]
          rw [hnoting]
          exact ih s (noted ++ [piece])
      | error s =>
          have hnoting : k.noting.write (start, noted) piece = .error (s, noted ++ [piece]) := by
            simp only [noting, hwrite]
          rw [hnoting]
          rfl

/-! ## Pieces in parts -/

/-- Splits each piece, and hands its parts to `k` one after another. -/
def inParts (k : Sink σ) (split : String → List String) : Sink σ where
  write s piece := k.writeAll s (split piece)

/-- All parts of all pieces are written, up to the first that is refused. -/
theorem writeAll_inParts (k : Sink σ) (split : String → List String) (start : σ)
    (pieces : List String) :
    (k.inParts split).writeAll start pieces = k.writeAll start (pieces.flatMap split) := by
  induction pieces generalizing start with
  | nil => rfl
  | cons piece pieces ih =>
      show (k.writeAll start (split piece)).bind (fun s => (k.inParts split).writeAll s pieces) = _
      simp only [ih]
      rw [List.flatMap_cons, writeAll_append]

theorem join_flatMap {split : String → List String}
    (hsplit : ∀ piece, String.join (split piece) = piece) (pieces : List String) :
    String.join (pieces.flatMap split) = String.join pieces := by
  induction pieces with
  | nil => rfl
  | cons piece pieces ih =>
      rw [List.flatMap_cons, String.join_append, hsplit, ih, String.join_cons]

/-! ## Sinks with a limit -/

/-- The pieces up to the first one that ends past `room` bytes. -/
def upTo (room : Nat) : List String → List String
  | [] => []
  | piece :: pieces =>
      if (Text.bytes piece).length ≤ room then
        piece :: upTo (room - (Text.bytes piece).length) pieces
      else
        [piece]

/-- All pieces of a text that fits are among them. -/
theorem upTo_of_le {room : Nat} {pieces : List String}
    (h : (Text.bytes (String.join pieces)).length ≤ room) : upTo room pieces = pieces := by
  induction pieces generalizing room with
  | nil => rfl
  | cons piece pieces ih =>
      rw [String.join_cons, Text.bytes_append, List.length_append] at h
      rw [upTo, if_pos (by omega), ih (by omega)]

/-- A piece that fits is taken whole, of any other the sink keeps what fits. -/
theorem write_noting_bounded (limit : Nat) (kept : List UInt8) (noted : List String)
    (piece : String) :
    (bounded limit).noting.write (kept, noted) piece
      = if (Text.bytes piece).length ≤ limit - kept.length then
          .ok (kept ++ Text.bytes piece, noted ++ [piece])
        else
          .error (kept ++ (Text.bytes piece).take (limit - kept.length), noted ++ [piece]) := by
  by_cases hfits : (Text.bytes piece).length ≤ limit - kept.length
  · simp only [noting, bounded, if_pos hfits]
  · simp only [noting, bounded, if_neg hfits]

/-- A sink with a limit takes a text that fits. Of any other text it keeps what fits, and it is
offered the pieces up to the first that ends past the limit. -/
theorem writeAll_noting_bounded (limit : Nat) (kept : List UInt8) (noted pieces : List String) :
    (bounded limit).noting.writeAll (kept, noted) pieces
      = if (Text.bytes (String.join pieces)).length ≤ limit - kept.length then
          .ok (kept ++ Text.bytes (String.join pieces), noted ++ pieces)
        else
          .error (kept ++ (Text.bytes (String.join pieces)).take (limit - kept.length),
            noted ++ upTo (limit - kept.length) pieces) := by
  -- What is kept and noted grows from piece to piece, and the room gets smaller.
  induction pieces generalizing kept noted with
  | nil => simp [writeAll, pure, Except.pure]
  | cons piece pieces ih =>
      show ((bounded limit).noting.write (kept, noted) piece
        >>= fun x => (bounded limit).noting.writeAll x pieces) = _
      rw [write_noting_bounded, String.join_cons, Text.bytes_append]
      by_cases hpiece : (Text.bytes piece).length ≤ limit - kept.length
      · have hroom : limit - (kept ++ Text.bytes piece).length
            = limit - kept.length - (Text.bytes piece).length := by
          rw [List.length_append, Nat.sub_add_eq]
        have hrest : (Text.bytes piece ++ Text.bytes (String.join pieces)).length
              ≤ limit - kept.length
            ↔ (Text.bytes (String.join pieces)).length
              ≤ limit - kept.length - (Text.bytes piece).length := by
          rw [List.length_append]
          omega
        rw [if_pos hpiece]
        show (bounded limit).noting.writeAll (kept ++ Text.bytes piece, noted ++ [piece]) pieces = _
        rw [ih, hroom, upTo, if_pos hpiece, List.take_append, List.take_of_length_le hpiece]
        simp only [hrest, List.append_assoc, List.singleton_append]
      · have hpast : ¬(Text.bytes piece ++ Text.bytes (String.join pieces)).length
            ≤ limit - kept.length := by
          rw [List.length_append]
          omega
        rw [if_neg hpiece, if_neg hpast, upTo, if_neg hpiece,
          List.take_append_of_le_length (Nat.le_of_not_le hpiece)]
        rfl

end Sink

/-! ## Text buffers -/

/-- Loads shaders into one text buffer after another, and gives the buffer after each of them. -/
def TextBuffer.loadAll (b : TextBuffer) : List (PipelineState × EmitPolicy) → List TextBuffer
  | [] => []
  | (s, p) :: rest => b.load s p :: (b.load s p).loadAll rest

theorem TextBuffer.map_text_loadAll (b : TextBuffer) (shaders : List (PipelineState × EmitPolicy)) :
    (b.loadAll shaders).map text = shaders.map fun shader => shader.1.source shader.2 := by
  induction shaders generalizing b with
  | nil => rfl
  | cons shader rest ih =>
      obtain ⟨s, p⟩ := shader
      rw [loadAll, List.map_cons, List.map_cons, text_load, ih]

/-! ## Shader texts -/

namespace PipelineState

/-- A sink with a limit holds the first bytes of a shader text and was offered the pieces up to the
first that ends past the limit, whatever the pieces are. -/
theorem writeAll_noting_source (s : PipelineState) (p : EmitPolicy) (limit : Nat)
    {pieces : List String} (h : String.join pieces = s.source p) :
    (Sink.bounded limit).noting.writeAll ([], []) pieces
      = if (Text.bytes (s.source p)).length ≤ limit then
          .ok (Text.bytes (s.source p), pieces)
        else
          .error ((Text.bytes (s.source p)).take limit, Sink.upTo limit pieces) := by
  rw [Sink.writeAll_noting_bounded, h]
  simp only [List.length_nil, Nat.sub_zero, List.nil_append]

theorem emit_bounded (s : PipelineState) (p : EmitPolicy) (limit : Nat) :
    s.emit p (.bounded limit) []
      = if (Text.bytes (s.source p)).length ≤ limit then .ok (Text.bytes (s.source p))
        else .error ((Text.bytes (s.source p)).take limit) := by
  have hpieces : String.join ((Decisions.ofState s).pieces p) = s.source p := rfl
  have hemit : s.emit p (.bounded limit) []
      = (Sink.bounded limit).writeAll [] ((Decisions.ofState s).pieces p) := rfl
  rw [hemit, ← Sink.withoutNotes_writeAll_noting _ _ [], writeAll_noting_source s p limit hpieces]
  split <;> rfl

/-- Whatever its pieces are, a shader text leaves a sink with a limit as the writing of the shader
does, and the sink is offered no piece after the first that ends past the limit. -/
theorem writeAll_noting_eq_emit (s : PipelineState) (p : EmitPolicy) (limit : Nat)
    {pieces : List String} (h : String.join pieces = s.source p) :
    let result := (Sink.bounded limit).noting.writeAll ([], []) pieces
    Sink.withoutNotes result = s.emit p (.bounded limit) []
      ∧ (Sink.held result).2 = Sink.upTo limit pieces := by
  intro result
  have hresult : result = _ := writeAll_noting_source s p limit h
  rw [hresult, emit_bounded]
  by_cases hfits : (Text.bytes (s.source p)).length ≤ limit
  · rw [if_pos hfits, if_pos hfits, Sink.upTo_of_le (h ▸ hfits)]
    exact ⟨rfl, rfl⟩
  · rw [if_neg hfits, if_neg hfits]
    exact ⟨rfl, rfl⟩

/-- **All ways to have a shader text agree.** A sink with a limit takes the text exactly if it fits,
and holds the first bytes of the text, as many as there is room for. The pieces that the writing of
a shader offers to the sink end with the first that it does not take whole. So do the parts, if
each piece is handed over in parts, and the pieces of the text where it is split in any other way.
A sink without a limit takes the text, the length is that of the text, and a text buffer that is
used for one shader after another holds the text of each in turn, whatever it held before. -/
theorem emit_agrees (s : PipelineState) (p : EmitPolicy) :
    let text := Text.bytes (s.source p)
    let written := (Decisions.ofState s).pieces p
    (∀ limit : Nat,
        ((s.emit p (.bounded limit) []).isOk = true ↔ text.length ≤ limit)
          ∧ Sink.held (s.emit p (.bounded limit) []) = text.take (min limit text.length))
      ∧ (∀ limit : Nat,
          let result := s.emit p (Sink.bounded limit).noting ([], [])
          Sink.withoutNotes result = s.emit p (.bounded limit) []
            ∧ (Sink.held result).2 = Sink.upTo limit written)
      ∧ (∀ (limit : Nat) (split : String → List String),
          (∀ piece, String.join (split piece) = piece) →
          let result := s.emit p ((Sink.bounded limit).noting.inParts split) ([], [])
          Sink.withoutNotes result = s.emit p (.bounded limit) []
            ∧ (Sink.held result).2 = Sink.upTo limit (written.flatMap split))
      ∧ (∀ (limit : Nat) (pieces : List String), String.join pieces = s.source p →
          let result := (Sink.bounded limit).noting.writeAll ([], []) pieces
          Sink.withoutNotes result = s.emit p (.bounded limit) []
            ∧ (Sink.held result).2 = Sink.upTo limit pieces)
      ∧ s.emit p .text "" = .ok (s.source p)
      ∧ s.sourceLength p = text.length
      ∧ ∀ (b : TextBuffer) (shaders : List (PipelineState × EmitPolicy)),
          (b.loadAll shaders).map TextBuffer.text
            = shaders.map fun shader => shader.1.source shader.2 := by
  intro text written
  have hwritten : String.join written = s.source p := rfl
  -- The writing of a shader writes these pieces, whatever the sink.
  have hemit : ∀ k : Sink (List UInt8 × List String),
      s.emit p k ([], []) = k.writeAll ([], []) written := fun _ => rfl
  refine ⟨fun limit => ?_, fun limit => ?_, fun limit split hsplit => ?_,
    fun limit _ => writeAll_noting_eq_emit s p limit, ?_, s.sourceLength_eq p,
    TextBuffer.map_text_loadAll⟩
  · rw [emit_bounded]
    by_cases hfits : text.length ≤ limit
    · rw [if_pos hfits, Nat.min_eq_right hfits, List.take_length]
      exact ⟨iff_of_true rfl hfits, rfl⟩
    · rw [if_neg hfits, Nat.min_eq_left (Nat.le_of_not_le hfits)]
      exact ⟨iff_of_false Bool.false_ne_true hfits, rfl⟩
  · rw [hemit]
    exact writeAll_noting_eq_emit s p limit hwritten
  · rw [hemit, Sink.writeAll_inParts]
    exact writeAll_noting_eq_emit s p limit ((Sink.join_flatMap hsplit written).trans hwritten)
  · exact ((Decisions.ofState s).emit_text p "").trans (congrArg Except.ok String.empty_append)

/-- A sink that gets full within the first line of a shader is offered no other line. If the lines
come as single characters, it is offered no character after the first that it refuses, and if the
text comes in four pieces and the second is refused, not even the empty piece that comes next. It
holds the same bytes in all cases. -/
theorem emit_agrees_cut :
    let pieces := ["#version", " 110\n", "",
      "varying vec4 v_color0;\nvoid main() \x7b\n  vec4 v = v_color0;\n  gl_FragColor = v;\n\x7d\n"]
    let split : String → List String := fun piece => piece.toList.map String.singleton
    let full := emit {} {} (Sink.bounded 10).noting ([], [])
    let inChars := emit {} {} ((Sink.bounded 10).noting.inParts split) ([], [])
    let inPieces := (Sink.bounded 10).noting.writeAll ([], []) pieces
    Sink.held (emit {} {} (.bounded 10) []) = Text.bytes "#version 1"
      ∧ (Sink.held full).2 = ["#version 110\n"]
      ∧ Sink.withoutNotes full = emit {} {} (.bounded 10) []
      ∧ (∀ piece, String.join (split piece) = piece)
      ∧ (Sink.held inChars).2 = ["#", "v", "e", "r", "s", "i", "o", "n", " ", "1", "1"]
      ∧ Sink.withoutNotes inChars = emit {} {} (.bounded 10) []
      ∧ String.join pieces = source {} {}
      ∧ (Sink.held inPieces).2 = ["#version", " 110\n"]
      ∧ Sink.withoutNotes inPieces = emit {} {} (.bounded 10) [] := by
  intro pieces split full inChars inPieces
  have hsplit : ∀ piece, String.join (split piece) = piece := by
    intro piece
    rw [← String.toList_inj, String.toList_join, List.flatMap_map]
    simp
  have hpieces : String.join pieces = source {} {} := by decide +kernel
  obtain ⟨hsink, hlines, hparts, hpiecewise, -⟩ := emit_agrees {} {}
  obtain ⟨hfull, hoffered⟩ := hlines 10
  obtain ⟨hchars, hofferedChars⟩ := hparts 10 split hsplit
  obtain ⟨hnotes, hseen⟩ := hpiecewise 10 pieces hpieces
  refine ⟨(hsink 10).2.trans ?_, hoffered.trans ?_, hfull, hsplit, hofferedChars.trans ?_, hchars,
    hpieces, hseen, hnotes⟩
  all_goals decide +kernel

end PipelineState

end FixedFragment
