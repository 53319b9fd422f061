import FixedFragment.ShaderProgram
import FixedFragment.Sink

set_option autoImplicit false

/-!
# Writing shaders

The shader of a state is written to a sink piece by piece. It can be had as a text, in a text
buffer that is used again, as its length alone, or in a buffer of fixed size with a zero byte
behind it.
-/

namespace FixedFragment

/-- No shader text is longer than this. -/
def maxSourceLength : Nat := 2048

/-- Writes the shader for `d` to a sink. -/
def Decisions.emit {σ : Type} (d : Decisions) (p : EmitPolicy) (k : Sink σ) (start : σ) :
    Except σ σ :=
  k.writeAll start (d.pieces p)

theorem Decisions.emit_text (d : Decisions) (p : EmitPolicy) (start : String) :
    d.emit p .text start = .ok (start ++ d.source p) :=
  Sink.writeAll_text start (d.pieces p)

theorem Decisions.emit_length (d : Decisions) (p : EmitPolicy) (start : Nat) :
    d.emit p .length start = .ok (start + (Text.bytes (d.source p)).length) :=
  Sink.writeAll_length start (d.pieces p)

namespace PipelineState

/-- Writes the shader that a state needs to a sink. -/
def emit {σ : Type} (s : PipelineState) (p : EmitPolicy) (k : Sink σ) (start : σ) : Except σ σ :=
  (Decisions.ofState s).emit p k start

/-- The length in bytes of the shader text. -/
def sourceLength (s : PipelineState) (p : EmitPolicy) : Nat := Sink.held (s.emit p .length 0)

theorem sourceLength_eq (s : PipelineState) (p : EmitPolicy) :
    s.sourceLength p = (Text.bytes (s.source p)).length := by
  rw [sourceLength, emit, Decisions.emit_length, Nat.zero_add]
  rfl

/-- Fills a buffer with the shader text and a zero byte behind it. -/
def writeTerminated (s : PipelineState) (p : EmitPolicy) (buffer : List UInt8) :
    Except BufferTooSmall Nat × List UInt8 :=
  (Sink.held (s.emit p .buffer { bytes := buffer })).terminate

end PipelineState

/-! ## Text buffers -/

/-- A text buffer that is used again for one shader after another. -/
structure TextBuffer where
  text : String := ""
deriving DecidableEq, Repr

namespace TextBuffer

def clear (_ : TextBuffer) : TextBuffer := {}

/-- Clears the buffer and writes the shader of a state to it. -/
def load (b : TextBuffer) (s : PipelineState) (p : EmitPolicy) : TextBuffer where
  text := Sink.held (s.emit p .text b.clear.text)

/-- What the buffer held before does not matter. -/
theorem text_load (b : TextBuffer) (s : PipelineState) (p : EmitPolicy) :
    (b.load s p).text = s.source p := by
  rw [load, PipelineState.emit, Decisions.emit_text]
  exact String.empty_append

end TextBuffer

end FixedFragment
