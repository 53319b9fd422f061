import FixedFragment.Text.Bytes
import FixedFragment.Text.Decimal

set_option autoImplicit false

/-!
# Sinks

A sink takes a text piece by piece, and the first piece that it refuses ends the writing. There
are sinks that keep the text, that only count its bytes, that stop after a number of bytes, and
that fill a buffer of fixed size and leave room for a zero byte behind the text.
-/

namespace FixedFragment

/-- A way to write pieces of text. `write` gives what the sink holds afterwards, as an error if it
did not take the whole piece. -/
structure Sink (σ : Type) where
  write : σ → String → Except σ σ

namespace Sink

variable {σ : Type}

/-- Writes pieces in order, up to the first that is refused. -/
def writeAll (k : Sink σ) (start : σ) (pieces : List String) : Except σ σ :=
  pieces.foldlM k.write start

/-- What a sink holds after writing, whether all was taken or not. -/
def held : Except σ σ → σ
  | .ok s => s
  | .error s => s

theorem writeAll_append (k : Sink σ) (start : σ) (ps qs : List String) :
    k.writeAll start (ps ++ qs) = (k.writeAll start ps).bind fun s => k.writeAll s qs :=
  List.foldlM_append

/-! ## Text and length -/

/-- Keeps the text. -/
def text : Sink String where
  write s piece := .ok (s ++ piece)

/-- Counts the bytes. -/
def length : Sink Nat where
  write n piece := .ok (n + (Text.bytes piece).length)

theorem writeAll_text (start : String) (pieces : List String) :
    text.writeAll start pieces = .ok (start ++ String.join pieces) := by
  induction pieces generalizing start with
  | nil => simp [writeAll, pure, Except.pure]
  | cons piece pieces ih =>
      have hstep : text.write start piece = .ok (start ++ piece) := rfl
      show (text.write start piece >>= fun s => text.writeAll s pieces) = _
      rw [hstep]
      show text.writeAll (start ++ piece) pieces = _
      rw [ih, String.join_cons, String.append_assoc]

theorem writeAll_length (start : Nat) (pieces : List String) :
    length.writeAll start pieces = .ok (start + (Text.bytes (String.join pieces)).length) := by
  induction pieces generalizing start with
  | nil => rfl
  | cons piece pieces ih =>
      have hstep : length.write start piece = .ok (start + (Text.bytes piece).length) := rfl
      show (length.write start piece >>= fun s => length.writeAll s pieces) = _
      rw [hstep]
      show length.writeAll (start + (Text.bytes piece).length) pieces = _
      rw [ih, String.join_cons, Text.bytes_append, List.length_append, Nat.add_assoc]

/-! ## Bounded number of bytes -/

/-- Takes `limit` bytes in total. Of a piece that goes past the limit it keeps what fits. -/
def bounded (limit : Nat) : Sink (List UInt8) where
  write kept piece :=
    let room := limit - kept.length
    let new := Text.bytes piece
    if new.length ≤ room then .ok (kept ++ new) else .error (kept ++ new.take room)

end Sink

/-! ## Buffers of fixed size -/

/-- A buffer of fixed size, and the number of bytes it was asked to take so far. -/
structure FixedBuffer where
  bytes : List UInt8
  asked : Nat := 0
deriving DecidableEq, Repr

/-- A text and the zero byte behind it do not fit a buffer. -/
structure BufferTooSmall where
  required : Nat
  available : Nat
deriving DecidableEq, Repr

/-- The wording of the failure: the size found and the size needed. -/
def BufferTooSmall.message (e : BufferTooSmall) : String :=
  "output buffer holds " ++ Decimal.text e.available ++ " bytes but the shader needs "
    ++ Decimal.text e.required ++ " (including the nul terminator)"

namespace FixedBuffer

/-- The number of bytes that text may fill: all but one. -/
def capacity (b : FixedBuffer) : Nat := b.bytes.length - 1

/-- Takes the bytes that fit and counts the others. -/
def put (b : FixedBuffer) (new : List UInt8) : FixedBuffer :=
  let taken := new.take (b.capacity - b.asked)
  if b.asked < b.capacity then
    { bytes := b.bytes.take b.asked ++ taken ++ b.bytes.drop (b.asked + taken.length)
      asked := b.asked + new.length }
  else
    { b with asked := b.asked + new.length }

theorem length_bytes_put (b : FixedBuffer) (new : List UInt8) :
    (b.put new).bytes.length = b.bytes.length := by
  unfold put
  split
  · next h =>
      simp only [capacity] at h ⊢
      simp only [List.length_append, List.length_take, List.length_drop]
      omega
  · rfl

theorem asked_put (b : FixedBuffer) (new : List UInt8) :
    (b.put new).asked = b.asked + new.length := by
  unfold put
  split <;> rfl

/-- Puts the zero byte behind the text, and gives the length of the text and the buffer. -/
def terminate (b : FixedBuffer) : Except BufferTooSmall Nat × List UInt8 :=
  if b.asked + 1 ≤ b.bytes.length then
    (.ok b.asked, b.bytes.set b.asked 0)
  else
    (.error { required := b.asked + 1, available := b.bytes.length }, b.bytes)

end FixedBuffer

/-- Fills a buffer of fixed size; never refuses, so that the whole length is counted. -/
def Sink.buffer : Sink FixedBuffer where
  write b piece := .ok (b.put (Text.bytes piece))

end FixedFragment
