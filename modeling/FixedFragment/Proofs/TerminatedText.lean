import FixedFragment.Emission
import FixedFragment.Proofs.PlainText

set_option autoImplicit false

/-!
# Shader texts in buffers of fixed size

After any part of a text a buffer holds what fits of this part, then its old bytes, and the count
is that of the whole part (`FixedBuffer.filled`). So the pieces in which a text is put do not
matter. No access leaves the buffer: `FixedBuffer.fillChecked`, which gives nothing where one
does, gives what writing gives. Main statement: `writeTerminated_bounded`.
-/

namespace FixedFragment

namespace FixedBuffer

/-! ## After a part of the text -/

/-- The buffer `old` after the bytes of `text`, which may fill all but the last byte. -/
def filled (old text : List UInt8) : FixedBuffer where
  bytes := text.take (old.length - 1) ++ old.drop (min text.length (old.length - 1))
  asked := text.length

theorem filled_nil (old : List UInt8) : filled old [] = { bytes := old } := by
  simp [filled]

theorem length_bytes_filled (old text : List UInt8) :
    (filled old text).bytes.length = old.length := by
  simp only [filled, List.length_append, List.length_take, List.length_drop]
  omega

theorem bytes_filled_of_le {old text : List UInt8} (h : text.length ≤ old.length - 1) :
    (filled old text).bytes = text ++ old.drop text.length := by
  rw [filled, List.take_of_length_le h, Nat.min_eq_left h]

theorem bytes_filled_of_ge {old text : List UInt8} (h : old.length - 1 ≤ text.length) :
    (filled old text).bytes = text.take (old.length - 1) ++ old.drop (old.length - 1) := by
  rw [filled, Nat.min_eq_right h]

/-- Bytes that are put go on with the text. -/
theorem put_filled (old text new : List UInt8) :
    (filled old text).put new = filled old (text ++ new) := by
  have hcapacity : (filled old text).capacity = old.length - 1 := by
    rw [capacity, length_bytes_filled]
  have hasked : (filled old text).asked = text.length := rfl
  unfold put
  rw [hcapacity, hasked]
  by_cases hroom : text.length < old.length - 1
  · -- The text so far is whole, and the new bytes stand right behind it.
    have htaken : text.length + (new.take (old.length - 1 - text.length)).length
        = min (text ++ new).length (old.length - 1) := by
      simp only [List.length_take, List.length_append]
      omega
    have hwhole : (text ++ new).take (old.length - 1)
        = text ++ new.take (old.length - 1 - text.length) := by
      rw [List.take_append, List.take_of_length_le (Nat.le_of_lt hroom)]
    rw [if_pos hroom, bytes_filled_of_le (Nat.le_of_lt hroom), List.take_left,
      List.drop_length_add_append, List.drop_drop, htaken, filled, hwhole, List.length_append]
  · -- The buffer was full before.
    have hfull : old.length - 1 ≤ text.length := Nat.le_of_not_lt hroom
    have hmore : old.length - 1 ≤ (text ++ new).length := by
      rw [List.length_append]
      exact Nat.le_trans hfull (Nat.le_add_right _ _)
    have hbytes : (filled old text).bytes = (filled old (text ++ new)).bytes := by
      rw [bytes_filled_of_ge hfull, bytes_filled_of_ge hmore, List.take_append_of_le_length hfull]
    rw [if_neg hroom, hbytes, ← List.length_append]
    rfl

/-- Puts the pieces of a text. -/
def putAll (b : FixedBuffer) (pieces : List String) : FixedBuffer :=
  pieces.foldl (fun b piece => b.put (Text.bytes piece)) b

theorem putAll_filled (old text : List UInt8) (pieces : List String) :
    (filled old text).putAll pieces = filled old (text ++ Text.bytes (String.join pieces)) := by
  induction pieces generalizing text with
  | nil => simp [putAll]
  | cons piece pieces ih =>
      show ((filled old text).put (Text.bytes piece)).putAll pieces = _
      rw [put_filled, ih, String.join_cons, Text.bytes_append, List.append_assoc]

/-- What a buffer holds depends on the text alone, and not on its pieces. -/
theorem putAll_start (old : List UInt8) (pieces : List String) :
    putAll { bytes := old } pieces = filled old (Text.bytes (String.join pieces)) := by
  rw [← filled_nil, putAll_filled, List.nil_append]

/-! ## Checked accesses -/

/-- The first `n` bytes, if there are as many. -/
def prefix? (bytes : List UInt8) (n : Nat) : Option (List UInt8) :=
  if n ≤ bytes.length then some (bytes.take n) else none

/-- The bytes with those from `start` to `stop` replaced by as many new ones, if all of these are
there. -/
def overwrite? (bytes : List UInt8) (start stop : Nat) (new : List UInt8) :
    Option (List UInt8) :=
  if start ≤ stop ∧ stop ≤ bytes.length ∧ new.length = stop - start then
    some (bytes.take start ++ new ++ bytes.drop stop)
  else
    none

/-- Takes the bytes that fit and counts the others, by accesses that are checked. -/
def putChecked (b : FixedBuffer) (new : List UInt8) : Option FixedBuffer :=
  if b.asked < b.capacity then do
    let n := min new.length (b.capacity - b.asked)
    let taken ← prefix? new n
    let bytes ← overwrite? b.bytes b.asked (b.asked + n) taken
    return { bytes := bytes, asked := b.asked + new.length }
  else
    some { b with asked := b.asked + new.length }

/-- Puts the zero byte behind the text, by an access that is checked. -/
def terminateChecked (b : FixedBuffer) : Option (Except BufferTooSmall Nat × List UInt8) :=
  if b.asked + 1 ≤ b.bytes.length then
    (overwrite? b.bytes b.asked (b.asked + 1) [0]).map fun bytes => (.ok b.asked, bytes)
  else
    some (.error { required := b.asked + 1, available := b.bytes.length }, b.bytes)

/-- Fills a buffer with the pieces of a text and a zero byte behind it. -/
def fillChecked (buffer : List UInt8) (pieces : List String) :
    Option (Except BufferTooSmall Nat × List UInt8) := do
  let start : FixedBuffer := { bytes := buffer }
  let b ← pieces.foldlM (fun b piece => putChecked b (Text.bytes piece)) start
  b.terminateChecked

/-- Both slices of a piece lie where they are taken from. -/
theorem putChecked_eq (b : FixedBuffer) (new : List UInt8) :
    b.putChecked new = some (b.put new) := by
  unfold putChecked
  by_cases hroom : b.asked < b.capacity
  · have htake : new.take (min new.length (b.capacity - b.asked))
        = new.take (b.capacity - b.asked) := by
      rw [Nat.min_comm, ← List.take_take, List.take_length]
    have hlength : (new.take (b.capacity - b.asked)).length
        = min new.length (b.capacity - b.asked) := by
      rw [List.length_take, Nat.min_comm]
    have hend : b.asked + min new.length (b.capacity - b.asked) ≤ b.bytes.length := by
      unfold capacity at hroom ⊢
      omega
    have hprefix : prefix? new (min new.length (b.capacity - b.asked))
        = some (new.take (b.capacity - b.asked)) := by
      rw [prefix?, if_pos (Nat.min_le_left _ _), htake]
    have hoverwrite : overwrite? b.bytes b.asked
          (b.asked + min new.length (b.capacity - b.asked)) (new.take (b.capacity - b.asked))
        = some (b.put new).bytes := by
      rw [overwrite?, if_pos ⟨Nat.le_add_right _ _, hend, by omega⟩, put, if_pos hroom, hlength]
    simp only [if_pos hroom, hprefix, hoverwrite, Option.bind_eq_bind, Option.bind_some]
    rw [← asked_put]
    rfl
  · rw [put, if_neg hroom, if_neg hroom]

/-- The zero byte has a place where the text and it fit. -/
theorem terminateChecked_eq (b : FixedBuffer) : b.terminateChecked = some b.terminate := by
  unfold terminateChecked terminate
  by_cases hfits : b.asked + 1 ≤ b.bytes.length
  · have hset : overwrite? b.bytes b.asked (b.asked + 1) [0] = some (b.bytes.set b.asked 0) := by
      rw [overwrite?, if_pos ⟨Nat.le_succ _, hfits, by simp⟩, List.set_eq_take_append_cons_drop,
        if_pos (Nat.lt_of_succ_le hfits), List.append_assoc]
      rfl
    rw [if_pos hfits, if_pos hfits, hset]
    rfl
  · rw [if_neg hfits, if_neg hfits]

theorem fillChecked_eq (buffer : List UInt8) (pieces : List String) :
    fillChecked buffer pieces
      = some (filled buffer (Text.bytes (String.join pieces))).terminate := by
  have hputs : (fun (b : FixedBuffer) (piece : String) => b.putChecked (Text.bytes piece))
      = fun b piece => some (b.put (Text.bytes piece)) :=
    funext fun b => funext fun piece => putChecked_eq b (Text.bytes piece)
  have hall : pieces.foldlM (fun (b : FixedBuffer) piece => b.putChecked (Text.bytes piece))
      { bytes := buffer } = some (putAll { bytes := buffer } pieces) := by
    rw [hputs]
    exact List.foldlM_pure
  simp only [fillChecked, hall, Option.bind_eq_bind, Option.bind_some, terminateChecked_eq,
    putAll_start]

/-! ## The zero byte -/

theorem terminate_filled_of_fits {old text : List UInt8} (h : text.length + 1 ≤ old.length) :
    (filled old text).terminate
      = (.ok text.length, text ++ 0 :: old.drop (text.length + 1)) := by
  have hbytes : (filled old text).bytes = text ++ old.drop text.length :=
    bytes_filled_of_le (by omega)
  have hasked : (filled old text).asked = text.length := rfl
  rw [terminate, length_bytes_filled, hasked, if_pos h, hbytes,
    List.set_append_right _ _ (le_refl _), Nat.sub_self, List.drop_eq_getElem_cons h]
  rfl

theorem terminate_filled_of_tooSmall {old text : List UInt8} (h : old.length < text.length + 1) :
    (filled old text).terminate
      = (.error { required := text.length + 1, available := old.length },
          text.take (old.length - 1) ++ old.drop (old.length - 1)) := by
  have hasked : (filled old text).asked = text.length := rfl
  rw [terminate, length_bytes_filled, hasked, if_neg (Nat.not_le.mpr h),
    bytes_filled_of_ge (by omega)]

end FixedBuffer

/-! ## Shader texts -/

namespace PipelineState

theorem writeTerminated_eq (s : PipelineState) (p : EmitPolicy) (buffer : List UInt8) :
    s.writeTerminated p buffer
      = (FixedBuffer.filled buffer (Text.bytes (s.source p))).terminate := by
  have hall : s.emit p .buffer { bytes := buffer }
      = .ok (FixedBuffer.putAll { bytes := buffer } ((Decisions.ofState s).pieces p)) :=
    List.foldlM_pure
  rw [writeTerminated, hall, FixedBuffer.putAll_start]
  rfl

/-- **Writing stays inside the buffer.** No byte of a shader text is zero. A buffer with room for
the text and a zero byte takes both, keeps the bytes behind them, and its first zero byte is the
one behind the text. A smaller buffer is reported with its size and the size needed; it takes what
fits of the text and keeps its last byte. All accesses lie in bounds, and it does not matter in
which pieces the text comes. -/
theorem writeTerminated_bounded (s : PipelineState) (p : EmitPolicy) (buffer : List UInt8) :
    let text := Text.bytes (s.source p)
    0 ∉ text
      ∧ (text.length + 1 ≤ buffer.length →
          s.writeTerminated p buffer
              = (.ok text.length, text ++ 0 :: buffer.drop (text.length + 1))
            ∧ (s.writeTerminated p buffer).2.findIdx? (· = 0) = some text.length)
      ∧ (buffer.length < text.length + 1 →
          s.writeTerminated p buffer
            = (.error { required := text.length + 1, available := buffer.length },
                text.take (buffer.length - 1) ++ buffer.drop (buffer.length - 1)))
      ∧ ∀ pieces : List String, String.join pieces = s.source p →
          FixedBuffer.fillChecked buffer pieces = some (s.writeTerminated p buffer) := by
  intro text
  have hzero : 0 ∉ text := Text.zero_notMem_bytes ((Decisions.ofState s).plain_source p)
  refine ⟨hzero, fun hfits => ?_, fun hsmall => ?_, fun pieces hpieces => ?_⟩
  · have hwrite : s.writeTerminated p buffer
        = (.ok text.length, text ++ 0 :: buffer.drop (text.length + 1)) :=
      (s.writeTerminated_eq p buffer).trans (FixedBuffer.terminate_filled_of_fits hfits)
    have hbefore : text.findIdx? (· = 0) = none := by
      rw [List.findIdx?_eq_none_iff]
      intro b hb
      exact decide_eq_false fun h => hzero (h ▸ hb)
    refine ⟨hwrite, ?_⟩
    rw [hwrite, List.findIdx?_append, hbefore, List.findIdx?_cons]
    simp
  · exact (s.writeTerminated_eq p buffer).trans (FixedBuffer.terminate_filled_of_tooSmall hsmall)
  · rw [FixedBuffer.fillChecked_eq, hpieces, writeTerminated_eq]

/-- A buffer with two bytes more than the text keeps its last byte; an empty buffer is too small
for any text, in one piece too. -/
theorem writeTerminated_bounded_reset :
    let text := Text.bytes (source {} {})
    writeTerminated {} {} (List.replicate (text.length + 2) 7)
        = (.ok text.length, text ++ [0, 7])
      ∧ writeTerminated {} {} [] = (.error { required := text.length + 1, available := 0 }, [])
      ∧ FixedBuffer.fillChecked [] [source {} {}] = some (writeTerminated {} {} []) := by
  intro text
  obtain ⟨-, hfits, -, -⟩ :=
    writeTerminated_bounded {} {} (List.replicate (text.length + 2) 7)
  obtain ⟨-, -, hsmall, hpieces⟩ := writeTerminated_bounded {} {} []
  have hone : String.join [source {} {}] = source {} {} := by simp
  have hroom : text.length + 1 ≤ (List.replicate (text.length + 2) (7 : UInt8)).length := by
    rw [List.length_replicate]
    exact Nat.le_succ _
  have hrest : (List.replicate (text.length + 2) (7 : UInt8)).drop (text.length + 1) = [7] := by
    rw [List.drop_replicate, Nat.add_sub_add_left]
    rfl
  refine ⟨(hfits hroom).1.trans ?_, (hsmall (Nat.succ_pos _)).trans ?_, hpieces _ hone⟩
  · rw [hrest]
  · simp [text]

end PipelineState

end FixedFragment
