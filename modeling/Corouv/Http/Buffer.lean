import Corouv.Base

/-!
# The receive buffer

`BufferCursor` is a string with a read offset.  Consuming moves the offset and
compacts the string now and then; the record carries the proof that the offset
stays inside the string.

The offset is advanced by `size_t` addition.  A `std::string` is shorter than
`2 ^ 63` bytes, so the sum can only wrap around for a length beyond the bytes
the buffer holds.
-/

namespace Corouv.Http

open Library

theorem zero_le_length_nil : 0 ≤ ([] : Bytes).length :=
  Nat.zero_le _

structure BufferCursor where
  storage : Bytes := []
  offset : ℕ := 0
  offset_le : offset ≤ storage.length := by first | exact zero_le_length_nil | simp

namespace BufferCursor

def size (buffer : BufferCursor) : ℕ :=
  buffer.storage.length - buffer.offset

def view (buffer : BufferCursor) : Bytes :=
  buffer.storage.drop buffer.offset

def append (buffer : BufferCursor) (data : Bytes) : BufferCursor where
  storage := buffer.storage ++ data
  offset := buffer.offset
  offset_le := by
    have := buffer.offset_le
    simp only [List.length_append]
    omega

def compact (storage : Bytes) (offset : ℕ) : BufferCursor :=
  if offset = 0 then ⟨storage, 0, Nat.zero_le _⟩
  else if outside : storage.length ≤ offset then ⟨[], 0, Nat.zero_le _⟩
  else if 4096 < offset ∧ storage.length ≤ offset * 2 then
    ⟨storage.drop offset, 0, Nat.zero_le _⟩
  else ⟨storage, offset, (Nat.lt_of_not_le outside).le⟩

def advance (buffer : BufferCursor) (length : ℕ) : ℕ :=
  if length ≤ buffer.size then buffer.offset + length else sizeAdd buffer.offset length

def consume (buffer : BufferCursor) (length : ℕ) : BufferCursor :=
  compact buffer.storage (buffer.advance length)

def take (buffer : BufferCursor) (length : ℕ) : Bytes × BufferCursor :=
  ((buffer.storage.drop buffer.offset).take length, buffer.consume length)

def find (buffer : BufferCursor) (needle : Bytes) : Option ℕ :=
  Library.find needle buffer.view

@[simp]
theorem length_view (buffer : BufferCursor) : buffer.view.length = buffer.size := by
  simp [view, size]

@[simp]
theorem view_append (buffer : BufferCursor) (data : Bytes) :
    (buffer.append data).view = buffer.view ++ data := by
  simp only [view, append]
  exact List.drop_append_of_le_length buffer.offset_le

@[simp]
theorem size_append (buffer : BufferCursor) (data : Bytes) :
    (buffer.append data).size = buffer.size + data.length := by
  rw [← length_view, view_append, List.length_append, length_view]

theorem view_compact (storage : Bytes) (offset : ℕ) :
    (compact storage offset).view = storage.drop offset := by
  simp only [compact]
  split
  next atStart => simp [view, atStart]
  · split
    next outside => simp [view, List.drop_eq_nil_of_le outside]
    · split
      · simp [view]
      · rfl

@[simp]
theorem view_consume {buffer : BufferCursor} {length : ℕ} (held : length ≤ buffer.size) :
    (buffer.consume length).view = buffer.view.drop length := by
  rw [consume, view_compact, advance, if_pos held, view, List.drop_drop]

theorem size_consume {buffer : BufferCursor} {length : ℕ} (held : length ≤ buffer.size) :
    (buffer.consume length).size = buffer.size - length := by
  rw [← length_view, view_consume held, List.length_drop, length_view]

end BufferCursor

inductive BufferCall where
  | append (data : Bytes)
  | consume (length : ℕ)
  | take (length : ℕ)
  | find (needle : Bytes)

inductive BufferReply where
  | done
  | taken (data : Bytes)
  | found (position : Option ℕ)

def BufferCursor.perform (buffer : BufferCursor) : BufferCall → BufferReply × BufferCursor
  | .append data => (.done, buffer.append data)
  | .consume length => (.done, buffer.consume length)
  | .take length => (.taken (buffer.take length).1, (buffer.take length).2)
  | .find needle => (.found (buffer.find needle), buffer)

/-- The calls on a plain list of bytes. -/
def queuePerform (content : Bytes) : BufferCall → BufferReply × Bytes
  | .append data => (.done, content ++ data)
  | .consume length => (.done, content.drop length)
  | .take length => (.taken (content.take length), content.drop length)
  | .find needle => (.found (find needle content), content)

/-- The call does not go beyond the end of the content. -/
def BufferCall.Fits (content : Bytes) : BufferCall → Prop
  | .consume length | .take length => length ≤ content.length
  | .append _ | .find _ => True

/-- The replies to the calls, one after the other, and what they leave behind. -/
def performAll {σ : Type} (perform : σ → BufferCall → BufferReply × σ) :
    σ → List BufferCall → List BufferReply × σ
  | state, [] => ([], state)
  | state, call :: later =>
      let rest := performAll perform (perform state call).2 later
      ((perform state call).1 :: rest.1, rest.2)

def CallsFit : Bytes → List BufferCall → Prop
  | _, [] => True
  | content, call :: later => call.Fits content ∧ CallsFit (queuePerform content call).2 later

theorem perform_eq {buffer : BufferCursor} {call : BufferCall} (fits : call.Fits buffer.view) :
    queuePerform buffer.view call = ((buffer.perform call).1, (buffer.perform call).2.view) := by
  cases call with
  | append data => rw [BufferCursor.perform, BufferCursor.view_append, queuePerform]
  | consume length | take length =>
      have held : length ≤ buffer.size := buffer.length_view ▸ fits
      simp only [BufferCursor.perform, BufferCursor.take, BufferCursor.view_consume held]
      rfl
  | find needle => rfl

/-- The buffer is a queue of bytes: when it is compacted cannot be observed. -/
theorem buffer_refines_queue (buffer : BufferCursor) (calls : List BufferCall)
    (fit : CallsFit buffer.view calls) :
    performAll queuePerform buffer.view calls =
        ((performAll BufferCursor.perform buffer calls).1,
          (performAll BufferCursor.perform buffer calls).2.view) ∧
      (performAll BufferCursor.perform buffer calls).2.offset ≤
        (performAll BufferCursor.perform buffer calls).2.storage.length := by
  refine ⟨?_, BufferCursor.offset_le _⟩
  induction calls generalizing buffer with
  | nil => rfl
  | cons call later ih =>
      have next := perform_eq fit.1
      have rest := fit.2
      rw [next] at rest
      simp only [performAll, next, ih _ rest]

theorem buffer_refines_queue_emptied :
    performAll queuePerform [] [.append [7, 8], .take 1, .consume 1] =
      ((performAll BufferCursor.perform {} [.append [7, 8], .take 1, .consume 1]).1, []) :=
  (buffer_refines_queue {} [.append [7, 8], .take 1, .consume 1]
    ⟨trivial, show 1 ≤ 2 by decide, show 1 ≤ 1 by decide, trivial⟩).1

end Corouv.Http
