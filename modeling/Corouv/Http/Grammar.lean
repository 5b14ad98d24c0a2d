import Corouv.Http.Reader

/-!
# Message bodies as functions of the whole input

What the readers of `Corouv.Http.Reader` compute, said without a network: each
function takes all bytes that are still unread and returns what it reads with the
bytes that follow.  Sizes are natural numbers here and nothing wraps around.
`none` is an input that is not accepted.

`chunkSizes` lists the values of the chunk-size lines that reading a chunked body
comes to, including the one it is rejected for.
-/

namespace Corouv.Http.Grammar

open Library

def line (maxLine : ℕ) (input : Bytes) : Option (Bytes × Bytes) :=
  (find crlf (input.take maxLine)).map fun position =>
    (input.take position, input.drop (position + 2))

def fixedBody (limits : Limits) (size : ℕ) (input : Bytes) : Option (Bytes × Bytes) :=
  if size ≤ limits.maxBodyBytes ∧ size ≤ input.length then
    some (input.take size, input.drop size)
  else none

def chunkHeader (limits : Limits) (input : Bytes) : Option (ℕ × Bytes) :=
  (line limits.maxHeaderBytes input).bind fun read =>
    (chunkSize read.1).map fun size => (size, read.2)

/-- A chunk-size line of any length. -/
def sizeLine (input : Bytes) : Option (ℕ × Bytes) :=
  (line input.length input).bind fun read => (chunkSize read.1).map fun size => (size, read.2)

/-- The trailer lines up to the empty one. -/
def trailersWithin (limits : Limits) (wanted : Bool) :
    ℕ → Headers → Bytes → Option (Headers × Bytes)
  | 0, _, _ => none
  | fuel + 1, trailers, input =>
      (line limits.maxHeaderBytes input).bind fun read =>
        if read.1 = [] then some (trailers, read.2)
        else if wanted then
          match appendTrailer trailers read.1 with
          | .error _ => none
          | .ok longer =>
              if longer.length ≤ limits.maxHeaderCount then
                trailersWithin limits wanted fuel longer read.2
              else none
        else trailersWithin limits wanted fuel trailers read.2

def trailersFrom (limits : Limits) (wanted : Bool) (trailers : Headers) (input : Bytes) :
    Option (Headers × Bytes) :=
  trailersWithin limits wanted (input.length + 1) trailers input

def trailers (limits : Limits) (wanted : Bool) (input : Bytes) : Option (Headers × Bytes) :=
  trailersFrom limits wanted [] input

/-- A chunk of the given size fits what is left of the body limit and of the
buffer, and is there with its terminator. -/
def ChunkFits (limits : Limits) (total size : ℕ) (input : Bytes) : Prop :=
  total + size ≤ limits.maxBodyBytes ∧ size + 2 ≤ chunkBufferLimit limits total ∧
    (input.drop size).take 2 = crlf

instance (limits : Limits) (total size : ℕ) (input : Bytes) :
    Decidable (ChunkFits limits total size input) :=
  inferInstanceAs (Decidable (_ ∧ _ ∧ _))

/-- The content, the trailers and the rest of a chunked body of which `total`
bytes have been read. -/
def chunkedWithin (limits : Limits) (wanted : Bool) :
    ℕ → ℕ → Bytes → Option (Bytes × Headers × Bytes)
  | 0, _, _ => none
  | fuel + 1, total, input =>
      (chunkHeader limits input).bind fun header =>
        if header.1 = 0 then
          (trailers limits wanted header.2).map fun closing => ([], closing.1, closing.2)
        else if ChunkFits limits total header.1 header.2 then
          (chunkedWithin limits wanted fuel (total + header.1)
            (header.2.drop (header.1 + 2))).map fun later =>
              (header.2.take header.1 ++ later.1, later.2)
        else none

def chunkedFrom (limits : Limits) (wanted : Bool) (total : ℕ) (input : Bytes) :
    Option (Bytes × Headers × Bytes) :=
  chunkedWithin limits wanted (input.length + 1) total input

def chunkedBody (limits : Limits) (wanted : Bool) (input : Bytes) :
    Option (Bytes × Headers × Bytes) :=
  chunkedFrom limits wanted 0 input

def chunkSizesWithin (limits : Limits) : ℕ → ℕ → Bytes → List ℕ
  | 0, _, _ => []
  | fuel + 1, total, input =>
      match chunkHeader limits input with
      | none => []
      | some (size, rest) =>
          if size ≠ 0 ∧ ChunkFits limits total size rest then
            size :: chunkSizesWithin limits fuel (total + size) (rest.drop (size + 2))
          else [size]

def chunkSizesFrom (limits : Limits) (total : ℕ) (input : Bytes) : List ℕ :=
  chunkSizesWithin limits (input.length + 1) total input

def chunkSizes (limits : Limits) (input : Bytes) : List ℕ :=
  chunkSizesFrom limits 0 input

variable {input rest text : Bytes} {limits : Limits} {size : ℕ}

theorem line_eq_some {maxLine : ℕ} (read : line maxLine input = some (text, rest)) :
    ∃ position, find crlf input = some position ∧ position + 2 ≤ maxLine ∧
      position + 2 ≤ input.length ∧ text = input.take position ∧
      rest = input.drop (position + 2) := by
  simp only [line, Option.map_eq_some_iff, Prod.mk.injEq] at read
  rcases read with ⟨position, found, rfl, rfl⟩
  rcases (find_take_eq_some_iff (by simp [crlf])).mp found with ⟨whole, fits⟩
  have inside := find_add_length_le whole
  exact ⟨position, whole, fits, inside, rfl, rfl⟩

theorem length_rest_of_line {maxLine : ℕ} (read : line maxLine input = some (text, rest)) :
    rest.length + 2 ≤ input.length := by
  rcases line_eq_some read with ⟨_, -, -, _, -, rfl⟩
  simp only [List.length_drop]
  omega

theorem fixedBody_eq_some {content : Bytes}
    (read : fixedBody limits size input = some (content, rest)) :
    size ≤ limits.maxBodyBytes ∧ size ≤ input.length ∧ content = input.take size ∧
      rest = input.drop size := by
  simp only [fixedBody] at read
  split at read
  next fits =>
    simp only [Option.some.injEq, Prod.mk.injEq] at read
    exact ⟨fits.1, fits.2, read.1.symm, read.2.symm⟩
  · exact absurd read (by simp)

theorem fixedBody_append {body : Bytes} (rest : Bytes)
    (within : body.length ≤ limits.maxBodyBytes) :
    fixedBody limits body.length (body ++ rest) = some (body, rest) := by
  simp [fixedBody, within]

theorem chunkHeader_eq_some (read : chunkHeader limits input = some (size, rest)) :
    ∃ text, line limits.maxHeaderBytes input = some (text, rest) ∧ chunkSize text = some size := by
  simp only [chunkHeader, Option.bind_eq_some_iff, Option.map_eq_some_iff, Prod.mk.injEq] at read
  rcases read with ⟨⟨text, _⟩, found, _, announced, rfl, rfl⟩
  exact ⟨text, found, announced⟩

theorem chunkSize_lt (announced : chunkSize text = some size) : size < 2 ^ 64 := by
  simp only [chunkSize] at announced
  split at announced
  next value read =>
    simp only [Option.some.injEq] at announced
    subst value
    exact Numeral.fromChars_lt read
  · exact absurd announced (by simp)

theorem sizeLine_eq_some (read : sizeLine input = some (size, rest)) :
    ∃ text, line input.length input = some (text, rest) ∧ chunkSize text = some size := by
  rcases Option.bind_eq_some_iff.mp read with ⟨⟨text, _⟩, found, announced⟩
  rcases Option.map_eq_some_iff.mp announced with ⟨_, sized, same⟩
  cases same
  exact ⟨text, found, sized⟩

theorem length_rest_of_sizeLine (read : sizeLine input = some (size, rest)) :
    rest.length + 2 ≤ input.length := by
  rcases sizeLine_eq_some read with ⟨_, found, -⟩
  exact length_rest_of_line found

theorem length_of_take_two_eq_crlf (terminated : (input.drop size).take 2 = crlf) :
    size + 2 ≤ input.length := by
  have enough := congrArg List.length terminated
  simp only [List.length_take, List.length_drop, crlf, List.length_cons, List.length_nil] at enough
  omega

theorem length_rest_of_chunkHeader (read : chunkHeader limits input = some (size, rest)) :
    rest.length + 2 ≤ input.length := by
  rcases chunkHeader_eq_some read with ⟨_, found, -⟩
  exact length_rest_of_line found

theorem length_drop_lt_of_chunkHeader (read : chunkHeader limits input = some (size, rest))
    (count : ℕ) : (rest.drop count).length < input.length := by
  have shorter := length_rest_of_chunkHeader read
  rw [List.length_drop]
  omega

theorem trailersWithin_congr (limits : Limits) (wanted : Bool) :
    ∀ (fuel fuel' : ℕ) (trailers : Headers) (input : Bytes), input.length < fuel →
      input.length < fuel' → trailersWithin limits wanted fuel trailers input =
        trailersWithin limits wanted fuel' trailers input := by
  intro fuel fuel' trailers input
  apply fuel_congr (fun fuel (entry : Headers × Bytes) =>
    trailersWithin limits wanted fuel entry.1 entry.2) (fun entry => entry.2.length) ?_ fuel fuel'
    (trailers, input)
  intro _ _ entry ih
  simp only [trailersWithin]
  cases read : line limits.maxHeaderBytes entry.2 with
  | none => rfl
  | some pair =>
      rcases pair with ⟨_, rest⟩
      have shorter : rest.length < entry.2.length := by
        have := length_rest_of_line read
        omega
      have same := fun longer => ih (longer, rest) shorter
      simp only [Option.bind_some, same]

theorem trailersFrom_eq (limits : Limits) (wanted : Bool) (trailers : Headers) (input : Bytes) :
    trailersFrom limits wanted trailers input =
      (line limits.maxHeaderBytes input).bind fun read =>
        if read.1 = [] then some (trailers, read.2)
        else if wanted then
          match appendTrailer trailers read.1 with
          | .error _ => none
          | .ok longer =>
              if longer.length ≤ limits.maxHeaderCount then
                trailersFrom limits wanted longer read.2
              else none
        else trailersFrom limits wanted trailers read.2 := by
  rw [trailersFrom, trailersWithin]
  cases read : line limits.maxHeaderBytes input with
  | none => rfl
  | some pair =>
      rcases pair with ⟨_, rest⟩
      have shorter := length_rest_of_line read
      have same := fun longer => trailersWithin_congr limits wanted input.length
        (rest.length + 1) longer rest (by omega) (by omega)
      simp [same, trailersFrom]

theorem chunkedWithin_congr (limits : Limits) (wanted : Bool) :
    ∀ (fuel fuel' total : ℕ) (input : Bytes), input.length < fuel → input.length < fuel' →
      chunkedWithin limits wanted fuel total input =
        chunkedWithin limits wanted fuel' total input := by
  intro fuel fuel' total input
  apply fuel_congr (fun fuel (entry : ℕ × Bytes) =>
    chunkedWithin limits wanted fuel entry.1 entry.2) (fun entry => entry.2.length) ?_ fuel fuel'
    (total, input)
  intro _ _ entry ih
  simp only [chunkedWithin]
  cases read : chunkHeader limits entry.2 with
  | none => rfl
  | some pair =>
      rcases pair with ⟨size, rest⟩
      have same := ih (entry.1 + size, rest.drop (size + 2)) (length_drop_lt_of_chunkHeader read _)
      simp only [Option.bind_some, same]

theorem chunkedFrom_eq (limits : Limits) (wanted : Bool) (total : ℕ) (input : Bytes) :
    chunkedFrom limits wanted total input =
      (chunkHeader limits input).bind fun header =>
        if header.1 = 0 then
          (trailers limits wanted header.2).map fun closing => ([], closing.1, closing.2)
        else if ChunkFits limits total header.1 header.2 then
          (chunkedFrom limits wanted (total + header.1) (header.2.drop (header.1 + 2))).map
            fun later => (header.2.take header.1 ++ later.1, later.2)
        else none := by
  rw [chunkedFrom, chunkedWithin]
  cases read : chunkHeader limits input with
  | none => rfl
  | some pair =>
      rcases pair with ⟨size, rest⟩
      have same := chunkedWithin_congr limits wanted input.length
        ((rest.drop (size + 2)).length + 1) (total + size) (rest.drop (size + 2))
        (length_drop_lt_of_chunkHeader read _) (by omega)
      simp only [Option.bind_some, same, chunkedFrom]

theorem chunkSizesWithin_congr (limits : Limits) :
    ∀ (fuel fuel' total : ℕ) (input : Bytes), input.length < fuel → input.length < fuel' →
      chunkSizesWithin limits fuel total input = chunkSizesWithin limits fuel' total input := by
  intro fuel fuel' total input
  apply fuel_congr (fun fuel (entry : ℕ × Bytes) =>
    chunkSizesWithin limits fuel entry.1 entry.2) (fun entry => entry.2.length) ?_ fuel fuel'
    (total, input)
  intro _ _ entry ih
  simp only [chunkSizesWithin]
  cases read : chunkHeader limits entry.2 with
  | none => rfl
  | some pair =>
      rcases pair with ⟨size, rest⟩
      have same := ih (entry.1 + size, rest.drop (size + 2)) (length_drop_lt_of_chunkHeader read _)
      simp only [same]

theorem chunkSizesFrom_of_header (total : ℕ) (read : chunkHeader limits input = some (size, rest)) :
    chunkSizesFrom limits total input =
      if size ≠ 0 ∧ ChunkFits limits total size rest then
        size :: chunkSizesFrom limits (total + size) (rest.drop (size + 2))
      else [size] := by
  have same := chunkSizesWithin_congr limits input.length
    ((rest.drop (size + 2)).length + 1) (total + size) (rest.drop (size + 2))
    (length_drop_lt_of_chunkHeader read _) (by omega)
  simp only [chunkSizesFrom, chunkSizesWithin, read, same]

theorem length_rest_of_trailersWithin (limits : Limits) (wanted : Bool) :
    ∀ (fuel : ℕ) {fields fields' : Headers} {input rest : Bytes},
      trailersWithin limits wanted fuel fields input = some (fields', rest) →
        rest.length ≤ input.length := by
  intro fuel
  induction fuel with
  | zero =>
      intro _ _ _ _ read
      cases read
  | succ _ ih =>
      intro _ _ _ _ read
      rcases Option.bind_eq_some_iff.mp read with ⟨⟨_, _⟩, found, later⟩
      have shorter := length_rest_of_line found
      dsimp only at later
      split at later
      · cases later
        omega
      · split at later
        · split at later
          · cases later
          · split at later
            · have := ih later
              omega
            · cases later
        · have := ih later
          omega

theorem length_rest_of_chunkedWithin (limits : Limits) (wanted : Bool) :
    ∀ (fuel : ℕ) {total : ℕ} {input content rest : Bytes} {fields : Headers},
      chunkedWithin limits wanted fuel total input = some (content, fields, rest) →
        rest.length ≤ input.length := by
  intro fuel
  induction fuel with
  | zero =>
      intro _ _ _ _ _ read
      cases read
  | succ _ ih =>
      intro _ _ _ _ _ read
      rcases Option.bind_eq_some_iff.mp read with ⟨⟨_, _⟩, found, later⟩
      have shorter := length_rest_of_chunkHeader found
      dsimp only at later
      split at later
      · rcases Option.map_eq_some_iff.mp later with ⟨⟨_, _⟩, closing, same⟩
        simp only [Prod.mk.injEq] at same
        rcases same with ⟨-, -, rfl⟩
        have := length_rest_of_trailersWithin limits wanted _ closing
        omega
      · split at later
        · rcases Option.map_eq_some_iff.mp later with ⟨⟨_, _, _⟩, more, same⟩
          cases same
          have := ih more
          simp only [List.length_drop] at this
          omega
        · cases later

theorem length_rest_of_chunkedBody {wanted : Bool} {content : Bytes} {fields : Headers}
    (read : chunkedBody limits wanted input = some (content, fields, rest)) :
    rest.length ≤ input.length :=
  length_rest_of_chunkedWithin limits wanted _ read

end Corouv.Http.Grammar
