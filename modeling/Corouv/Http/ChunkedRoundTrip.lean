import Mathlib.Data.List.Infix
import Corouv.Http.ChunkRoom
import Corouv.Http.Writer

/-!
# Chunked bodies, written and read back

What `write_chunked_body_stream` emits is a chunked body of the grammar, and
reading it returns the concatenation of the strings and the trailers, as long as
no string is empty: an empty string is written as the chunk that ends the body.
-/

namespace Corouv.Http

open Library Io

/-- A field that survives `serialize_headers` and the trailer reader. -/
structure Header.Transmissible (header : Header) : Prop where
  name_colon : 58 ∉ header.name
  name_cr : 13 ∉ header.name
  value_cr : 13 ∉ header.value
  name_trimmed : trimCopy header.name = header.name
  value_trimmed : trimCopy header.value = header.value

variable {header : Header}

theorem Header.Transmissible.sendable (transmissible : header.Transmissible) : header.Sendable := by
  refine ⟨transmissible.name_colon, transmissible.name_trimmed, transmissible.value_trimmed, ?_⟩
  exact not_crlf_infix_headerLine (not_crlf_infix_of_notMem transmissible.name_cr)
    transmissible.value_cr

/-- If the text before the first line end is taken apart into the field, that text is the whole
line. -/
theorem Header.sendable_of_parted {more : Bytes} {position colon : ℕ}
    (found : find crlf (headerLine header ++ (crlf ++ more)) = some position)
    (parted : find (ascii ":") ((headerLine header ++ (crlf ++ more)).take position) = some colon)
    (name : trimCopy (((headerLine header ++ (crlf ++ more)).take position).take colon) =
      header.name)
    (value : trimCopy (((headerLine header ++ (crlf ++ more)).take position).drop (colon + 1)) =
      header.value) : header.Sendable ∧ position = (headerLine header).length := by
  rcases find_eq_some_iff.mp found with ⟨⟨_, occurs⟩, -, first⟩
  have within : position ≤ (headerLine header).length := by
    by_contra beyond
    apply first _ (Nat.lt_of_not_le beyond)
    rw [List.drop_left]
    exact List.prefix_append _ _
  have unbroken := (find_split (by decide) found).2
  rw [List.take_append_of_le_length within] at parted name value unbroken
  have noColon : 58 ∉ header.name := by
    intro mem
    rw [← name] at mem
    apply (find_split (by decide) parted).2
    exact (List.singleton_infix_iff 58 _).mpr ((isInfix_trimCopy _).subset mem)
  rcases find_colon header.value noColon with ⟨first, named, valued⟩
  rw [← headerLine] at first named valued
  rcases (find_take_eq_some_iff (by decide)).mp parted with ⟨parted, inside⟩
  cases first.symm.trans parted
  have one : (ascii ":").length = 1 := rfl
  have whole : position = (headerLine header).length := by
    have shorter := (isInfix_trimCopy
      (((headerLine header).take position).drop (header.name.length + 1))).length_le
    have length := length_headerLine header
    rw [value, List.length_drop, List.length_take] at shorter
    by_contra early
    have last : (headerLine header).length = position + 1 := by omega
    -- the carriage return behind the line would be the line feed of the break
    have feed := congrArg (fun text => text[1]?) occurs
    simp only [List.getElem?_drop] at feed
    rw [← last, List.getElem?_append_right le_rfl, Nat.sub_self] at feed
    simp [crlf] at feed
  rw [whole, List.take_length] at name value unbroken
  rw [named] at name
  rw [valued] at value
  exact ⟨⟨noColon, name, value, unbroken⟩, whole⟩

namespace Grammar

variable {text : Bytes} {size : ℕ}

theorem line_append {maxLine : ℕ} (rest : Bytes) (unbroken : ¬crlf <:+: text)
    (short : text.length + 2 ≤ maxLine) :
    line maxLine (text ++ crlf ++ rest) = some (text, rest) := by
  have found : find crlf (text ++ crlf ++ rest) = some text.length := by
    rw [List.append_assoc]
    exact find_crlf_append unbroken rest
  have within : find crlf ((text ++ crlf ++ rest).take maxLine) = some text.length :=
    (find_take_eq_some_iff (by simp [crlf])).mpr ⟨found, short⟩
  rw [line, within]
  simp [crlf, List.drop_append]

theorem chunkSize_digits (small : size < 2 ^ 64) :
    chunkSize (Numeral.digits 16 size) = some size := by
  have plain : find (ascii ";") (Numeral.digits 16 size) = none :=
    find_eq_none_of_notMem (Numeral.notMem_digits 16 size (by norm_num) le_rfl (by decide))
  simp only [chunkSize, plain, Option.getD_none, List.take_length]
  rw [trimCopy_digits 16 size (by norm_num) le_rfl,
    Numeral.fromChars_digits (by norm_num) le_rfl small]

variable {limits : Limits}

theorem chunkHeader_digits (rest : Bytes) (small : size < 2 ^ 64)
    (short : (Numeral.digits 16 size).length + 2 ≤ limits.maxHeaderBytes) :
    chunkHeader limits (Numeral.digits 16 size ++ crlf ++ rest) = some (size, rest) := by
  have plain : 13 ∉ Numeral.digits 16 size :=
    Numeral.notMem_digits 16 size (by norm_num) le_rfl (by decide)
  rw [chunkHeader, line_append rest (not_crlf_infix_of_notMem plain) short, Option.bind_some,
    chunkSize_digits small, Option.map_some]

theorem chunkHeader_digits_eq_some {size' : ℕ} {rest rest' : Bytes} (small : size < 2 ^ 64)
    (read : chunkHeader limits (Numeral.digits 16 size ++ crlf ++ rest) = some (size', rest')) :
    (Numeral.digits 16 size).length + 2 ≤ limits.maxHeaderBytes ∧ size' = size ∧ rest' = rest := by
  have plain : 13 ∉ Numeral.digits 16 size :=
    Numeral.notMem_digits 16 size (by norm_num) le_rfl (by decide)
  have first : find crlf (Numeral.digits 16 size ++ crlf ++ rest) =
      some (Numeral.digits 16 size).length := find_append_of_notMem plain
  rcases chunkHeader_eq_some read with ⟨_, found, -⟩
  rcases line_eq_some found with ⟨_, here, fits, -⟩
  rw [first] at here
  cases here
  rw [chunkHeader_digits rest small fits] at read
  cases read
  exact ⟨fits, rfl, rfl⟩

theorem sizeLine_digits (rest : Bytes) (small : size < 2 ^ 64) :
    sizeLine (Numeral.digits 16 size ++ crlf ++ rest) = some (size, rest) := by
  have plain : 13 ∉ Numeral.digits 16 size :=
    Numeral.notMem_digits 16 size (by norm_num) le_rfl (by decide)
  rw [sizeLine, line_append rest (not_crlf_infix_of_notMem plain) (by simp [crlf]),
    Option.bind_some, chunkSize_digits small, Option.map_some]

theorem appendTrailer_of_sendable {header : Header} (sendable : header.Sendable)
    (fields : Headers) :
    appendTrailer fields (headerLine header) = .ok (fields ++ [header]) := by
  rcases find_colon header.value sendable.colon with ⟨found, name, value⟩
  rw [headerLine, appendTrailer, found]
  simp only [name, value, sendable.nameTrimmed, sendable.valueTrimmed]
  rfl

/-- Sendable trailers within the limits are read back as they were serialized. -/
theorem trailersFrom_serializeHeaders (trailers : Headers) (rest : Bytes)
    (sendable : ∀ header ∈ trailers, header.Sendable)
    (short : ∀ header ∈ trailers,
      header.name.length + header.value.length + 4 ≤ limits.maxHeaderBytes)
    (room : 2 ≤ limits.maxHeaderBytes) :
    ∀ fields : Headers, fields.length + trailers.length ≤ limits.maxHeaderCount →
      trailersFrom limits true fields (serializeHeaders trailers ++ crlf ++ rest) =
        some (fields ++ trailers, rest) := by
  induction trailers with
  | nil =>
      intro _ _
      have ended : line limits.maxHeaderBytes ([] ++ crlf ++ rest) = some ([], rest) :=
        line_append rest (not_crlf_infix_of_notMem List.not_mem_nil) (by simpa using room)
      rw [trailersFrom_eq, serializeHeaders, List.flatMap_nil, ended]
      simp
  | cons header later ih =>
      intro _ few
      have here := sendable header (by simp)
      have next : line limits.maxHeaderBytes (headerLine header ++ crlf ++
          (serializeHeaders later ++ crlf ++ rest)) =
          some (headerLine header, serializeHeaders later ++ crlf ++ rest) := by
        apply line_append _ here.line
        have fits := short header (by simp)
        rw [length_headerLine]
        omega
      have split : serializeHeaders (header :: later) ++ crlf ++ rest =
          headerLine header ++ crlf ++ (serializeHeaders later ++ crlf ++ rest) := by
        simp [serializeHeaders_cons]
      rw [trailersFrom_eq, split, next, Option.bind_some, if_neg (headerLine_ne_nil header),
        if_pos rfl, appendTrailer_of_sendable here]
      simp only [List.length_append, List.length_cons, List.length_nil] at few ⊢
      rw [if_pos (by omega), ih (fun other mem => sendable other (by simp [mem]))
        (fun other mem => short other (by simp [mem])) _ (by simp; omega)]
      simp

theorem appendTrailer_eq_ok {fields longer : Headers}
    (appended : appendTrailer fields text = .ok longer) :
    ∃ colon field, find (ascii ":") text = some colon ∧
      trimCopy (text.take colon) = field.name ∧ trimCopy (text.drop (colon + 1)) = field.value ∧
      longer = fields ++ [field] := by
  simp only [appendTrailer] at appended
  split at appended
  · cases appended
  next colon parted =>
    cases appended
    exact ⟨colon, _, parted, rfl, rfl, rfl⟩

theorem isPrefix_of_trailersWithin (limits : Limits) (wanted : Bool) :
    ∀ (fuel : ℕ) {fields fields' : Headers} {input rest : Bytes},
      trailersWithin limits wanted fuel fields input = some (fields', rest) →
        fields <+: fields' := by
  intro fuel
  induction fuel with
  | zero =>
      intro _ _ _ _ read
      cases read
  | succ _ ih =>
      intro _ _ _ _ read
      rcases Option.bind_eq_some_iff.mp read with ⟨⟨_, _⟩, _, later⟩
      dsimp only at later
      split at later
      · cases later
        exact List.prefix_rfl
      · split at later
        · split at later
          · cases later
          next longer appended =>
            split at later
            · rcases appendTrailer_eq_ok appended with ⟨-, _, -, -, -, rfl⟩
              exact (List.prefix_append _ _).trans (ih later)
            · cases later
        · exact ih later

/-- Trailers that are read back as they were sent are lines within the limits. -/
theorem sendable_of_trailersFrom {trailers : Headers} {rest : Bytes} :
    ∀ {fields : Headers}, fields.length ≤ limits.maxHeaderCount →
      trailersFrom limits true fields (serializeHeaders trailers ++ crlf ++ rest) =
          some (fields ++ trailers, rest) →
        (∀ trailer ∈ trailers, trailer.Sendable) ∧
        (∀ trailer ∈ trailers,
          trailer.name.length + trailer.value.length + 4 ≤ limits.maxHeaderBytes) ∧
        fields.length + trailers.length ≤ limits.maxHeaderCount := by
  induction trailers with
  | nil =>
      intro fields few _
      exact ⟨by simp, by simp, few⟩
  | cons header later ih =>
      intro fields _ read
      have split : serializeHeaders (header :: later) ++ crlf ++ rest =
          headerLine header ++ (crlf ++ (serializeHeaders later ++ crlf ++ rest)) := by
        simp [serializeHeaders_cons]
      rw [split, trailersFrom_eq] at read
      rcases Option.bind_eq_some_iff.mp read with ⟨⟨_, _⟩, found, further⟩
      rcases line_eq_some found with ⟨_, first, fits, -, rfl, rfl⟩
      dsimp only at further
      split at further
      · simp at further
      · rw [if_pos rfl] at further
        split at further
        · cases further
        next longer appended =>
          split at further
          next room =>
            rcases appendTrailer_eq_ok appended with ⟨_, field, parted, name, value, rfl⟩
            have kept := isPrefix_of_trailersWithin limits true _ further
            rw [List.prefix_append_right_inj] at kept
            rcases List.cons_prefix_cons.mp kept with ⟨rfl, -⟩
            rcases Header.sendable_of_parted first parted name value with ⟨sendable, rfl⟩
            rw [← List.drop_drop, List.drop_left, List.append_cons fields field later] at further
            rcases ih room further with ⟨others, lines, total⟩
            rw [length_headerLine] at fits
            simp only [List.length_append, List.length_cons, List.length_nil] at total ⊢
            exact ⟨List.forall_mem_cons.mpr ⟨sendable, others⟩,
              List.forall_mem_cons.mpr ⟨by omega, lines⟩, by omega⟩
          · cases further

end Grammar

/-- No string is empty, and each one fits the buffer limit that the reader computes
for it, given the bytes before. -/
def Delimited (limits : Limits) : ℕ → List Bytes → Prop
  | _, [] => True
  | total, chunk :: later => chunk ≠ [] ∧ chunk.length + 2 ≤ chunkBufferLimit limits total ∧
      Delimited limits (total + chunk.length) later

/-- The strings are `std::string`s, and body, lines and trailers keep to the limits. -/
structure WithinLimits (limits : Limits) (bodySource : List Bytes) (trailers : Headers) :
    Prop where
  strings : ∀ chunk ∈ bodySource, chunk.length < 2 ^ 63
  body : bodySource.flatten.length ≤ limits.maxBodyBytes
  sizeLines : ∀ chunk ∈ bodySource,
    (Numeral.digits 16 chunk.length).length + 2 ≤ limits.maxHeaderBytes
  lastLine : 3 ≤ limits.maxHeaderBytes
  trailerLines : ∀ header ∈ trailers,
    header.name.length + header.value.length + 4 ≤ limits.maxHeaderBytes
  trailerCount : trailers.length ≤ limits.maxHeaderCount

/-- The bytes `write_chunked_body_stream` emits. -/
def emittedBytes (bodySource : List Bytes) (trailers : Headers) (deadline : Deadline) : Bytes :=
  (endState ((writeChunkedBodyStream bodySource trailers deadline).run {})).stream.written

/-- However what was emitted and the bytes `z` after it reach the reader, it returns
the strings joined and the trailers, and leaves `z`. -/
def RoundTrips (limits : Limits) (bodySource : List Bytes) (trailers : Headers) : Prop :=
  ∀ (z : Bytes) (ended : Bool) (writeDeadline readDeadline : Deadline) (conn : Conn),
    conn.Holds (emittedBytes bodySource trailers writeDeadline ++ z) ended →
      Returns ((readChunkedBodyStream limits .collect readDeadline true).run conn) trailers
        fun conn' => conn'.Holds z ended ∧ conn'.body = conn.body ++ bodySource.flatten

theorem emittedBytes_eq (bodySource : List Bytes) (trailers : Headers) (deadline : Deadline) :
    emittedBytes bodySource trailers deadline = chunkedBytes bodySource trailers := by
  have fresh : ({} : Conn).Writable := ⟨rfl, rfl⟩
  rw [emittedBytes, fresh.writeChunkedBodyStream_run]
  rfl

namespace Grammar

variable {limits : Limits} {trailers : Headers} {chunk : Bytes} {bodySource later : List Bytes}

theorem chunkedBytes_cons_append (chunk : Bytes) (later : List Bytes) (trailers : Headers)
    (z : Bytes) : chunkedBytes (chunk :: later) trailers ++ z =
      Numeral.digits 16 chunk.length ++ crlf ++
        (chunk ++ crlf ++ (chunkedBytes later trailers ++ z)) := by
  simp [chunkedBytes, chunkBytes]

theorem chunkedBytes_nil_append (trailers : Headers) (z : Bytes) :
    chunkedBytes [] trailers ++ z =
      Numeral.digits 16 0 ++ crlf ++ (serializeHeaders trailers ++ crlf ++ z) := by
  simp only [chunkedBytes, List.flatMap_nil, List.nil_append, List.append_assoc]
  rfl

theorem chunks_nil (trailers : Headers) (z : Bytes) :
    chunks (chunkedBytes [] trailers ++ z) = [] := by
  rw [chunkedBytes_nil_append, chunks_of_sizeLine (sizeLine_digits _ (by norm_num)), if_pos rfl]

theorem chunks_cons (trailers : Headers) (z : Bytes) (small : chunk.length < 2 ^ 63) :
    ∃ line, chunks (chunkedBytes (chunk :: later) trailers ++ z) = if chunk = [] then []
      else ⟨line, chunk.length⟩ :: chunks (chunkedBytes later trailers ++ z) := by
  rw [chunkedBytes_cons_append, chunks_of_sizeLine (sizeLine_digits _ (small.trans (by norm_num))),
    List.drop_left' (by simp [crlf])]
  simp only [List.length_eq_zero_iff]
  exact ⟨_, rfl⟩

theorem moderate_chunkedBytes (trailers : Headers) (z : Bytes)
    (strings : ∀ chunk ∈ bodySource, chunk.length < 2 ^ 63) :
    Moderate (chunks (chunkedBytes bodySource trailers ++ z)) := by
  induction bodySource with
  | nil => simp [chunks_nil, Moderate]
  | cons _ _ ih =>
      rcases List.forall_mem_cons.mp strings with ⟨small, others⟩
      rcases chunks_cons trailers z small with ⟨_, chunks⟩
      rw [chunks]
      split
      · simp [Moderate]
      · exact List.forall_mem_cons.mpr ⟨by dsimp only; omega, ih others⟩

/-- Strings that are delimited are read back one by one, and there is room for each of them. -/
theorem uncappedFrom_of_delimited (z : Bytes) (sendable : ∀ header ∈ trailers, header.Sendable) :
    ∀ total, total + bodySource.flatten.length ≤ limits.maxBodyBytes →
      WithinLimits limits bodySource trailers → Delimited limits total bodySource →
      uncappedFrom limits true total (chunkedBytes bodySource trailers ++ z) =
        some (bodySource.flatten, trailers, z) ∧
      Room limits 0 total (chunks (chunkedBytes bodySource trailers ++ z)) := by
  induction bodySource with
  | nil =>
      intro total _ within _
      have room := within.lastLine
      have fields := trailersFrom_serializeHeaders trailers z sendable within.trailerLines
        (by omega) [] (by simpa using within.trailerCount)
      have header : chunkHeader limits (Numeral.digits 16 0 ++ crlf ++
          (serializeHeaders trailers ++ crlf ++ z)) = some (0, _) :=
        chunkHeader_digits _ (by norm_num) room
      rw [chunks_nil, chunkedBytes_nil_append, uncappedFrom_eq, header, Option.bind_some,
        if_pos rfl, Grammar.trailers, fields]
      exact ⟨rfl, trivial⟩
  | cons chunk later ih =>
      intro total fits within delimited
      rcases delimited with ⟨nonempty, capped, delimited⟩
      rw [List.flatten_cons, List.length_append] at fits
      have small := within.strings chunk (by simp)
      have limit := limits.maxBodyBytes_lt
      have sum : sizeAdd total chunk.length = total + chunk.length := sizeAdd_of_lt (by omega)
      have passes : ChunkPasses limits total chunk.length
          (chunk ++ crlf ++ (chunkedBytes later trailers ++ z)) := by
        refine ⟨by omega, ?_⟩
        simp [crlf]
      have others : WithinLimits limits later trailers :=
        { within with
          strings := fun other mem => within.strings other (by simp [mem])
          body := by omega
          sizeLines := fun other mem => within.sizeLines other (by simp [mem]) }
      rcases ih (total + chunk.length) (by omega) others delimited with ⟨read, room⟩
      constructor
      · rw [chunkedBytes_cons_append, uncappedFrom_eq, chunkHeader_digits _ (by omega)
          (within.sizeLines chunk (by simp)), Option.bind_some, if_neg (by simpa using nonempty),
          if_pos passes, sum, List.drop_left' (by simp [crlf]), read]
        simp
      · rcases chunks_cons trailers z small with ⟨_, chunks⟩
        rw [chunks, if_neg nonempty]
        refine ⟨.inr capped, ?_⟩
        rw [sum, Nat.zero_sub, Nat.zero_sub]
        exact room

theorem trailers_crlf_append (wanted : Bool) (rest : Bytes) (room : 2 ≤ limits.maxHeaderBytes) :
    Grammar.trailers limits wanted (crlf ++ rest) = some ([], rest) := by
  have ended : line limits.maxHeaderBytes ([] ++ crlf ++ rest) = some ([], rest) :=
    line_append rest (not_crlf_infix_of_notMem List.not_mem_nil) (by simpa using room)
  rw [List.nil_append] at ended
  rw [Grammar.trailers, trailersFrom_eq, ended]
  rfl

/-- An empty string would be taken for the end of the body, with the rest left unread. -/
theorem delimited_of_uncappedFrom {content z : Bytes} {fields : Headers}
    (strings : ∀ chunk ∈ bodySource, chunk.length < 2 ^ 63) :
    ∀ {total : ℕ}, total ≤ limits.maxBodyBytes → total + bodySource.flatten.length < 2 ^ 64 →
      uncappedFrom limits true total (chunkedBytes bodySource trailers ++ z) =
        some (content, fields, z) →
      Room limits 0 total (chunks (chunkedBytes bodySource trailers ++ z)) →
      Delimited limits total bodySource ∧ total + bodySource.flatten.length ≤ limits.maxBodyBytes ∧
        (∀ chunk ∈ bodySource,
          (Numeral.digits 16 chunk.length).length + 2 ≤ limits.maxHeaderBytes) ∧
        trailersFrom limits true [] (serializeHeaders trailers ++ crlf ++ z) =
          some (fields, z) := by
  induction bodySource generalizing content with
  | nil =>
      intro _ progress _ read _
      rw [chunkedBytes_nil_append, uncappedFrom_eq] at read
      rcases Option.bind_eq_some_iff.mp read with ⟨⟨_, _⟩, header, closing⟩
      rcases chunkHeader_digits_eq_some (by norm_num) header with ⟨-, rfl, rfl⟩
      rw [if_pos rfl] at closing
      rcases Option.map_eq_some_iff.mp closing with ⟨⟨_, _⟩, closed, same⟩
      cases same
      exact ⟨trivial, by simpa using progress, by simp, closed⟩
  | cons chunk later ih =>
      intro total _ sum read room
      rcases List.forall_mem_cons.mp strings with ⟨small, others⟩
      rw [List.flatten_cons, List.length_append] at sum ⊢
      rcases chunks_cons trailers z small with ⟨_, chunks⟩
      rw [chunks] at room
      rw [chunkedBytes_cons_append, uncappedFrom_eq] at read
      rcases Option.bind_eq_some_iff.mp read with ⟨⟨_, _⟩, header, later'⟩
      rcases chunkHeader_digits_eq_some (by omega) header with ⟨sizeLine, rfl, rfl⟩
      dsimp only at later'
      by_cases empty : chunk = []
      · subst empty
        rw [List.length_nil, if_pos rfl, List.nil_append, trailers_crlf_append true _ (by omega),
          Option.map_some] at later'
        simp only [Option.some.injEq, Prod.mk.injEq, List.append_left_eq_self] at later'
        exact absurd later'.2.2 (by simp [chunkedBytes, crlf])
      · rw [if_neg (by simpa using empty)] at later'
        rw [if_neg empty] at room
        split at later'
        next passes =>
          have total_le := passes.1
          have plain : sizeAdd total chunk.length = total + chunk.length := sizeAdd_of_lt (by omega)
          rcases room with ⟨here, behind⟩
          rw [plain] at total_le later' behind
          rcases Option.map_eq_some_iff.mp later' with ⟨⟨_, _, _⟩, more, same⟩
          cases same
          rw [List.drop_left' (by simp [crlf])] at more
          rw [Nat.zero_sub, Nat.zero_sub] at behind
          dsimp only at here
          rcases ih others total_le (by omega) more behind with ⟨delimited, fits, lines, closing⟩
          exact ⟨⟨empty, by omega, delimited⟩, by omega,
            List.forall_mem_cons.mpr ⟨sizeLine, lines⟩, closing⟩
        · cases later'

end Grammar

variable {limits : Limits} {conn : Conn} {trailers : Headers}

theorem Conn.Holds.unread_eq {unread unread' : Bytes} {ended ended' : Bool}
    (holds : conn.Holds unread ended) (holds' : conn.Holds unread' ended') : unread = unread' := by
  rcases holds.clean with ⟨_, clean, rfl⟩
  rcases holds'.clean with ⟨_, clean', rfl⟩
  rw [clean] at clean'
  cases clean'
  rfl

section Trips

variable {bodySource : List Bytes} (within : WithinLimits limits bodySource trailers)
include within

theorem roundTrips_of_delimited (sendable : ∀ header ∈ trailers, header.Sendable)
    (delimited : Delimited limits 0 bodySource) : RoundTrips limits bodySource trailers := by
  intro z _ _ readDeadline _ holds
  rw [emittedBytes_eq] at holds
  rcases Grammar.uncappedFrom_of_delimited z sendable 0 (by simpa using within.body) within
    delimited with ⟨read, room⟩
  rcases readChunkedBodyStream_of_room readDeadline BodySink.additive_collect holds
    (Grammar.moderate_chunkedBytes trailers z within.strings) read
    (Grammar.Room.mono (Nat.zero_le _) room) with ⟨conn', ran, after, -⟩
  exact ⟨conn', ran, after.holds, after.body_eq⟩

/-- If the network delivers single bytes, no string is in the buffer when its turn comes. -/
theorem delimited_of_roundTrips (trips : RoundTrips limits bodySource trailers) :
    Delimited limits 0 bodySource := by
  rcases Conn.exists_trickles (chunkedBytes bodySource trailers ++ []) with
    ⟨conn, holds, trickles, empty⟩
  have sent := holds
  rw [← emittedBytes_eq bodySource trailers ⟨none, 504, "request write timeout"⟩] at sent
  rcases trips [] true _ ⟨none, 408, "request body read timeout"⟩ conn sent with ⟨_, ran, left, -⟩
  rcases readChunkedBodyStream_eq_ok BodySink.additive_collect holds (by omega)
    (Grammar.moderate_chunkedBytes trailers [] within.strings) ran with ⟨_, _, read, after, -, room⟩
  rw [after.holds.unread_eq left] at read
  rw [empty] at room
  have total := within.body
  have limit := limits.maxBodyBytes_lt
  exact (Grammar.delimited_of_uncappedFrom within.strings (Nat.zero_le _) (by omega) read
    (room trickles)).1

end Trips

/-- Chunked bodies survive the round trip exactly if no string is empty and none
exceeds the limit the reader computes for its buffer. -/
theorem roundTrips_iff_delimited (limits : Limits) (bodySource : List Bytes) (trailers : Headers)
    (within : WithinLimits limits bodySource trailers)
    (transmissible : ∀ header ∈ trailers, header.Transmissible) :
    RoundTrips limits bodySource trailers ↔ Delimited limits 0 bodySource := by
  constructor
  · exact delimited_of_roundTrips within
  · exact roundTrips_of_delimited within fun header mem => (transmissible header mem).sendable

def checksumTrailer : Header := ⟨ascii "X-Checksum", ascii "1f"⟩

theorem roundTrips_two_chunks_iff :
    WithinLimits {} [ascii "ab", ascii "cde"] [checksumTrailer] ∧
      (RoundTrips {} [ascii "ab", ascii "cde"] [checksumTrailer] ↔
        Delimited {} 0 [ascii "ab", ascii "cde"]) := by
  have within : WithinLimits {} [ascii "ab", ascii "cde"] [checksumTrailer] :=
    ⟨by decide, by decide, by decide, by decide, by decide, by decide⟩
  refine ⟨within, roundTrips_iff_delimited {} _ _ within ?_⟩
  intro _ mem
  rw [List.mem_singleton.mp mem]
  exact ⟨by decide, by decide, by decide, by decide, by decide⟩

/-- A message with `chunked` set and an empty body: its only string is written as the
last chunk, and the last chunk written after it is left for the next message. -/
theorem empty_chunk_left_unread :
    emittedBytes [[]] [] ⟨none, 504, "request write timeout"⟩ =
        ascii "0\r\n\r\n" ++ ascii "0\r\n\r\n" ∧
      (endState ((readChunkedBodyStream {} .collect ⟨none, 408, "request body read timeout"⟩
          true).run { stream := { arrivals :=
            [.data (ascii "0\r\n\r\n" ++ ascii "0\r\n\r\n")] } })).buffer.view =
        ascii "0\r\n\r\n" ∧
      WithinLimits {} [[]] [] ∧ ¬RoundTrips {} [[]] [] := by
  have within : WithinLimits {} [[]] [] :=
    ⟨by decide, by decide, by decide, by decide, by decide, by decide⟩
  refine ⟨by decide +kernel, by decide +kernel, within, ?_⟩
  intro trips
  exact (delimited_of_roundTrips within trips).1 rfl

end Corouv.Http
