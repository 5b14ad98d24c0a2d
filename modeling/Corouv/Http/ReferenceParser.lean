import Corouv.Http.SentHead

/-!
# A parser of response heads

A small parser that keeps every promise the model asks of `phr_parse_response`, so
that the assumptions about picohttpparser are known to be consistent and concrete
connections can be run.
-/

namespace Corouv.Http

open Library

namespace Reference

/-- The text before the first line end and what follows it. -/
def headLine (input : Bytes) : Option (Bytes × Bytes) :=
  (find crlf input).map fun position => (input.take position, input.drop (position + 2))

def headField (line : Bytes) : Option RawHeader :=
  (find (ascii ":") line).bind fun colon =>
    if colon = 0 then none
    else some ⟨some (line.take colon), trimCopy (line.drop (colon + 1))⟩

/-- The fields up to the empty line, at most as many as there are slots. -/
def headFields : ℕ → Bytes → Option (List RawHeader × Bytes)
  | 0, input => (headLine input).bind fun read => if read.1 = [] then some ([], read.2) else none
  | slots + 1, input =>
      (headLine input).bind fun read =>
        if read.1 = [] then some ([], read.2)
        else
          (headField read.1).bind fun field =>
            (headFields slots read.2).map fun later => (field :: later.1, later.2)

def version : Bytes := ascii "HTTP/1."

def statusLine (line : Bytes) : Option (ℕ × ℕ × Bytes) :=
  (Numeral.fromChars 10 10 (line.drop 7)).bind fun minor =>
    (Numeral.fromChars 10 1000 (minor.2.drop 1)).map fun status =>
      (minor.1, status.1, trimCopy status.2)

def responseHead (maxHeaders : ℕ) (view : Bytes) : Option (ResponseHead × Bytes) :=
  (headLine view).bind fun first =>
    (statusLine first.1).bind fun status =>
      (headFields maxHeaders first.2).map fun fields =>
        (⟨status.1, status.2.1, status.2.2, fields.1⟩, fields.2)

/-- Text that does not start with the protocol version is malformed at once. -/
def response (maxHeaders : ℕ) (view : Bytes) (_ : ℕ) : Parsed ResponseHead :=
  if version <+: view then
    match responseHead maxHeaders view with
    | some (head, rest) => .complete (view.length - rest.length) head
    | none => .incomplete
  else if view <+: version then .incomplete
  else .malformed

def parser : HeadParser :=
  ⟨fun _ _ _ => .malformed, response⟩

@[simp]
theorem parser_response : parser.response = response :=
  rfl

variable {rest line view : Bytes} {maxHeaders : ℕ}

theorem headLine_append {input : Bytes} (more : Bytes) (read : headLine input = some (line, rest)) :
    headLine (input ++ more) = some (line, rest ++ more) := by
  rcases Option.map_eq_some_iff.mp read with ⟨position, found, same⟩
  cases same
  have inside := find_add_length_le found
  have further : find crlf (input ++ more) = some position := by
    apply (find_take_eq_some_iff (by simp [crlf])).mp _ |>.1
    · exact input.length
    · simpa using found
  have two : crlf.length = 2 := rfl
  rw [headLine, further, Option.map_some, List.take_append_of_le_length (by omega),
    List.drop_append_of_le_length (by omega)]

theorem length_rest_of_headLine {input : Bytes} (read : headLine input = some (line, rest)) :
    rest.length < input.length := by
  rcases Option.map_eq_some_iff.mp read with ⟨_, found, same⟩
  cases same
  have inside := find_add_length_le found
  have two : crlf.length = 2 := rfl
  simp only [List.length_drop]
  omega

theorem headFields_append (more : Bytes) (slots : ℕ) :
    ∀ {input : Bytes} {fields : List RawHeader} {rest : Bytes},
      headFields slots input = some (fields, rest) →
        headFields slots (input ++ more) = some (fields, rest ++ more) ∧
          rest.length < input.length := by
  induction slots with
  | zero =>
      intro _ _ _ read
      rcases Option.bind_eq_some_iff.mp read with ⟨⟨_, _⟩, first, last⟩
      have shorter := length_rest_of_headLine first
      rw [headFields, headLine_append more first, Option.bind_some]
      split at last
      next empty =>
        cases last
        exact ⟨if_pos empty, shorter⟩
      · cases last
  | succ _ ih =>
      intro _ _ _ read
      rcases Option.bind_eq_some_iff.mp read with ⟨⟨_, _⟩, first, last⟩
      have shorter := length_rest_of_headLine first
      rw [headFields, headLine_append more first, Option.bind_some]
      dsimp only at last ⊢
      split at last
      next empty =>
        cases last
        exact ⟨if_pos empty, shorter⟩
      next nonempty =>
        rcases Option.bind_eq_some_iff.mp last with ⟨_, parsed, others⟩
        rcases Option.map_eq_some_iff.mp others with ⟨⟨_, _⟩, read', same⟩
        cases same
        rcases ih read' with ⟨same, shorter'⟩
        dsimp only at same shorter' ⊢
        refine ⟨?_, by omega⟩
        rw [if_neg nonempty, parsed, Option.bind_some, same, Option.map_some]

/-- A head of any kind: a first line, and the fields. -/
def startAndFields {start head : Type} (startLine : Bytes → Option start)
    (build : start → List RawHeader → head) (maxHeaders : ℕ) (view : Bytes) :
    Option (head × Bytes) :=
  (headLine view).bind fun first =>
    (startLine first.1).bind fun start =>
      (headFields maxHeaders first.2).map fun fields => (build start fields.1, fields.2)

theorem startAndFields_append {start head : Type} {startLine : Bytes → Option start}
    {build : start → List RawHeader → head} {found : head} (more : Bytes)
    (read : startAndFields startLine build maxHeaders view = some (found, rest)) :
    startAndFields startLine build maxHeaders (view ++ more) = some (found, rest ++ more) ∧
      rest.length < view.length := by
  rcases Option.bind_eq_some_iff.mp read with ⟨⟨_, _⟩, first, later⟩
  rcases Option.bind_eq_some_iff.mp later with ⟨_, parsed, last⟩
  rcases Option.map_eq_some_iff.mp last with ⟨⟨_, _⟩, others, same⟩
  cases same
  rcases headFields_append more maxHeaders others with ⟨same, shorter⟩
  have less := length_rest_of_headLine first
  dsimp only at same shorter ⊢
  refine ⟨?_, by omega⟩
  rw [startAndFields, headLine_append more first, Option.bind_some, parsed, Option.bind_some, same,
    Option.map_some]

theorem responseHead_eq : responseHead = startAndFields statusLine
    fun status fields => ⟨status.1, status.2.1, status.2.2, fields⟩ :=
  rfl

theorem responseHead_append {head : ResponseHead} (more : Bytes)
    (read : responseHead maxHeaders view = some (head, rest)) :
    responseHead maxHeaders (view ++ more) = some (head, rest ++ more) ∧
      rest.length < view.length := by
  rw [responseHead_eq] at read ⊢
  exact startAndFields_append more read

theorem response_eq_complete {lastLen length : ℕ} {head : ResponseHead} :
    response maxHeaders view lastLen = .complete length head ↔
      version <+: view ∧ ∃ rest, responseHead maxHeaders view = some (head, rest) ∧
        length = view.length - rest.length := by
  simp only [response]
  split
  next starts =>
    split
    next head' rest read => simp [starts, read, eq_comm, and_comm]
    next unread => simp [unread]
  next other =>
    split
    · simp [other]
    · simp [other]

/-- More bytes do not change a response head that was already found or refused. -/
theorem prefixStable_response (maxHeaders : ℕ) : PrefixStable (response maxHeaders) := by
  constructor
  · intro view _ _ _ complete
    rcases response_eq_complete.mp complete with ⟨-, rest, read, rfl⟩
    have shorter := (responseHead_append [] read).2
    omega
  · intro view _ _ complete more
    rcases response_eq_complete.mp complete with ⟨starts, rest, read, rfl⟩
    apply response_eq_complete.mpr
    refine ⟨starts.trans (List.prefix_append view more), rest ++ more,
      (responseHead_append more read).1, ?_⟩
    simp only [List.length_append]
    omega
  · intro view _ _ _ _
    exact response_eq_complete.trans response_eq_complete.symm
  · intro view _ _ malformed more _ _ complete
    rcases response_eq_complete.mp complete with ⟨starts, -⟩
    simp only [response] at malformed
    split at malformed
    · split at malformed
      · cases malformed
      · cases malformed
    next other =>
      split at malformed
      · cases malformed
      next different =>
        rcases List.prefix_or_prefix_of_prefix starts (List.prefix_append view more) with
          here | ahead
        · exact other here
        · exact different ahead

theorem headLine_of_notMem (rest : Bytes) (plain : 13 ∉ line) :
    headLine (line ++ crlf ++ rest) = some (line, rest) := by
  have found : find crlf (line ++ crlf ++ rest) = some line.length := find_append_of_notMem plain
  rw [headLine, found]
  simp [crlf, List.drop_append]

theorem headField_of_onLine {header : Header} (onLine : header.OnLine) :
    headField (header.name ++ ascii ": " ++ header.value) =
      some ⟨some header.name, trimCopy header.value⟩ := by
  have noColon : 58 ∉ header.name := by
    intro mem
    exact absurd (onLine.name 58 mem) (by decide)
  have named : header.name.length ≠ 0 := fun zero =>
    onLine.name_ne (List.length_eq_zero_iff.mp zero)
  rcases find_colon header.value noColon with ⟨found, name, value⟩
  rw [headField, found, Option.bind_some, if_neg named, name, value]

/-- Serialized fields are taken apart again, with the blanks around the values dropped. -/
theorem headFields_of_onLine (headers : Headers) (rest : Bytes) :
    ∀ slots : ℕ, headers.length ≤ slots → (∀ header ∈ headers, header.OnLine) →
      headFields slots (serializeHeaders headers ++ crlf ++ rest) =
        some (headers.map fun header => ⟨some header.name, trimCopy header.value⟩, rest) := by
  induction headers with
  | nil =>
      intro slots _ _
      have ended : headLine (serializeHeaders [] ++ crlf ++ rest) = some ([], rest) :=
        headLine_of_notMem rest List.not_mem_nil
      cases slots with
      | zero | succ slots =>
          rw [headFields, ended]
          rfl
  | cons header later ih =>
      intro slots few onLine
      have here := onLine header (by simp)
      have noReturn : 13 ∉ header.name ++ ascii ": " ++ header.value := by
        simp only [List.mem_append, not_or]
        refine ⟨⟨fun mem => ?_, by decide⟩, here.value⟩
        exact absurd (here.name 13 mem) (by decide)
      have split : serializeHeaders (header :: later) ++ crlf ++ rest =
          header.name ++ ascii ": " ++ header.value ++ crlf ++
            (serializeHeaders later ++ crlf ++ rest) := by
        simp [serializeHeaders, List.append_assoc]
      cases slots with
      | zero => simp at few
      | succ slots =>
          rw [headFields, split, headLine_of_notMem _ noReturn, Option.bind_some,
            if_neg (by simp [ascii]), headField_of_onLine here, Option.bind_some,
            ih slots (by simpa using few) (fun other mem => onLine other (by simp [mem]))]
          rfl

theorem map_trimCopy_of_plain {headers : Headers} (plain : ∀ header ∈ headers, header.Plain) :
    (headers.map fun header => (⟨some header.name, trimCopy header.value⟩ : RawHeader)) =
      headers.map fun header => ⟨some header.name, header.value⟩ := by
  apply List.map_congr_left
  intro header mem
  rw [(plain header mem).value.trimmed]

theorem trimCopy_spaced {text : Bytes} (trimmed : trimCopy text = text) :
    trimCopy (ascii " " ++ text) = text :=
  (trimCopy_space text).trans trimmed

theorem statusLine_sent {minor status : ℕ} {reason : Bytes} (oneDigit : minor < 10)
    (threeDigits : status < 1000) (trimmed : trimCopy reason = reason) :
    statusLine (version ++ Numeral.digits 10 minor ++ ascii " " ++ Numeral.digits 10 status ++
      ascii " " ++ reason) = some (minor, status, reason) := by
  have behind : (version ++ Numeral.digits 10 minor ++ ascii " " ++ Numeral.digits 10 status ++
      ascii " " ++ reason).drop 7 = Numeral.digits 10 minor ++ (ascii " " ++
        (Numeral.digits 10 status ++ (ascii " " ++ reason))) := by
    simp only [List.append_assoc]
    rfl
  have first : Numeral.fromChars 10 10 (Numeral.digits 10 minor ++ (ascii " " ++
      (Numeral.digits 10 status ++ (ascii " " ++ reason)))) =
        some (minor, ascii " " ++ (Numeral.digits 10 status ++ (ascii " " ++ reason))) :=
    Numeral.fromChars_digits_append (by norm_num) (by norm_num) oneDigit (by simp [ascii]; decide)
  have second : Numeral.fromChars 10 1000 (Numeral.digits 10 status ++ (ascii " " ++ reason)) =
      some (status, ascii " " ++ reason) :=
    Numeral.fromChars_digits_append (by norm_num) (by norm_num) threeDigits
      (by simp [ascii]; decide)
  have next : (ascii " " ++ (Numeral.digits 10 status ++ (ascii " " ++ reason))).drop 1 =
      Numeral.digits 10 status ++ (ascii " " ++ reason) := rfl
  rw [statusLine, behind, first, Option.bind_some, next, second, Option.map_some,
    trimCopy_spaced trimmed]

/-- A text that is its own trimmed form. -/
def IsReason (text : Bytes) : Prop :=
  (∀ byte ∈ text, isTextByte byte = true) ∧ trimCopy text = text

instance (text : Bytes) : Decidable (IsReason text) :=
  inferInstanceAs (Decidable (_ ∧ _))

theorem isReason_ite {condition : Prop} [Decidable condition] {text other : String}
    (first : IsReason (ascii text)) (second : IsReason (ascii other)) :
    IsReason (ascii (if condition then text else other)) := by
  split
  · exact first
  · exact second

theorem isReason_reasonPhrase (status : ℤ) : IsReason (reasonPhrase status) := by
  simp only [reasonPhrase]
  repeat apply isReason_ite (by decide +kernel)
  decide +kernel

theorem isReason_sentReason {sent : Response} (wellFormed : sent.WellFormed) :
    IsReason sent.sentReason := by
  simp only [Response.sentReason]
  split
  · exact isReason_reasonPhrase _
  · exact ⟨wellFormed.reason, wellFormed.reason_trimmed⟩

/-- The assumptions about `phr_parse_response` can be met. -/
theorem contract (limits : Limits) : ResponseContract parser limits := by
  refine ⟨prefixStable_response _, ?_, ?_⟩
  · intro _ _ _ _ complete
    rw [parser_response] at complete
    exact (response_eq_complete.mp complete).1
  · intro sent wellFormed few
    rcases wellFormed.status with ⟨_, _⟩
    have minor : 0 ≤ sent.versionMinor ∧ sent.versionMinor < 10 := by
      rcases wellFormed.version with _ | _
      · omega
      · omega
    have head_eq : sent.sentHead = version ++ Numeral.digits 10 sent.versionMinor.natAbs ++
        ascii " " ++ Numeral.digits 10 sent.status.natAbs ++ ascii " " ++ sent.sentReason ++ crlf ++
          (serializeHeaders sent.sentHeaders ++ crlf ++ []) := by
      simp only [Response.sentHead, responseHeadBytes, intToString_of_nonneg minor.1,
        intToString_of_nonneg (by omega : 0 ≤ sent.status), List.append_assoc, List.append_nil]
      rfl
    have plain : 13 ∉ version ++ Numeral.digits 10 sent.versionMinor.natAbs ++
        ascii " " ++ Numeral.digits 10 sent.status.natAbs ++ ascii " " ++ sent.sentReason := by
      simp only [List.mem_append, not_or]
      refine ⟨⟨⟨⟨⟨by decide, ?_⟩, by decide⟩, ?_⟩, by decide⟩, ?_⟩
      · exact Numeral.notMem_digits 10 _ (by norm_num) (by norm_num) (by decide)
      · exact Numeral.notMem_digits 10 _ (by norm_num) (by norm_num) (by decide)
      · intro mem
        exact absurd ((isReason_sentReason wellFormed).1 13 mem) (by decide)
    have fields : ∀ header ∈ sent.sentHeaders, header.Plain :=
      fun header mem => (wellFormed.sentHeaders header mem).plain
    have found : responseHead limits.maxHeaderCount sent.sentHead = some (sent.parsedHead, []) := by
      rw [head_eq, responseHead, headLine_of_notMem _ plain, Option.bind_some,
        statusLine_sent (by omega) (by omega) (isReason_sentReason wellFormed).2, Option.bind_some,
        headFields_of_onLine _ _ _ few (fun header mem => (fields header mem).onLine),
        map_trimCopy_of_plain fields, Option.map_some]
      simp only [Response.parsedHead]
      rw [Int.natAbs_of_nonneg minor.1, Int.natAbs_of_nonneg (by omega : 0 ≤ sent.status)]
    have begins : version <+: sent.sentHead := by
      rw [head_eq]
      exact List.prefix_append _ _
    rw [parser_response]
    exact response_eq_complete.mpr ⟨begins, [], found, by simp⟩

end Reference

end Corouv.Http
