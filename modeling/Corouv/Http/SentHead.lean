import Mathlib.Data.FinEnum
import Corouv.Http.ResponseCorrect

/-!
# The head of an outgoing response

The fields `write_response` sends, what picohttpparser is assumed to make of them,
and the response the reader announces from the result.
-/

namespace Corouv.Http

open Library Io

/-- Characters of a field name. -/
def isTokenByte (byte : UInt8) : Bool :=
  (48 ≤ byte && byte ≤ 57) || (65 ≤ byte && byte ≤ 90) || (97 ≤ byte && byte ≤ 122) ||
    (ascii "!#$%&'*+-.^_|~").contains byte || byte == 96

/-- Characters of a reason phrase or a field value. -/
def isTextByte (byte : UInt8) : Bool :=
  byte == 9 || (32 ≤ byte && byte != 127)

structure Header.WellFormed (header : Header) : Prop where
  name_ne : header.name ≠ []
  name : ∀ byte ∈ header.name, isTokenByte byte = true
  value : ∀ byte ∈ header.value, isTextByte byte = true
  trimmed : trimCopy header.value = header.value

/-- A field value that ends where its line does. -/
@[mk_iff]
structure IsPlainValue (value : Bytes) : Prop where
  noReturn : 13 ∉ value
  noFeed : 10 ∉ value
  trimmed : trimCopy value = value

@[mk_iff]
structure Header.Plain (header : Header) : Prop where
  name_ne : header.name ≠ []
  name : ∀ byte ∈ header.name, isTokenByte byte = true
  value : IsPlainValue header.value

instance (value : Bytes) : Decidable (IsPlainValue value) :=
  decidable_of_iff _ (isPlainValue_iff value).symm

instance (header : Header) : Decidable header.Plain :=
  decidable_of_iff _ (Header.plain_iff header).symm

/-- A field that stands on a line of its own. -/
structure Header.OnLine (header : Header) : Prop where
  name_ne : header.name ≠ []
  name : ∀ byte ∈ header.name, isTokenByte byte = true
  value : 13 ∉ header.value

variable {header : Header} {name : Bytes}

theorem Header.Plain.onLine (plain : header.Plain) : header.OnLine :=
  ⟨plain.name_ne, plain.name, plain.value.noReturn⟩

theorem Header.WellFormed.plain (wellFormed : header.WellFormed) : header.Plain := by
  refine ⟨wellFormed.name_ne, wellFormed.name, ?_, ?_, wellFormed.trimmed⟩
  · intro mem
    exact absurd (wellFormed.value 13 mem) (by decide)
  · intro mem
    exact absurd (wellFormed.value 10 mem) (by decide)

structure Response.WellFormed (response : Response) : Prop where
  status : 100 ≤ response.status ∧ response.status ≤ 999
  version : response.versionMinor = 0 ∨ response.versionMinor = 1
  reason : ∀ byte ∈ response.reason, isTextByte byte = true
  reason_trimmed : trimCopy response.reason = response.reason
  headers : ∀ header ∈ response.headers, header.WellFormed

/-- The fields `write_response` sends with a response that is not chunked. -/
def Response.sentHeaders (response : Response) : Headers :=
  prepareOutgoingHeaders response.headers response.keepAlive false response.body.length

def Response.sentReason (response : Response) : Bytes :=
  if response.reason = [] then reasonPhrase response.status else response.reason

def Response.sentHead (response : Response) : Bytes :=
  responseHeadBytes response response.sentHeaders

/-- The head as picohttpparser is to report it. -/
def Response.parsedHead (response : Response) : ResponseHead :=
  ⟨response.versionMinor, response.status, response.sentReason,
    response.sentHeaders.map fun header => ⟨some header.name, header.value⟩⟩

/-- What is assumed of `phr_parse_response`: it is stable, a head starts with the
protocol version, and the head of a well-formed response is parsed back. -/
structure ResponseContract (parser : HeadParser) (limits : Limits) : Prop where
  stable : PrefixStable (parser.response limits.maxHeaderCount)
  version : ∀ {view lastLen length head},
    parser.response limits.maxHeaderCount view lastLen = .complete length head →
      ascii "HTTP/1." <+: view
  parsesBack : ∀ response : Response, response.WellFormed →
    response.sentHeaders.length ≤ limits.maxHeaderCount →
      parser.response limits.maxHeaderCount response.sentHead 0 =
        .complete response.sentHead.length response.parsedHead

structure Response.FitsLimits (response : Response) (limits : Limits) : Prop where
  head : response.sentHead.length ≤ limits.maxHeaderBytes
  count : response.sentHeaders.length ≤ limits.maxHeaderCount
  body : response.body.length ≤ limits.maxBodyBytes

variable {headers : Headers} {keepAlive : Bool} {bodySize : ℕ} {other : Bytes}

theorem mem_setHeader {value : Bytes} (mem : header ∈ setHeader headers name value) :
    header ∈ headers ∨ header = ⟨name, value⟩ := by
  simp only [setHeader, eraseHeader, List.mem_append, List.mem_filter, List.mem_singleton] at mem
  rcases mem with ⟨kept, -⟩ | new
  · exact .inl kept
  · exact .inr new

theorem isTextByte_of_mem_digits {byte : UInt8} {number : ℕ}
    (mem : byte ∈ Numeral.digits 10 number) : isTextByte byte = true := by
  rcases Numeral.mem_digitsOnto (by norm_num) mem with nothing | ⟨digit, _, rfl⟩
  · exact absurd nothing (by simp)
  · interval_cases digit <;> rfl

/-- The fields a writer adds to those it is given. -/
inductive AddedField (keepAlive : Bool) (bodySize : ℕ) : Header → Prop
  | connection : AddedField keepAlive bodySize
      ⟨ascii "Connection", if keepAlive then ascii "keep-alive" else ascii "close"⟩
  | transferEncoding : AddedField keepAlive bodySize ⟨ascii "Transfer-Encoding", ascii "chunked"⟩
  | contentLength : AddedField keepAlive bodySize
      ⟨ascii "Content-Length", Numeral.digits 10 bodySize⟩

theorem mem_prepareOutgoingHeaders {chunked : Bool}
    (mem : header ∈ prepareOutgoingHeaders headers keepAlive chunked bodySize) :
    header ∈ headers ∨ AddedField keepAlive bodySize header := by
  have persistent : ∀ header ∈ setHeader (eraseHeader (eraseHeader (eraseHeader headers
      (ascii "Connection")) (ascii "Content-Length")) (ascii "Transfer-Encoding"))
      (ascii "Connection") (if keepAlive then ascii "keep-alive" else ascii "close"),
      header ∈ headers ∨ AddedField keepAlive bodySize header := by
    intro header mem
    rcases mem_setHeader mem with given | rfl
    · simp only [eraseHeader, List.mem_filter] at given
      exact .inl given.1.1.1
    · exact .inr .connection
  simp only [prepareOutgoingHeaders] at mem
  split at mem
  · rcases mem_setHeader mem with older | rfl
    · exact persistent header older
    · exact .inr .transferEncoding
  · rcases mem_setHeader mem with older | rfl
    · exact persistent header older
    · exact .inr .contentLength

theorem AddedField.wellFormed (added : AddedField keepAlive bodySize header) :
    header.WellFormed := by
  cases added with
  | connection =>
      cases keepAlive with
      | true | false => exact ⟨by decide, by decide +kernel, by decide +kernel, by decide +kernel⟩
  | transferEncoding => exact ⟨by decide, by decide +kernel, by decide +kernel, by decide +kernel⟩
  | contentLength =>
      refine ⟨?_, ?_, fun byte => isTextByte_of_mem_digits, ?_⟩
      · show ascii "Content-Length" ≠ []
        decide
      · show ∀ byte ∈ ascii "Content-Length", isTokenByte byte = true
        decide +kernel
      · exact trimCopy_digits 10 bodySize (by norm_num) (by norm_num)

theorem Response.WellFormed.sentHeaders {response : Response} (wellFormed : response.WellFormed) :
    ∀ header ∈ response.sentHeaders, header.WellFormed := by
  intro header mem
  rcases mem_prepareOutgoingHeaders mem with given | added
  · exact wellFormed.headers header given
  · exact added.wellFormed

theorem fieldsNamed_eraseHeader_self (headers : Headers) (name : Bytes) :
    fieldsNamed name (eraseHeader headers name) = [] := by
  simp [fieldsNamed, eraseHeader, List.filter_filter]

theorem fieldsNamed_eraseHeader (headers : Headers) (different : iequals name other = false) :
    fieldsNamed other (eraseHeader headers name) = fieldsNamed other headers := by
  simp only [fieldsNamed, eraseHeader, List.filter_filter]
  apply List.filter_congr
  intro header _
  cases named : iequals header.name other with
  | false => rfl
  | true =>
      cases erased : iequals header.name name with
      | false => rfl
      | true =>
          rw [iequals_trans erased named] at different
          cases different

theorem fieldsNamed_setHeader (headers : Headers) (value : Bytes)
    (different : iequals name other = false) :
    fieldsNamed other (setHeader headers name value) = fieldsNamed other headers := by
  have erased := fieldsNamed_eraseHeader headers different
  simp only [fieldsNamed] at erased
  simp [fieldsNamed, setHeader, List.filter_append, erased, different]

theorem fieldsNamed_setHeader_self (headers : Headers) (name value : Bytes) :
    fieldsNamed name (setHeader headers name value) = [⟨name, value⟩] := by
  have erased := fieldsNamed_eraseHeader_self headers name
  simp only [fieldsNamed] at erased
  simp [fieldsNamed, setHeader, List.filter_append, erased, iequals_refl]

section Prepared

variable (headers : Headers) (keepAlive chunked : Bool) (bodySize : ℕ)

theorem fieldsNamed_prepareOutgoingHeaders {name : Bytes}
    (connection : iequals (ascii "Connection") name = false)
    (contentLength : iequals (ascii "Content-Length") name = false)
    (transferEncoding : iequals (ascii "Transfer-Encoding") name = false) :
    fieldsNamed name (prepareOutgoingHeaders headers keepAlive chunked bodySize) =
      fieldsNamed name headers := by
  have erased : fieldsNamed name (eraseHeader (eraseHeader (eraseHeader headers
      (ascii "Connection")) (ascii "Content-Length")) (ascii "Transfer-Encoding")) =
      fieldsNamed name headers := by
    rw [fieldsNamed_eraseHeader _ transferEncoding, fieldsNamed_eraseHeader _ contentLength,
      fieldsNamed_eraseHeader _ connection]
  simp only [prepareOutgoingHeaders]
  split
  · rw [fieldsNamed_setHeader _ _ transferEncoding, fieldsNamed_setHeader _ _ connection, erased]
  · rw [fieldsNamed_setHeader _ _ contentLength, fieldsNamed_setHeader _ _ connection, erased]

theorem fieldsNamed_connection_prepared :
    fieldsNamed (ascii "Connection") (prepareOutgoingHeaders headers keepAlive chunked bodySize) =
      [⟨ascii "Connection", if keepAlive then ascii "keep-alive" else ascii "close"⟩] := by
  simp only [prepareOutgoingHeaders]
  split
  · rw [fieldsNamed_setHeader _ _ (by decide)]
    exact fieldsNamed_setHeader_self _ _ _
  · rw [fieldsNamed_setHeader _ _ (by decide)]
    exact fieldsNamed_setHeader_self _ _ _

theorem headerContainsToken_eq (name token : Bytes) :
    headerContainsToken headers name token = (fieldsNamed name headers).any fun header =>
      (commaParts header.value).any fun part => iequals (trimCopy part) token := by
  rw [headerContainsToken, fieldsNamed, List.any_filter]

theorem shouldKeepAlive_prepared (versionMinor : ℤ) :
    shouldKeepAlive (prepareOutgoingHeaders headers keepAlive chunked bodySize) versionMinor =
      keepAlive := by
  simp only [shouldKeepAlive, headerContainsToken_eq, fieldsNamed_connection_prepared]
  cases keepAlive with
  | true =>
      have other : ([⟨ascii "Connection", ascii "keep-alive"⟩] : Headers).any (fun header =>
          (commaParts header.value).any fun part => iequals (trimCopy part) (ascii "close")) =
          false := by decide +kernel
      have same : ([⟨ascii "Connection", ascii "keep-alive"⟩] : Headers).any (fun header =>
          (commaParts header.value).any fun part => iequals (trimCopy part) (ascii "keep-alive")) =
          true := by decide +kernel
      simp [other, same]
  | false =>
      have same : ([⟨ascii "Connection", ascii "close"⟩] : Headers).any (fun header =>
          (commaParts header.value).any fun part => iequals (trimCopy part) (ascii "close")) =
          true := by decide +kernel
      simp [same]

theorem parseTransferEncoding_prepared :
    parseTransferEncoding (prepareOutgoingHeaders headers keepAlive chunked bodySize) =
      .ok (if chunked then .chunked else .none) := by
  cases chunked with
  | true =>
      have fields : fieldsNamed (ascii "Transfer-Encoding")
          (prepareOutgoingHeaders headers keepAlive true bodySize) =
          [⟨ascii "Transfer-Encoding", ascii "chunked"⟩] := fieldsNamed_setHeader_self _ _ _
      rw [parseTransferEncoding, fieldTokens, fields]
      decide +kernel
  | false =>
      have fields : fieldsNamed (ascii "Transfer-Encoding")
          (prepareOutgoingHeaders headers keepAlive false bodySize) = [] := by
        simp only [prepareOutgoingHeaders, Bool.false_eq_true, if_false]
        rw [fieldsNamed_setHeader _ _ (by decide), fieldsNamed_setHeader _ _ (by decide),
          fieldsNamed_eraseHeader_self]
      rw [parseTransferEncoding, fieldTokens, fields]
      rfl

/-- The length in the prepared fields is the length of the body. -/
theorem parseContentLength_prepared (small : bodySize < 2 ^ 64) :
    parseContentLength (prepareOutgoingHeaders headers keepAlive chunked bodySize) =
      .ok (if chunked then none else some bodySize) := by
  cases chunked with
  | true =>
      have fields : fieldsNamed (ascii "Content-Length")
          (prepareOutgoingHeaders headers keepAlive true bodySize) = [] := by
        simp only [prepareOutgoingHeaders, if_true]
        rw [fieldsNamed_setHeader _ _ (by decide), fieldsNamed_setHeader _ _ (by decide),
          fieldsNamed_eraseHeader _ (by decide), fieldsNamed_eraseHeader_self]
      rw [parseContentLength, fields]
      rfl
  | false =>
      have fields : fieldsNamed (ascii "Content-Length")
          (prepareOutgoingHeaders headers keepAlive false bodySize) =
          [⟨ascii "Content-Length", Numeral.digits 10 bodySize⟩] := fieldsNamed_setHeader_self _ _ _
      rw [parseContentLength, fields]
      simp only [List.foldlM_cons, List.foldlM_nil, contentLengthStep,
        trimCopy_digits 10 bodySize (by norm_num) (by norm_num),
        Numeral.fromChars_digits (by norm_num : 2 ≤ 10) (by norm_num) small]
      rfl

end Prepared

theorem copyHeaders_named (headers : Headers) :
    copyHeaders (headers.map fun header => ⟨some header.name, header.value⟩) = headers := by
  have fold : ∀ copied : Headers, (headers.map fun header : Header =>
      (⟨some header.name, header.value⟩ : RawHeader)).foldl copyHeader copied =
        copied ++ headers := by
    induction headers with
    | nil => simp
    | cons _ _ ih =>
        intro _
        simp only [List.map_cons, List.foldl_cons, copyHeader, ih]
        simp
  simpa [copyHeaders] using fold []

/-- The response a reader makes of the head, before its body. -/
def Response.announced (response : Response) : Response :=
  { status := response.status
    reason := response.sentReason
    headers := response.sentHeaders
    versionMinor := response.versionMinor
    keepAlive := shouldKeepAlive response.sentHeaders response.versionMinor }

theorem responseOfHead_parsedHead {response : Response} (small : response.body.length < 2 ^ 64) :
    responseOfHead response.parsedHead =
      .ok (response.announced, some response.body.length) := by
  simp only [responseOfHead, Response.parsedHead, copyHeaders_named, Response.sentHeaders,
    parseTransferEncoding_prepared, parseContentLength_prepared _ _ _ _ small]
  rfl

end Corouv.Http
