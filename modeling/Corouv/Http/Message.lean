import Corouv.Base

/-!
# HTTP messages and their header fields

The message records of `http.h` and the header functions of `http.cpp`: lookup
and update of fields, the framing fields `Content-Length` and
`Transfer-Encoding`, persistence, `Expect`, and the text a writer emits.

Every loop over comma-separated tokens in the source is one list of tokens here,
in the order the source visits them.
-/

namespace Corouv.Http

open Library

structure Header where
  name : Bytes
  value : Bytes
  deriving DecidableEq, Repr

abbrev Headers := List Header

theorem header_default_lt : 64 * 1024 < 2 ^ 64 := by
  norm_num

theorem body_default_lt : 8 * 1024 * 1024 < 2 ^ 64 := by
  norm_num

theorem count_default_lt : 100 < 2 ^ 64 := by
  norm_num

/-- Reader limits; each field is a 64-bit `std::size_t`. -/
structure Limits where
  maxHeaderBytes : ℕ := 64 * 1024
  maxBodyBytes : ℕ := 8 * 1024 * 1024
  maxHeaderCount : ℕ := 100
  maxHeaderBytes_lt : maxHeaderBytes < 2 ^ 64 := by first | exact header_default_lt | norm_num
  maxBodyBytes_lt : maxBodyBytes < 2 ^ 64 := by first | exact body_default_lt | norm_num
  maxHeaderCount_lt : maxHeaderCount < 2 ^ 64 := by first | exact count_default_lt | norm_num

structure Request where
  method : Bytes := ascii "GET"
  target : Bytes := ascii "/"
  headers : Headers := []
  body : Bytes := []
  trailers : Headers := []
  versionMinor : ℤ := 1
  keepAlive : Bool := true
  chunked : Bool := false
  deriving DecidableEq, Repr

structure Response where
  status : ℤ := 200
  reason : Bytes := []
  headers : Headers := []
  body : Bytes := []
  trailers : Headers := []
  versionMinor : ℤ := 1
  keepAlive : Bool := true
  chunked : Bool := false
  deriving DecidableEq, Repr

/-- Optional per-operation timeouts, in milliseconds. -/
structure IoTimeouts where
  readHeaders : Option ℕ := none
  readBody : Option ℕ := none
  write : Option ℕ := none

def commaPartsWithin : ℕ → Bytes → List Bytes
  | 0, _ => []
  | fuel + 1, remaining =>
      if remaining = [] then []
      else
        match find (ascii ",") remaining with
        | none => [remaining]
        | some comma =>
            remaining.take comma :: commaPartsWithin fuel (remaining.drop (comma + 1))

/-- The parts of a field value between commas; every part but the last uses up
at least its comma, so the length of the value bounds their number. -/
def commaParts (value : Bytes) : List Bytes :=
  commaPartsWithin value.length value

/-- All fields of the given name, up to letter case. -/
def fieldsNamed (name : Bytes) (headers : Headers) : Headers :=
  headers.filter fun header => iequals header.name name

/-- The trimmed non-empty tokens of all fields of one name, in order. -/
def fieldTokens (name : Bytes) (headers : Headers) : List Bytes :=
  (((fieldsNamed name headers).flatMap fun header => commaParts header.value).map trimCopy).filter
    fun token => token ≠ []

def findHeader (headers : Headers) (name : Bytes) : Option Bytes :=
  (headers.find? fun header => iequals header.name name).map Header.value

def headerContainsToken (headers : Headers) (name token : Bytes) : Bool :=
  headers.any fun header =>
    iequals header.name name &&
      (commaParts header.value).any fun part => iequals (trimCopy part) token

def eraseHeader (headers : Headers) (name : Bytes) : Headers :=
  headers.filter fun header => !iequals header.name name

def setHeader (headers : Headers) (name value : Bytes) : Headers :=
  eraseHeader headers name ++ [⟨name, value⟩]

def contentLengthStep (parsed : Option ℕ) (header : Header) : Except Exn (Option ℕ) :=
  match Numeral.fromChars 10 (2 ^ 64) (trimCopy header.value) with
  | some (current, []) =>
      match parsed with
      | some previous =>
          if previous ≠ current then throw (.http 400 "conflicting Content-Length headers")
          else pure (some current)
      | none => pure (some current)
  | _ => throw (.http 400 "invalid Content-Length")

def parseContentLength (headers : Headers) : Except Exn (Option ℕ) :=
  (fieldsNamed (ascii "Content-Length") headers).foldlM contentLengthStep none

inductive ParsedTransferEncoding where
  | none
  | chunked
  deriving DecidableEq, Repr

/-- One non-empty `Transfer-Encoding` token, given whether `chunked` was seen. -/
def transferEncodingStep (sawChunked : Bool) (token : Bytes) : Except Exn Bool :=
  if iequals token (ascii "chunked") then
    if sawChunked then
      throw (.invalidArgument "invalid HTTP message: duplicate chunked Transfer-Encoding")
    else pure true
  else throw (.invalidArgument "unsupported Transfer-Encoding")

def parseTransferEncoding (headers : Headers) : Except Exn ParsedTransferEncoding := do
  let tokens := fieldTokens (ascii "Transfer-Encoding") headers
  let sawChunked ← tokens.foldlM transferEncodingStep false
  if tokens = [] then pure .none
  else if !sawChunked then throw (.invalidArgument "unsupported Transfer-Encoding")
  else pure .chunked

def shouldKeepAlive (headers : Headers) (versionMinor : ℤ) : Bool :=
  if headerContainsToken headers (ascii "Connection") (ascii "close") then false
  else if headerContainsToken headers (ascii "Connection") (ascii "keep-alive") then true
  else decide (1 ≤ versionMinor)

inductive ParsedExpect where
  | none
  | continue100
  | unsupported
  deriving DecidableEq, Repr

def parseExpect (headers : Headers) : ParsedExpect :=
  let tokens := fieldTokens (ascii "Expect") headers
  if tokens.any fun token => !iequals token (ascii "100-continue") then .unsupported
  else if tokens.any fun token => iequals token (ascii "100-continue") then .continue100
  else .none

def expectsContinue (headers : Headers) : Bool :=
  parseExpect headers = .continue100

def responseHasBody (status : ℤ) (requestMethod : Bytes) : Bool :=
  if iequals requestMethod (ascii "HEAD") then false
  else if 100 ≤ status ∧ status < 200 then false
  else decide (status ≠ 204 ∧ status ≠ 304)

/-- The interim responses a reader skips: every `1xx` but `101`. -/
def isInformational (status : ℤ) : Bool :=
  decide (100 ≤ status ∧ status < 200 ∧ status ≠ 101)

def reasonPhrase (status : ℤ) : Bytes :=
  ascii <|
    if status = 100 then "Continue"
    else if status = 101 then "Switching Protocols"
    else if status = 103 then "Early Hints"
    else if status = 200 then "OK"
    else if status = 201 then "Created"
    else if status = 202 then "Accepted"
    else if status = 204 then "No Content"
    else if status = 301 then "Moved Permanently"
    else if status = 302 then "Found"
    else if status = 304 then "Not Modified"
    else if status = 400 then "Bad Request"
    else if status = 401 then "Unauthorized"
    else if status = 403 then "Forbidden"
    else if status = 404 then "Not Found"
    else if status = 405 then "Method Not Allowed"
    else if status = 408 then "Request Timeout"
    else if status = 409 then "Conflict"
    else if status = 411 then "Length Required"
    else if status = 413 then "Payload Too Large"
    else if status = 414 then "URI Too Long"
    else if status = 415 then "Unsupported Media Type"
    else if status = 417 then "Expectation Failed"
    else if status = 418 then "I'm a teapot"
    else if status = 422 then "Unprocessable Content"
    else if status = 426 then "Upgrade Required"
    else if status = 429 then "Too Many Requests"
    else if status = 431 then "Request Header Fields Too Large"
    else if status = 500 then "Internal Server Error"
    else if status = 501 then "Not Implemented"
    else if status = 502 then "Bad Gateway"
    else if status = 503 then "Service Unavailable"
    else if status = 504 then "Gateway Timeout"
    else "Unknown"

def serializeHeaders (headers : Headers) : Bytes :=
  headers.flatMap fun header => header.name ++ ascii ": " ++ header.value ++ crlf

theorem find_colon {name : Bytes} (value : Bytes) (plain : 58 ∉ name) :
    find (ascii ":") (name ++ ascii ": " ++ value) = some name.length ∧
      (name ++ ascii ": " ++ value).take name.length = name ∧
      trimCopy ((name ++ ascii ": " ++ value).drop (name.length + 1)) = trimCopy value := by
  have split : name ++ ascii ": " ++ value = name ++ ascii ":" ++ (ascii " " ++ value) := by
    simp [ascii]
  have behind : (name ++ ascii ":" ++ (ascii " " ++ value)).drop (name.length + 1) =
      ascii " " ++ value := by
    simp [ascii, List.drop_append]
  rw [split, behind]
  exact ⟨find_append_of_notMem plain, by simp, trimCopy_space value⟩

def headerLine (header : Header) : Bytes :=
  header.name ++ ascii ": " ++ header.value

/-- A header that is one line and is taken apart as it was put together. -/
structure Header.Sendable (header : Header) : Prop where
  colon : 58 ∉ header.name
  nameTrimmed : trimCopy header.name = header.name
  valueTrimmed : trimCopy header.value = header.value
  line : ¬crlf <:+: headerLine header

theorem serializeHeaders_cons (header : Header) (headers : Headers) :
    serializeHeaders (header :: headers) =
      headerLine header ++ (crlf ++ serializeHeaders headers) := by
  simp [serializeHeaders, headerLine]

theorem headerLine_ne_nil (header : Header) : headerLine header ≠ [] := by
  simp [headerLine, ascii]

theorem length_headerLine (header : Header) :
    (headerLine header).length = header.name.length + header.value.length + 2 := by
  simp only [headerLine, List.length_append, ascii, List.length_map]
  simp
  omega

theorem find_crlf_append {line : Bytes} (unbroken : ¬crlf <:+: line) (rest : Bytes) :
    find crlf (line ++ (crlf ++ rest)) = some line.length :=
  find_append_of_absent (by decide) unbroken rest

theorem not_crlf_infix_of_notMem {text : Bytes} (absent : 13 ∉ text) : ¬crlf <:+: text :=
  fun occurs => absent (occurs.subset List.mem_cons_self)

theorem not_crlf_infix_headerLine {header : Header} (name : ¬crlf <:+: header.name)
    (value : 13 ∉ header.value) : ¬crlf <:+: headerLine header := by
  rw [headerLine, List.append_assoc]
  apply not_infix_append name
  · simp only [List.mem_append, not_or]
    exact ⟨by decide, value⟩
  · rintro _ ⟨⟩
    decide

def prepareOutgoingHeaders (headers : Headers) (keepAlive chunked : Bool) (bodySize : ℕ) :
    Headers :=
  let erased := eraseHeader (eraseHeader (eraseHeader headers (ascii "Connection"))
    (ascii "Content-Length")) (ascii "Transfer-Encoding")
  let persistent := setHeader erased (ascii "Connection")
    (if keepAlive then ascii "keep-alive" else ascii "close")
  if chunked then setHeader persistent (ascii "Transfer-Encoding") (ascii "chunked")
  else setHeader persistent (ascii "Content-Length") (Numeral.digits 10 bodySize)

end Corouv.Http
