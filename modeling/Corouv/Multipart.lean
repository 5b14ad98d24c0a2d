import Corouv.Http.Message
import Corouv.Library.Percent

/-!
# Multipart forms

`multipart.cpp`: the boundary of a `Content-Type`, the `Content-Disposition` of a part, the
parser and the serializer.  The loops over tokens between semicolons are lists of tokens here,
in the order the source visits them; an empty token is skipped, so it does not matter that the
source stops before the one behind a final semicolon.  A cursor into the body is the text
behind it.
-/

namespace Corouv.Multipart

open Library Http

structure Part where
  name : Bytes := []
  filename : Option Bytes := none
  contentType : Bytes := []
  headers : Headers := []
  body : Bytes := []
  deriving DecidableEq, Repr

structure FormData where
  parts : List Part := []
  deriving DecidableEq, Repr

/-- What stands between the quotes.  A backslash before the closing quote stands for
itself. -/
def unescape : Bytes → Bytes
  | [] => []
  | [byte] => [byte]
  | byte :: next :: rest =>
      if byte = 92 then next :: unescape rest else byte :: unescape (next :: rest)

def unquote (value : Bytes) : Bytes :=
  if 2 ≤ value.length ∧ value.head? = some 34 ∧ value.getLast? = some 34 then
    unescape value.tail.dropLast
  else trimCopy value

def decodePercentEscaped (value : Bytes) : Except Exn Bytes :=
  Percent.decode id (.runtime "corouv::multipart invalid percent-encoding") value

/-- What follows the character set and the language of a `filename*`. -/
def encodedPart (value : Bytes) : Bytes :=
  match find (ascii "'") value with
  | none => value
  | some first =>
      match find (ascii "'") (value.drop (first + 1)) with
      | none => value
      | some second => value.drop (first + 1 + second + 1)

/-- The trimmed tokens of a field value. -/
def parameterTokens (value : Bytes) : List Bytes :=
  (value.splitOn 59).map trimCopy

/-- The variables of `parse_content_disposition`. -/
structure Disposition where
  first : Bool := true
  name : Bytes := []
  filename : Option Bytes := none
  filenameExt : Option Bytes := none
  deriving DecidableEq, Repr

namespace Disposition

/-- A token that is not the first one. -/
def parameter (state : Disposition) (token : Bytes) : Except Exn Disposition :=
  match find (ascii "=") token with
  | none => pure state
  | some eq =>
      let key := trimCopy (token.take eq)
      let value := unquote (token.drop (eq + 1))
      if iequals key (ascii "name") then pure { state with name := value }
      else if iequals key (ascii "filename") then pure { state with filename := some value }
      else if iequals key (ascii "filename*") then do
        let extended ← decodePercentEscaped (encodedPart value)
        pure { state with filenameExt := some extended }
      else pure state

def step (state : Disposition) (token : Bytes) : Except Exn Disposition :=
  if token = [] then pure state
  else if state.first then
    if iequals token (ascii "form-data") then pure { state with first := false }
    else throw (.runtime "corouv::multipart expected form-data content disposition")
  else state.parameter token

end Disposition

def parseContentDisposition (part : Part) (value : Bytes) : Except Exn Part := do
  let state ← (parameterTokens value).foldlM Disposition.step { name := part.name }
  pure { part with
    name := state.name
    filename := state.filenameExt <|> state.filename <|> part.filename }

def boundaryOfTokens (first : Bool) : List Bytes → Option Bytes
  | [] => none
  | token :: rest =>
      if token = [] then boundaryOfTokens first rest
      else if first then
        if iequals token (ascii "multipart/form-data") then boundaryOfTokens false rest else none
      else
        match find (ascii "=") token with
        | none => boundaryOfTokens first rest
        | some eq =>
            if iequals (trimCopy (token.take eq)) (ascii "boundary") then
              some (unquote (token.drop (eq + 1)))
            else boundaryOfTokens first rest

def boundaryFromContentType (contentType : Bytes) : Option Bytes :=
  boundaryOfTokens true (parameterTokens contentType)

/-- Every line but the last uses up its terminator, so the length of the block bounds their
number. -/
def headersWithin : ℕ → Bytes → Except Exn Headers
  | 0, _ => pure []
  | fuel + 1, block =>
      let line := block.take ((find crlf block).getD block.length)
      if line = [] then pure []
      else
        match find (ascii ":") line with
        | none => throw (.runtime "corouv::multipart malformed part header")
        | some colon => do
            let header := ⟨trimCopy (line.take colon), trimCopy (line.drop (colon + 1))⟩
            match find crlf block with
            | none => pure [header]
            | some position =>
                let later ← headersWithin fuel (block.drop (position + 2))
                pure (header :: later)

def parseHeadersBlock (block : Bytes) : Except Exn Headers :=
  headersWithin block.length block

def applyHeader (part : Part) (header : Header) : Except Exn Part :=
  if iequals header.name (ascii "Content-Disposition") then
    parseContentDisposition part header.value
  else if iequals header.name (ascii "Content-Type") then
    pure { part with contentType := header.value }
  else pure part

/-- One part, from its first header line on, and the text behind the delimiter that ends
it. -/
def parsePart (boundary : Bytes) (maxPartBytes : ℕ) (text : Bytes) :
    Except Exn (Part × Bytes) :=
  match find (crlf ++ crlf) text with
  | none => throw (.runtime "corouv::multipart missing part headers")
  | some headersEnd => do
      let headers ← parseHeadersBlock (text.take headersEnd)
      let content := text.drop (headersEnd + 4)
      let part ← headers.foldlM applyHeader { headers := headers }
      if part.name = [] then
        throw (.runtime "corouv::multipart part missing content-disposition name")
      else
        match find (crlf ++ ascii "--" ++ boundary) content with
        | none => throw (.runtime "corouv::multipart missing closing boundary")
        | some next =>
            if (content.take next).length > maxPartBytes then
              throw (.runtime "corouv::multipart part body too large")
            else
              pure ({ part with body := content.take next },
                content.drop (next + 2 + (ascii "--" ++ boundary).length))

/-- The loop of `parse`, given the text behind a delimiter.  Every turn uses up a
delimiter. -/
def parseParts (boundary : Bytes) (maxParts maxPartBytes : ℕ) :
    ℕ → List Part → Bytes → Except Exn FormData
  | 0, _, _ => throw .exhausted
  | fuel + 1, parts, text =>
      if text.take 2 = ascii "--" then pure ⟨parts⟩
      else if text.take 2 ≠ crlf then throw (.runtime "corouv::multipart malformed boundary")
      else do
        let (part, later) ← parsePart boundary maxPartBytes (text.drop 2)
        if (parts ++ [part]).length > maxParts then
          throw (.runtime "corouv::multipart too many parts")
        else if later.take 2 = ascii "--" then pure ⟨parts ++ [part]⟩
        else parseParts boundary maxParts maxPartBytes fuel (parts ++ [part]) later

def parse (contentType body : Bytes) (maxParts maxPartBytes : ℕ) : Except Exn FormData :=
  match boundaryFromContentType contentType with
  | none => throw (.runtime "corouv::multipart missing boundary in Content-Type")
  | some boundary =>
      if boundary = [] then throw (.runtime "corouv::multipart missing boundary in Content-Type")
      else if ascii "--" ++ boundary <+: body then
        parseParts boundary maxParts maxPartBytes (body.length + 1) []
          (body.drop (ascii "--" ++ boundary).length)
      else throw (.runtime "corouv::multipart missing opening boundary")

def buildContentType (boundary : Bytes) : Bytes :=
  ascii "multipart/form-data; boundary=" ++ boundary

/-- The value of the `Content-Disposition` field that `serialize` writes. -/
def dispositionValue (name : Bytes) (filename : Option Bytes) : Bytes :=
  ascii "form-data; name=\"" ++ name ++ [34] ++
    filename.elim [] fun text => ascii "; filename=\"" ++ text ++ [34]

/-- The fields that `serialize` copies. -/
def extraHeaders (part : Part) : Headers :=
  part.headers.filter fun header =>
    !(iequals header.name (ascii "Content-Disposition") ||
      iequals header.name (ascii "Content-Type"))

def serializePart (boundary : Bytes) (part : Part) : Bytes :=
  ascii "--" ++ boundary ++ crlf ++
    (ascii "Content-Disposition: " ++ dispositionValue part.name part.filename ++ crlf) ++
    (if part.contentType ≠ [] then ascii "Content-Type: " ++ part.contentType ++ crlf else []) ++
    (extraHeaders part).flatMap (fun header => header.name ++ ascii ": " ++ header.value ++ crlf) ++
    crlf ++ part.body ++ crlf

def serialize (form : FormData) (boundary : Bytes) : Except Exn Bytes :=
  if boundary = [] then
    throw (.invalidArgument "corouv::multipart boundary must not be empty")
  else
    pure (form.parts.flatMap (serializePart boundary) ++
      (ascii "--" ++ boundary ++ ascii "--" ++ crlf))

end Corouv.Multipart
