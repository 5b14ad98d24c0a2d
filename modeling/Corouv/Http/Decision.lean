import Mathlib.Logic.Relation
import Mathlib.Data.List.Infix
import Corouv.Http.Connection
import Corouv.Library.Fold

/-!
# Which framing a head announces

Both readers decide from the fields of a head where its message ends: they scan the
`Transfer-Encoding` fields, then the `Content-Length` fields, and compare the results.
`FramedAs` says what the fields mean, without a scan.  The readers decide just that, and so
the order of the fields, the case of their names and the way a list of codings is spread over
fields do not matter.
-/

namespace Corouv.Http

open Library

inductive Framing where
  | none
  | chunked
  | length (size : ℕ)
  deriving DecidableEq, Repr

/-- The branch that the body of a message is read by. -/
def Framing.ofHead (chunked : Bool) (contentLength : Option ℕ) : Framing :=
  if chunked then .chunked else contentLength.elim .none .length

def requestFraming (head : RequestHead) : Except Exn Framing :=
  (requestOfHead head).map fun announced => .ofHead announced.1.chunked announced.2

def responseFraming (head : ResponseHead) : Except Exn Framing :=
  (responseOfHead head).map fun announced => .ofHead announced.1.chunked announced.2

/-- The non-empty tokens between the commas of a field value. -/
def listedTokens (value : Bytes) : List Bytes :=
  ((value.splitOn 44).map trimCopy).filter fun token => token ≠ []

/-- The codings that the `Transfer-Encoding` fields list together. -/
def codings (headers : Headers) : List Bytes :=
  (fieldsNamed (ascii "Transfer-Encoding") headers).flatMap fun header =>
    listedTokens header.value

/-- A plain decimal numeral. -/
structure IsDecimal (text : Bytes) (size : ℕ) : Prop where
  nonempty : text ≠ []
  digits : ∀ byte ∈ text, 48 ≤ byte ∧ byte ≤ 57
  value_eq : Numeral.value 10 text = size

/-- What the fields of a message say about its end.  A message for which they say nothing is
one to reject. -/
inductive FramedAs (headers : Headers) : Framing → Prop
  | chunked {token : Bytes} (only : codings headers = [token])
      (named : iequals token (ascii "chunked") = true)
      (unsized : fieldsNamed (ascii "Content-Length") headers = []) : FramedAs headers .chunked
  | length {size : ℕ} (uncoded : codings headers = [])
      (sized : fieldsNamed (ascii "Content-Length") headers ≠ [])
      (agree : ∀ header ∈ fieldsNamed (ascii "Content-Length") headers,
        IsDecimal (trimCopy header.value) size)
      (small : size < 2 ^ 64) : FramedAs headers (.length size)
  | none (uncoded : codings headers = [])
      (unsized : fieldsNamed (ascii "Content-Length") headers = []) : FramedAs headers .none

/-- The empty part behind a final comma, which the loop of the source does not visit, is no
coding. -/
theorem tokens_commaParts (value : Bytes) :
    ((commaParts value).map trimCopy).filter (fun token => token ≠ []) = listedTokens value := by
  have within : ∀ (fuel : ℕ) (value : Bytes), value.length ≤ fuel →
      ((commaPartsWithin fuel value).map trimCopy).filter (fun token => token ≠ []) =
        listedTokens value := by
    intro fuel
    induction fuel with
    | zero =>
        intro value _
        rw [List.eq_nil_of_length_eq_zero (by omega : value.length = 0)]
        decide
    | succ fuel ih =>
        intro value _
        rw [commaPartsWithin]
        by_cases empty : value = []
        · rw [if_pos empty, empty]
          decide
        · rw [if_neg empty]
          cases found : find (ascii ",") value with
          | none =>
              have absent : (44 : UInt8) ∉ value := by
                intro present
                exact find_eq_none_iff_absent.mp found ((List.singleton_infix_iff 44 _).mpr present)
              rw [listedTokens, List.splitOn_eq_singleton absent]
          | some comma =>
              rcases find_split (by decide) found with ⟨parts, unbroken⟩
              have absent : (44 : UInt8) ∉ value.take comma := by
                intro present
                exact unbroken ((List.singleton_infix_iff 44 _).mpr present)
              have bound := find_add_length_le found
              have shorter : (value.drop (comma + 1)).length ≤ fuel := by
                rw [List.length_drop]
                omega
              have split : value.splitOn 44 =
                  value.take comma :: (value.drop (comma + 1)).splitOn 44 := by
                conv_lhs => rw [parts]
                exact List.splitOn_append_cons_self_of_not_mem absent _
              have later := ih _ shorter
              simp only [listedTokens] at later ⊢
              simp only [split, List.map_cons, List.filter_cons, later]
  exact within _ _ le_rfl

theorem fieldTokens_eq_codings (headers : Headers) :
    fieldTokens (ascii "Transfer-Encoding") headers = codings headers := by
  rw [fieldTokens, codings]
  induction fieldsNamed (ascii "Transfer-Encoding") headers with
  | nil => rfl
  | cons _ _ ih =>
      simp only [List.flatMap_cons, List.map_append, List.filter_append]
      rw [tokens_commaParts, ih]

variable {seen : Bool} {parsed : Option ℕ} {framing : Framing} {status : ℤ}
  {decision : Except Exn Framing}

theorem transferEncodingStep_eq_ok_iff {seen' : Bool} {token : Bytes} :
    transferEncodingStep seen token = .ok seen' ↔
      iequals token (ascii "chunked") = true ∧ seen = false ∧ seen' = true := by
  rw [transferEncodingStep]
  cases iequals token (ascii "chunked") with
  | false => simp [throw, throwThe, MonadExceptOf.throw]
  | true =>
      cases seen with
      | false => simp [pure, Except.pure, eq_comm]
      | true => simp [throw, throwThe, MonadExceptOf.throw]

theorem foldlM_transferEncodingStep_eq_ok_iff {tokens : List Bytes} :
    tokens.foldlM transferEncodingStep false = .ok seen ↔
      (tokens = [] ∧ seen = false) ∨
        ∃ token, tokens = [token] ∧ iequals token (ascii "chunked") = true ∧ seen = true := by
  cases tokens with
  | nil => simp [pure, Except.pure]
  | cons _ later =>
      rw [List.foldlM_cons, except_bind_eq_ok]
      simp only [transferEncodingStep_eq_ok_iff, true_and]
      cases later with
      | nil =>
          simp only [List.foldlM_nil, pure, Except.pure, Except.ok.injEq]
          grind
      | cons _ _ =>
          simp only [List.foldlM_cons, except_bind_eq_ok, transferEncodingStep_eq_ok_iff]
          grind

variable {headers headers' : Headers} {size : ℕ}

theorem parseTransferEncoding_eq_none_iff :
    parseTransferEncoding headers = .ok .none ↔ codings headers = [] := by
  rw [parseTransferEncoding, fieldTokens_eq_codings]
  simp only [except_bind_eq_ok, foldlM_transferEncodingStep_eq_ok_iff]
  constructor
  · rintro ⟨_, ⟨empty, -⟩ | ⟨_, -, -, rfl⟩, decided⟩
    · exact empty
    · by_contra present
      rw [if_neg present] at decided
      cases decided
  · intro empty
    exact ⟨false, .inl ⟨empty, rfl⟩, if_pos empty⟩

theorem parseTransferEncoding_eq_chunked_iff :
    parseTransferEncoding headers = .ok .chunked ↔
      ∃ token, codings headers = [token] ∧ iequals token (ascii "chunked") = true := by
  rw [parseTransferEncoding, fieldTokens_eq_codings]
  simp only [except_bind_eq_ok, foldlM_transferEncodingStep_eq_ok_iff]
  constructor
  · rintro ⟨_, ⟨empty, -⟩ | ⟨token, only, named, -⟩, decided⟩
    · rw [if_pos empty] at decided
      cases decided
    · exact ⟨token, only, named⟩
  · rintro ⟨token, only, named⟩
    refine ⟨true, .inr ⟨token, only, named, rfl⟩, ?_⟩
    rw [only]
    rfl

theorem isSome_digitValue_iff {byte : UInt8} :
    (Numeral.digitValue 10 byte).isSome ↔ 48 ≤ byte ∧ byte ≤ 57 := by
  simp only [Numeral.digitValue, UInt8.le_iff_toNat_le, UInt8.toNat_ofNat]
  grind

theorem isDecimal_iff {text : Bytes} :
    Numeral.fromChars 10 (2 ^ 64) text = some (size, []) ↔ IsDecimal text size ∧ size < 2 ^ 64 := by
  rw [Numeral.fromChars_eq_whole_iff]
  constructor
  · rintro ⟨nonempty, digits, value_eq, small⟩
    refine ⟨⟨nonempty, ?_, value_eq⟩, small⟩
    intro byte member
    exact isSome_digitValue_iff.mp (digits byte member)
  · rintro ⟨⟨nonempty, digits, value_eq⟩, small⟩
    refine ⟨nonempty, ?_, value_eq, small⟩
    intro byte member
    exact isSome_digitValue_iff.mpr (digits byte member)

theorem contentLengthStep_eq_ok_iff {parsed' : Option ℕ} {header : Header} :
    contentLengthStep parsed header = .ok parsed' ↔
      ∃ size, parsed' = some size ∧ (IsDecimal (trimCopy header.value) size ∧ size < 2 ^ 64) ∧
        ∀ previous ∈ parsed, previous = size := by
  simp only [contentLengthStep, ← isDecimal_iff]
  split
  next current read =>
    rw [read]
    cases parsed with
    | none => simp [pure, Except.pure, eq_comm]
    | some previous =>
        dsimp only
        split
        next differ =>
          simp only [throw, throwThe, MonadExceptOf.throw, reduceCtorEq, false_iff]
          rintro ⟨size, -, same, agrees⟩
          cases same
          exact differ (agrees previous rfl)
        next same =>
          simp only [ne_eq, not_not] at same
          simp [pure, Except.pure, eq_comm, same]
  next other =>
    simp only [throw, throwThe, MonadExceptOf.throw, reduceCtorEq, false_iff]
    rintro ⟨size, -, read, -⟩
    exact other size read

theorem foldlM_contentLengthStep_some_iff {fields : Headers} :
    fields.foldlM contentLengthStep (some size) = .ok parsed ↔
      parsed = some size ∧
        ∀ header ∈ fields, IsDecimal (trimCopy header.value) size ∧ size < 2 ^ 64 := by
  induction fields with
  | nil => simp [pure, Except.pure, eq_comm]
  | cons _ _ ih =>
      rw [List.foldlM_cons, except_bind_eq_ok, List.forall_mem_cons]
      constructor
      · rintro ⟨_, stepped, folded⟩
        rcases contentLengthStep_eq_ok_iff.mp stepped with ⟨_, rfl, decimal, agrees⟩
        cases agrees size rfl
        rcases ih.mp folded with ⟨rfl, others⟩
        exact ⟨rfl, decimal, others⟩
      · rintro ⟨rfl, decimal, others⟩
        refine ⟨some size, contentLengthStep_eq_ok_iff.mpr ⟨size, rfl, decimal, ?_⟩, ?_⟩
        · intro _ same
          exact (Option.some.inj same).symm
        · exact ih.mpr ⟨rfl, others⟩

theorem parseContentLength_eq_none_iff :
    parseContentLength headers = .ok none ↔ fieldsNamed (ascii "Content-Length") headers = [] := by
  rw [parseContentLength]
  cases fieldsNamed (ascii "Content-Length") headers with
  | nil => simp [pure, Except.pure]
  | cons _ _ =>
      rw [List.foldlM_cons, except_bind_eq_ok]
      simp only [reduceCtorEq, iff_false]
      rintro ⟨_, stepped, folded⟩
      rcases contentLengthStep_eq_ok_iff.mp stepped with ⟨_, rfl, -, -⟩
      cases (foldlM_contentLengthStep_some_iff.mp folded).1

theorem parseContentLength_eq_some_iff :
    parseContentLength headers = .ok (some size) ↔
      fieldsNamed (ascii "Content-Length") headers ≠ [] ∧
        ∀ header ∈ fieldsNamed (ascii "Content-Length") headers,
          IsDecimal (trimCopy header.value) size ∧ size < 2 ^ 64 := by
  rw [parseContentLength]
  cases fieldsNamed (ascii "Content-Length") headers with
  | nil => simp [pure, Except.pure]
  | cons _ _ =>
      rw [List.foldlM_cons, except_bind_eq_ok, List.forall_mem_cons]
      constructor
      · rintro ⟨_, stepped, folded⟩
        rcases contentLengthStep_eq_ok_iff.mp stepped with ⟨_, rfl, decimal, -⟩
        rcases foldlM_contentLengthStep_some_iff.mp folded with ⟨same, others⟩
        cases same
        exact ⟨List.cons_ne_nil _ _, decimal, others⟩
      · rintro ⟨-, decimal, others⟩
        refine ⟨some size, contentLengthStep_eq_ok_iff.mpr ⟨size, rfl, decimal, nofun⟩, ?_⟩
        exact foldlM_contentLengthStep_some_iff.mpr ⟨rfl, others⟩

theorem parseContentLength_status {error : Exn}
    (failed : parseContentLength headers = .error error) :
    ∃ message, error = .http 400 message := by
  rcases foldlM_error failed with ⟨_, _, stepped⟩
  simp only [contentLengthStep] at stepped
  split at stepped
  · split at stepped
    · split at stepped
      · cases stepped
        exact ⟨_, rfl⟩
      · cases stepped
    · cases stepped
  · cases stepped
    exact ⟨_, rfl⟩

/-- What the fields say is what the two scans find, unless both find something. -/
theorem framedAs_iff :
    FramedAs headers framing ↔
      ∃ encoding contentLength, parseTransferEncoding headers = .ok encoding ∧
        parseContentLength headers = .ok contentLength ∧
        (decide (encoding = .chunked) && contentLength.isSome) = false ∧
        .ofHead (decide (encoding = .chunked)) contentLength = framing := by
  constructor
  · intro announced
    cases announced with
    | chunked only named unsized =>
        have coded := parseTransferEncoding_eq_chunked_iff.mpr ⟨_, only, named⟩
        exact ⟨_, _, coded, parseContentLength_eq_none_iff.mpr unsized, rfl, rfl⟩
    | length uncoded sized agree small =>
        have sizes := parseContentLength_eq_some_iff.mpr
          ⟨sized, fun header member => ⟨agree header member, small⟩⟩
        exact ⟨_, _, parseTransferEncoding_eq_none_iff.mpr uncoded, sizes, rfl, rfl⟩
    | none uncoded unsized =>
        exact ⟨_, _, parseTransferEncoding_eq_none_iff.mpr uncoded,
          parseContentLength_eq_none_iff.mpr unsized, rfl, rfl⟩
  · rintro ⟨encoding, contentLength, coded, sizes, apart, rfl⟩
    cases encoding with
    | chunked =>
        cases contentLength with
        | some _ => cases apart
        | none =>
            rcases parseTransferEncoding_eq_chunked_iff.mp coded with ⟨_, only, named⟩
            exact .chunked only named (parseContentLength_eq_none_iff.mp sizes)
    | none =>
        have uncoded := parseTransferEncoding_eq_none_iff.mp coded
        cases contentLength with
        | none => exact .none uncoded (parseContentLength_eq_none_iff.mp sizes)
        | some _ =>
            rcases parseContentLength_eq_some_iff.mp sizes with ⟨sized, agree⟩
            rcases List.exists_mem_of_ne_nil _ sized with ⟨header, member⟩
            exact .length uncoded sized (fun header member => (agree header member).1)
              (agree header member).2

/-- A decision that says what the fields say, and rejects a message with the given status if
they say nothing. -/
structure Decided (status : ℤ) (headers : Headers) (decision : Except Exn Framing) : Prop where
  framed : ∀ framing, decision = .ok framing ↔ FramedAs headers framing
  rejected : (∀ framing, ¬FramedAs headers framing) →
    ∃ message, decision = .error (.http status message)

/-- The two readers differ in the status and the texts they reject a message with. -/
theorem decided_of_scans
    (coding : ∀ error, parseTransferEncoding headers = .error error →
      ∃ message, decision = .error (.http status message))
    (length : ∀ encoding error, parseTransferEncoding headers = .ok encoding →
      parseContentLength headers = .error error →
        ∃ message, decision = .error (.http status message))
    (found : ∀ encoding contentLength, parseTransferEncoding headers = .ok encoding →
      parseContentLength headers = .ok contentLength → ∃ message, decision =
        if decide (encoding = .chunked) && contentLength.isSome then .error (.http status message)
        else .ok (.ofHead (decide (encoding = .chunked)) contentLength)) :
    Decided status headers decision := by
  -- a decision either rejects a message whose fields say nothing, or reads them
  have outcome : ((∀ framing, ¬FramedAs headers framing) ∧
      ∃ message, decision = .error (.http status message)) ∨
        ∃ framing, decision = .ok framing ∧ ∀ other, FramedAs headers other ↔ framing = other := by
    simp only [framedAs_iff]
    cases coded : parseTransferEncoding headers with
    | error error => exact .inl ⟨by simp, coding error coded⟩
    | ok encoding =>
        cases sizes : parseContentLength headers with
        | error error => exact .inl ⟨by simp, length encoding error coded sizes⟩
        | ok contentLength =>
            rcases found encoding contentLength coded sizes with ⟨message, rfl⟩
            cases both : decide (encoding = .chunked) && contentLength.isSome with
            | true =>
                left
                refine ⟨?_, message, rfl⟩
                rintro framing ⟨_, _, same, same', apart, -⟩
                cases same
                cases same'
                cases both.symm.trans apart
            | false =>
                right
                refine ⟨_, rfl, ?_⟩
                intro _
                constructor
                · rintro ⟨_, _, same, same', -, rfl⟩
                  cases same
                  cases same'
                  rfl
                · rintro rfl
                  exact ⟨encoding, contentLength, rfl, rfl, both, rfl⟩
  rcases outcome with ⟨silent, message, rfl⟩ | ⟨framing, rfl, only⟩
  · refine ⟨?_, fun _ => ⟨message, rfl⟩⟩
    intro framing
    exact ⟨nofun, fun announced => absurd announced (silent framing)⟩
  · refine ⟨?_, fun silent => absurd ((only framing).mpr rfl) (silent framing)⟩
    intro _
    rw [only, Except.ok.injEq]

theorem requestFraming_decided (head : RequestHead) :
    Decided 400 (copyHeaders head.headers) (requestFraming head) := by
  apply decided_of_scans
  · intro _ failed
    simp only [requestFraming, requestOfHead, failed]
    exact ⟨_, rfl⟩
  · intro _ _ coded failed
    rcases parseContentLength_status failed with ⟨message, rfl⟩
    simp only [requestFraming, requestOfHead, coded, failed]
    exact ⟨message, rfl⟩
  · intro _ _ coded sizes
    refine ⟨"invalid HTTP request: both Transfer-Encoding and Content-Length", ?_⟩
    simp only [requestFraming, requestOfHead, coded, sizes]
    split
    · rfl
    · rfl

theorem responseFraming_decided (head : ResponseHead) :
    Decided 502 (copyHeaders head.headers) (responseFraming head) := by
  apply decided_of_scans
  · intro _ failed
    simp only [responseFraming, responseOfHead, failed]
    exact ⟨_, rfl⟩
  · intro _ _ coded failed
    simp only [responseFraming, responseOfHead, coded, failed]
    exact ⟨_, rfl⟩
  · intro _ _ coded sizes
    refine ⟨"invalid HTTP response: both Transfer-Encoding and Content-Length", ?_⟩
    simp only [responseFraming, responseOfHead, coded, sizes]
    split
    · rfl
    · rfl

/-- One change to the fields of a message: their order, the case of a name, or a list of
codings that is spread over two fields. -/
inductive Rewritten : Headers → Headers → Prop
  | permute {headers headers' : Headers} (same : headers.Perm headers') :
      Rewritten headers headers'
  | rename {name name' : Bytes} (front back : Headers) (value : Bytes)
      (same : iequals name name' = true) :
      Rewritten (front ++ ⟨name, value⟩ :: back) (front ++ ⟨name', value⟩ :: back)
  | split {name : Bytes} (front back : Headers) (left right : Bytes)
      (coding : iequals name (ascii "Transfer-Encoding") = true) :
      Rewritten (front ++ ⟨name, left ++ 44 :: right⟩ :: back)
        (front ++ ⟨name, left⟩ :: ⟨name, right⟩ :: back)

def lengthValues (headers : Headers) : List Bytes :=
  (fieldsNamed (ascii "Content-Length") headers).map Header.value

/-- The codings and the lengths are the same, in any order. -/
structure Alike (headers headers' : Headers) : Prop where
  codings : (codings headers).Perm (codings headers')
  lengths : (lengthValues headers).Perm (lengthValues headers')

theorem Alike.symm (alike : Alike headers headers') : Alike headers' headers :=
  ⟨alike.codings.symm, alike.lengths.symm⟩

theorem codings_append (front back : Headers) :
    codings (front ++ back) = codings front ++ codings back := by
  simp [codings, fieldsNamed]

theorem lengthValues_append (front back : Headers) :
    lengthValues (front ++ back) = lengthValues front ++ lengthValues back := by
  simp [lengthValues, fieldsNamed]

theorem codings_singleton (header : Header) :
    codings [header] =
      if iequals header.name (ascii "Transfer-Encoding") then listedTokens header.value
      else [] := by
  simp only [codings, fieldsNamed, List.filter_cons, List.filter_nil]
  split
  · exact List.append_nil _
  · rfl

theorem lengthValues_singleton (header : Header) :
    lengthValues [header] =
      if iequals header.name (ascii "Content-Length") then [header.value] else [] := by
  simp only [lengthValues, fieldsNamed, List.filter_cons, List.filter_nil]
  split
  · rfl
  · rfl

theorem listedTokens_append (left right : Bytes) :
    listedTokens (left ++ 44 :: right) = listedTokens left ++ listedTokens right := by
  simp only [listedTokens, List.splitOn_append_cons_self, List.map_append, List.filter_append]

theorem Alike.within (front back changed changed' : Headers) (alike : Alike changed changed') :
    Alike (front ++ (changed ++ back)) (front ++ (changed' ++ back)) := by
  constructor
  · simp only [codings_append]
    exact (alike.codings.append_right _).append_left _
  · simp only [lengthValues_append]
    exact (alike.lengths.append_right _).append_left _

/-- No such change adds or takes away a coding or a length. -/
theorem Rewritten.alike (rewritten : Rewritten headers headers') : Alike headers headers' := by
  cases rewritten with
  | permute same =>
      constructor
      · exact (same.filter _).flatMap_right _
      · exact (same.filter _).map _
  | @rename name name' front back value same =>
      apply Alike.within front back [⟨name, value⟩] [⟨name', value⟩]
      have named : ∀ wanted, iequals name wanted = iequals name' wanted := by
        intro _
        simp only [iequals, beq_iff_eq] at same ⊢
        rw [same]
      constructor
      · simp only [codings_singleton, named]
        exact List.Perm.rfl
      · simp only [lengthValues_singleton, named]
        exact List.Perm.rfl
  | @split name front back left right coding =>
      apply Alike.within front back [⟨name, left ++ 44 :: right⟩] [⟨name, left⟩, ⟨name, right⟩]
      have unsized : iequals name (ascii "Content-Length") = false := by
        by_contra sized
        have both := (beq_iff_eq.mp coding).symm.trans (beq_iff_eq.mp (eq_true_of_ne_false sized))
        exact absurd both (by decide)
      have pair : ([⟨name, left⟩, ⟨name, right⟩] : Headers) =
          [⟨name, left⟩] ++ [⟨name, right⟩] := rfl
      constructor
      · rw [pair, codings_append]
        simp only [codings_singleton, if_pos coding, listedTokens_append]
        exact List.Perm.rfl
      · rw [pair, lengthValues_append]
        simp only [lengthValues_singleton, unsized]
        exact List.Perm.rfl

theorem alike_of_eqvGen (changed : Relation.EqvGen Rewritten headers headers') :
    Alike headers headers' := by
  induction changed with
  | rel _ _ rewritten => exact rewritten.alike
  | refl _ => exact ⟨List.Perm.rfl, List.Perm.rfl⟩
  | symm _ _ _ alike => exact alike.symm
  | trans _ _ _ _ _ first second =>
      exact ⟨first.codings.trans second.codings, first.lengths.trans second.lengths⟩

theorem Alike.unsized (alike : Alike headers headers')
    (unsized : fieldsNamed (ascii "Content-Length") headers = []) :
    fieldsNamed (ascii "Content-Length") headers' = [] := by
  have lengths := alike.lengths
  rw [lengthValues, unsized, List.map_nil] at lengths
  exact List.map_eq_nil_iff.mp (List.nil_perm.mp lengths)

theorem FramedAs.of_alike (alike : Alike headers headers') (announced : FramedAs headers framing) :
    FramedAs headers' framing := by
  have codings := alike.codings
  cases announced with
  | chunked only named unsized =>
      rw [only] at codings
      exact .chunked (List.singleton_perm.mp codings).symm named (alike.unsized unsized)
  | length uncoded sized agree small =>
      rw [uncoded] at codings
      refine .length (List.nil_perm.mp codings) ?_ ?_ small
      · intro unsized
        exact sized (alike.symm.unsized unsized)
      · intro header member
        have value : header.value ∈ lengthValues headers :=
          alike.lengths.mem_iff.mpr (List.mem_map_of_mem member)
        rcases List.mem_map.mp value with ⟨other, listed, same⟩
        rw [← same]
        exact agree other listed
  | none uncoded unsized =>
      rw [uncoded] at codings
      exact .none (List.nil_perm.mp codings) (alike.unsized unsized)

theorem Decided.congr {decision' : Except Exn Framing} (decided : Decided status headers decision)
    (decided' : Decided status headers' decision') (alike : Alike headers headers')
    (framing : Framing) : decision = .ok framing ↔ decision' = .ok framing := by
  rw [decided.framed, decided'.framed]
  exact ⟨FramedAs.of_alike alike, FramedAs.of_alike alike.symm⟩

/-- Both readers frame a message as its fields say and reject it if they say nothing, and
neither the order of the fields, nor the case of their names, nor the splitting and joining of
lists of codings changes what they decide. -/
theorem framing_decided :
    (∀ head : RequestHead, Decided 400 (copyHeaders head.headers) (requestFraming head)) ∧
    (∀ head : ResponseHead, Decided 502 (copyHeaders head.headers) (responseFraming head)) ∧
    (∀ head head' : RequestHead,
      Relation.EqvGen Rewritten (copyHeaders head.headers) (copyHeaders head'.headers) →
        ∀ framing, requestFraming head = .ok framing ↔ requestFraming head' = .ok framing) ∧
    (∀ head head' : ResponseHead,
      Relation.EqvGen Rewritten (copyHeaders head.headers) (copyHeaders head'.headers) →
        ∀ framing, responseFraming head = .ok framing ↔ responseFraming head' = .ok framing) := by
  refine ⟨requestFraming_decided, responseFraming_decided, ?_, ?_⟩
  · intro head head' changed
    exact (requestFraming_decided head).congr (requestFraming_decided head')
      (alike_of_eqvGen changed)
  · intro head head' changed
    exact (responseFraming_decided head).congr (responseFraming_decided head')
      (alike_of_eqvGen changed)

/-- A list of codings with an empty entry, and the same list in two fields. -/
def listedHead : RequestHead :=
  ⟨ascii "POST", ascii "/", 1,
    [⟨some (ascii "Transfer-Encoding"), ascii ",Chunked"⟩, ⟨some (ascii "Host"), ascii "h"⟩]⟩

def spreadHead : RequestHead :=
  ⟨ascii "POST", ascii "/", 1,
    [⟨some (ascii "host"), ascii "h"⟩, ⟨some (ascii "Transfer-Encoding"), []⟩,
      ⟨some (ascii "Transfer-Encoding"), ascii "Chunked"⟩]⟩

theorem spreadHead_rewritten :
    Relation.EqvGen Rewritten (copyHeaders listedHead.headers)
      (copyHeaders spreadHead.headers) := by
  have split := Rewritten.split [] [⟨ascii "Host", ascii "h"⟩] [] (ascii "Chunked")
    (iequals_refl (ascii "Transfer-Encoding"))
  have rename := Rewritten.rename [⟨ascii "Transfer-Encoding", []⟩,
    ⟨ascii "Transfer-Encoding", ascii "Chunked"⟩] [] (ascii "h")
    (by decide : iequals (ascii "Host") (ascii "host") = true)
  have permute : Rewritten ([⟨ascii "Transfer-Encoding", []⟩,
      ⟨ascii "Transfer-Encoding", ascii "Chunked"⟩] ++ [⟨ascii "host", ascii "h"⟩])
      ([⟨ascii "host", ascii "h"⟩] ++ [⟨ascii "Transfer-Encoding", []⟩,
        ⟨ascii "Transfer-Encoding", ascii "Chunked"⟩]) := .permute List.perm_append_comm
  exact ((Relation.EqvGen.rel _ _ split).trans _ _ _ (.rel _ _ rename)).trans _ _ _
    (.rel _ _ permute)

theorem framing_decided_spreadHead : requestFraming spreadHead = .ok .chunked :=
  (framing_decided.2.2.1 listedHead spreadHead spreadHead_rewritten .chunked).mp
    (by decide +kernel)

end Corouv.Http
