import Corouv.Base
import Corouv.Library.Percent

/-!
# URL-encoded forms

`form_urlencode`, `form_urldecode`, `parse_form_urlencoded` and
`serialize_form_urlencoded`.  The loop over the body is one list of tokens here, in the order
the source visits them.
-/

namespace Corouv.Http

open Library

structure FormField where
  name : Bytes
  value : Bytes
  deriving DecidableEq, Repr

abbrev FormFields := List FormField

/-- `std::isalnum` in the C locale. -/
def isAlnum (byte : UInt8) : Bool :=
  (48 ≤ byte && byte ≤ 57) || (65 ≤ byte && byte ≤ 90) || (97 ≤ byte && byte ≤ 122)

/-- What `form_urlencode` writes for a byte that it does not escape. -/
def formKeep (byte : UInt8) : Option UInt8 :=
  if isAlnum byte || (ascii "-_.*").contains byte then some byte
  else if byte = 32 then some 43
  else none

/-- What `form_urldecode` reads a byte outside an escape as. -/
def formLiteral (byte : UInt8) : UInt8 :=
  if byte = 43 then 32 else byte

def formUrlencode (value : Bytes) : Bytes :=
  Percent.encode formKeep value

def formUrldecode (value : Bytes) : Except Exn Bytes :=
  Percent.decode formLiteral
    (.invalidArgument "corouv::http invalid percent-encoding in form value") value

/-- One token between two ampersands. -/
def parseFormField (token : Bytes) : Except Exn FormField := do
  let eq := find (ascii "=") token
  let name ← formUrldecode (token.take (eq.getD token.length))
  let value ← formUrldecode (eq.elim [] fun position => token.drop (position + 1))
  pure ⟨name, value⟩

def parseFormStep (maxFields : ℕ) (fields : FormFields) (token : Bytes) :
    Except Exn FormFields :=
  if token = [] then pure fields
  else do
    let field ← parseFormField token
    if (fields ++ [field]).length > maxFields then
      throw (.runtime "corouv::http too many form fields")
    else pure (fields ++ [field])

def parseFormUrlencoded (body : Bytes) (maxFields : ℕ) : Except Exn FormFields :=
  (body.splitOn 38).foldlM (parseFormStep maxFields) []

def formPair (field : FormField) : Bytes :=
  formUrlencode field.name ++ ascii "=" ++ formUrlencode field.value

def serializeFormUrlencoded (fields : FormFields) : Bytes :=
  [38].intercalate (fields.map formPair)

theorem formKeep_eq_some {byte kept : UInt8} (keeps : formKeep byte = some kept) :
    kept = byte ∧ (isAlnum byte || (ascii "-_.*").contains byte) = true ∨
      byte = 32 ∧ kept = 43 := by
  simp only [formKeep] at keeps
  split at keeps
  next plain =>
    cases keeps
    exact .inl ⟨rfl, plain⟩
  · split at keeps
    next space =>
      cases keeps
      exact .inr ⟨space, rfl⟩
    · cases keeps

theorem formKeep_agree : Percent.Agree formKeep formLiteral := by
  intro _ kept keeps
  rcases formKeep_eq_some keeps with ⟨rfl, plain⟩ | ⟨rfl, rfl⟩
  · have escapes : kept ≠ 37 := by
      rintro rfl
      revert plain
      decide
    have noPlus : kept ≠ 43 := by
      rintro rfl
      revert plain
      decide
    exact ⟨escapes, if_neg noPlus⟩
  · decide

theorem formKeep_ne {byte : UInt8} (escaped : formKeep byte = none) (noPlus : byte ≠ 43)
    (other : UInt8) : formKeep other ≠ some byte := by
  intro keeps
  rcases formKeep_eq_some keeps with ⟨rfl, -⟩ | ⟨-, plus⟩
  · rw [escaped] at keeps
    cases keeps
  · exact noPlus plus

theorem formUrldecode_formUrlencode (value : Bytes) :
    formUrldecode (formUrlencode value) = .ok value :=
  Percent.decode_encode formKeep_agree value

theorem ampersand_notMem_formUrlencode (value : Bytes) : 38 ∉ formUrlencode value :=
  Percent.notMem_encode (formKeep_ne (by decide) (by decide)) (by decide) (by decide) value

theorem equals_notMem_formUrlencode (value : Bytes) : 61 ∉ formUrlencode value :=
  Percent.notMem_encode (formKeep_ne (by decide) (by decide)) (by decide) (by decide) value

theorem ampersand_notMem_formPair (field : FormField) : 38 ∉ formPair field := by
  simp only [formPair, List.mem_append, not_or]
  refine ⟨⟨ampersand_notMem_formUrlencode _, ?_⟩, ampersand_notMem_formUrlencode _⟩
  decide

theorem formPair_ne_nil (field : FormField) : formPair field ≠ [] := by
  simp [formPair, ascii]

theorem parseFormField_formPair (field : FormField) :
    parseFormField (formPair field) = .ok field := by
  have found : find (ascii "=") (formPair field) = some (formUrlencode field.name).length :=
    find_append_of_notMem (equals_notMem_formUrlencode field.name)
  have front : (formPair field).take (formUrlencode field.name).length =
      formUrlencode field.name := by
    simp [formPair]
  have back : (formPair field).drop ((formUrlencode field.name).length + 1) =
      formUrlencode field.value := by
    simp [formPair, ascii, List.drop_append]
  simp only [parseFormField, found, Option.getD_some, Option.elim_some, front, back,
    formUrldecode_formUrlencode]
  rfl

variable {maxFields : ℕ} {fields : FormFields}

theorem parseFormStep_formPair (field : FormField) (room : fields.length + 1 ≤ maxFields) :
    parseFormStep maxFields fields (formPair field) = .ok (fields ++ [field]) := by
  have within : ¬(fields ++ [field]).length > maxFields := by
    simp only [List.length_append, List.length_singleton]
    omega
  rw [parseFormStep, if_neg (formPair_ne_nil field), parseFormField_formPair]
  exact if_neg within

theorem foldlM_parseFormStep (fields : FormFields) :
    ∀ {before : FormFields}, before.length + fields.length ≤ maxFields →
      (fields.map formPair).foldlM (parseFormStep maxFields) before = .ok (before ++ fields) := by
  induction fields with
  | nil =>
      intro before _
      simp only [List.map_nil, List.foldlM_nil, List.append_nil]
      rfl
  | cons field rest ih =>
      intro before room
      rw [List.length_cons] at room
      rw [List.map_cons, List.foldlM_cons, parseFormStep_formPair field (by omega)]
      have later : (before ++ [field]).length + rest.length ≤ maxFields := by
        simp only [List.length_append, List.length_singleton]
        omega
      refine (ih later).trans ?_
      rw [List.append_assoc]
      rfl

theorem parseFormUrlencoded_serialize (room : fields.length ≤ maxFields) :
    parseFormUrlencoded (serializeFormUrlencoded fields) maxFields = .ok fields := by
  cases fields with
  | nil => rfl
  | cons field rest =>
      have apart : ∀ token ∈ (field :: rest).map formPair, (38 : UInt8) ∉ token := by
        intro _ member
        rcases List.mem_map.mp member with ⟨other, -, rfl⟩
        exact ampersand_notMem_formPair other
      rw [parseFormUrlencoded, serializeFormUrlencoded, List.splitOn_intercalate 38 apart (by simp)]
      exact foldlM_parseFormStep (field :: rest) (by simpa using room)

theorem parseFormStep_eq_ok {fields' : FormFields} {token : Bytes}
    (step : parseFormStep maxFields fields token = .ok fields') :
    token = [] ∧ fields' = fields ∨
      token ≠ [] ∧ fields'.length = fields.length + 1 ∧ fields'.length ≤ maxFields := by
  simp only [parseFormStep] at step
  split at step
  next empty =>
    cases step
    exact .inl ⟨empty, rfl⟩
  next nonempty =>
    cases parsed : parseFormField token with
    | error _ =>
        rw [parsed] at step
        cases step
    | ok field =>
        rw [parsed] at step
        replace step : (if (fields ++ [field]).length > maxFields then
          throw (.runtime "corouv::http too many form fields")
          else pure (fields ++ [field]) : Except Exn FormFields) = .ok fields' := step
        split at step
        · cases step
        next within =>
          cases step
          refine .inr ⟨nonempty, by simp, by omega⟩

theorem length_of_foldlM_parseFormStep (tokens : List Bytes) :
    ∀ {fields fields' : FormFields}, fields.length ≤ maxFields →
      tokens.foldlM (parseFormStep maxFields) fields = .ok fields' →
      fields'.length = fields.length + (tokens.filter (· ≠ [])).length ∧
        fields'.length ≤ maxFields := by
  induction tokens with
  | nil =>
      intro fields _ within parsed
      cases parsed
      exact ⟨rfl, within⟩
  | cons token _ ih =>
      intro fields _ within parsed
      rw [List.foldlM_cons] at parsed
      cases step : parseFormStep maxFields fields token with
      | error _ =>
          rw [step] at parsed
          cases parsed
      | ok _ =>
          rw [step] at parsed
          rcases parseFormStep_eq_ok step with ⟨rfl, rfl⟩ | ⟨nonempty, _, bounded⟩
          · simpa using ih within parsed
          · rcases ih bounded parsed with ⟨_, bound⟩
            refine ⟨?_, bound⟩
            simp only [List.filter_cons, decide_eq_true nonempty, if_true, List.length_cons]
            omega

theorem length_of_parseFormUrlencoded {body : Bytes}
    (parsed : parseFormUrlencoded body maxFields = .ok fields) :
    fields.length = ((body.splitOn 38).filter (· ≠ [])).length ∧ fields.length ≤ maxFields := by
  simpa using length_of_foldlM_parseFormStep (body.splitOn 38) (Nat.zero_le maxFields) parsed

/-- Forms survive a round trip, and a body with too many non-empty tokens is rejected. -/
theorem formUrlencoded_round_trip (maxFields : ℕ) :
    (∀ fields : FormFields, fields.length ≤ maxFields →
      parseFormUrlencoded (serializeFormUrlencoded fields) maxFields = .ok fields) ∧
    (∀ (body : Bytes) (fields : FormFields), parseFormUrlencoded body maxFields = .ok fields →
      parseFormUrlencoded (serializeFormUrlencoded fields) maxFields = .ok fields) ∧
    ∀ body : Bytes, maxFields < ((body.splitOn 38).filter (· ≠ [])).length →
      ∃ error, parseFormUrlencoded body maxFields = .error error := by
  refine ⟨?_, ?_, ?_⟩
  · intro _ room
    exact parseFormUrlencoded_serialize room
  · intro body _ parsed
    exact parseFormUrlencoded_serialize (length_of_parseFormUrlencoded parsed).2
  · intro body _
    cases parsed : parseFormUrlencoded body maxFields with
    | error error => exact ⟨error, rfl⟩
    | ok _ =>
        rcases length_of_parseFormUrlencoded parsed with ⟨_, _⟩
        omega

example : parseFormUrlencoded (ascii "a=1&&b=%26+x&") 2 =
    .ok [⟨ascii "a", ascii "1"⟩, ⟨ascii "b", ascii "& x"⟩] := by
  decide +kernel

end Corouv.Http
