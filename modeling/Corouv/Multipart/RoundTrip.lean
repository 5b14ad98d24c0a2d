import Mathlib.Data.List.Forall2
import Corouv.Multipart.Disposition

/-!
# Multipart forms survive a round trip

What `serialize` writes, `parse` takes apart again.  The delimiter starts with a carriage
return and has no other one in it, so an occurrence of it cannot begin in a body and reach
into the delimiter behind the body; the blank line that ends the headers of a part is the first
one because no header line is empty or contains a line break.
-/

namespace Corouv.Multipart

open Library Http

theorem serializeHeaders_append (front back : Headers) :
    serializeHeaders (front ++ back) = serializeHeaders front ++ serializeHeaders back := by
  simp [serializeHeaders]

variable {headers : Headers} {line : Bytes}

theorem not_crlf_prefix (nonempty : line ≠ []) (unbroken : ¬crlf <:+: line) (rest : Bytes) :
    ¬crlf <+: line ++ (crlf ++ rest) := by
  intro starts
  have first := (find_eq_some_iff.mp (find_crlf_append unbroken rest)).2.2 0
    (List.length_pos_iff.mpr nonempty)
  exact first (by simpa using starts)

variable {text rest more : Bytes} {header : Header}

theorem not_crlf_prefix_serializeHeaders (sendable : ∀ header ∈ headers, header.Sendable)
    (starts : ¬crlf <+: text) : ¬crlf <+: serializeHeaders headers ++ text := by
  cases headers with
  | nil => exact starts
  | cons header _ =>
      rw [serializeHeaders_cons, List.append_assoc, List.append_assoc]
      exact not_crlf_prefix (headerLine_ne_nil header) (sendable header List.mem_cons_self).line _

/-- The first blank line behind serialized fields is not inside them. -/
theorem find_blank_serializeHeaders (sendable : ∀ header ∈ headers, header.Sendable)
    (starts : ¬crlf <+: text) :
    find (crlf ++ crlf) (serializeHeaders headers ++ text) =
      (find (crlf ++ crlf) text).map (· + (serializeHeaders headers).length) := by
  induction headers with
  | nil => simp [serializeHeaders]
  | cons header rest ih =>
      have later : ∀ other ∈ rest, other.Sendable :=
        fun other member => sendable other (List.mem_cons_of_mem header member)
      have line := (sendable header List.mem_cons_self).line
      have found := find_crlf_append line (serializeHeaders rest ++ text)
      have behind : (headerLine header ++ (crlf ++ (serializeHeaders rest ++ text))).drop
          ((headerLine header).length + crlf.length) = serializeHeaders rest ++ text := by
        rw [← List.drop_drop, List.drop_left, List.drop_left]
      have once := not_crlf_prefix_serializeHeaders later starts
      rw [← behind] at once
      rw [serializeHeaders_cons, List.append_assoc, List.append_assoc]
      refine (find_double (by decide) found once).trans ?_
      rw [show (13 :: [10] : Bytes) = crlf from rfl, behind, ih later, Option.map_map]
      congr 1
      funext position
      simp only [Function.comp_apply, List.length_append]
      omega

theorem find_blank_line (unbroken : ¬crlf <:+: line) (rest : Bytes) :
    find (crlf ++ crlf) (line ++ (crlf ++ (crlf ++ rest))) = some line.length := by
  have found := find_eq_some_iff.mp (find_crlf_append unbroken (crlf ++ rest))
  refine find_eq_some_iff.mpr ⟨?_, found.2.1, ?_⟩
  · rw [List.drop_left, ← List.append_assoc]
    exact List.prefix_append _ _
  · intro earlier below occurs
    exact found.2.2 earlier below ((List.prefix_append _ _).trans occurs)

theorem headersWithin_cons (sendable : header.Sendable) (fuel : ℕ) (block : Bytes) :
    headersWithin (fuel + 1) (headerLine header ++ (crlf ++ block)) =
      (headersWithin fuel block).map (header :: ·) := by
  have found := find_crlf_append sendable.line block
  rcases find_colon header.value sendable.colon with ⟨colon, name, value⟩
  have behind : (headerLine header ++ (crlf ++ block)).drop ((headerLine header).length + 2) =
      block := by
    rw [← List.drop_drop, List.drop_left]
    rfl
  simp only [headersWithin, found, Option.getD_some, List.take_left,
    if_neg (headerLine_ne_nil header), behind]
  simp only [headerLine, colon, name, value, sendable.nameTrimmed, sendable.valueTrimmed]
  cases headersWithin fuel block with
  | error _ | ok _ => rfl

theorem headersWithin_last (sendable : header.Sendable) (fuel : ℕ) :
    headersWithin (fuel + 1) (headerLine header) = .ok [header] := by
  have absent : find crlf (headerLine header) = none := find_eq_none_iff_absent.mpr sendable.line
  rcases find_colon header.value sendable.colon with ⟨colon, name, value⟩
  simp only [headersWithin, absent, Option.getD_none, List.take_length,
    if_neg (headerLine_ne_nil header)]
  simp only [headerLine, colon, name, value, sendable.nameTrimmed, sendable.valueTrimmed]
  rfl

theorem headersWithin_serializeHeaders (sendable : ∀ header ∈ headers, header.Sendable) (fuel : ℕ)
    (block : Bytes) :
    headersWithin (headers.length + fuel) (serializeHeaders headers ++ block) =
      (headersWithin fuel block).map (headers ++ ·) := by
  induction headers with
  | nil =>
      simp only [List.length_nil, Nat.zero_add, serializeHeaders, List.flatMap_nil, List.nil_append]
      cases headersWithin fuel block <;> rfl
  | cons header rest ih =>
      have later := ih fun other member => sendable other (List.mem_cons_of_mem header member)
      have first := headersWithin_cons (sendable header List.mem_cons_self) (rest.length + fuel)
        (serializeHeaders rest ++ block)
      have count : (header :: rest).length + fuel = rest.length + fuel + 1 := by
        rw [List.length_cons]
        omega
      rw [count, serializeHeaders_cons, List.append_assoc, List.append_assoc, first, later]
      cases headersWithin fuel block <;> rfl

theorem length_le_serializeHeaders (headers : Headers) :
    headers.length ≤ (serializeHeaders headers).length := by
  induction headers with
  | nil => exact Nat.le_refl _
  | cons _ _ _ =>
      rw [serializeHeaders_cons, List.length_append, List.length_append, List.length_cons]
      have two : crlf.length = 2 := rfl
      omega

theorem parseHeadersBlock_append {block : Bytes} (sendable : ∀ header ∈ headers, header.Sendable)
    (nonempty : block ≠ []) :
    ∃ fuel, parseHeadersBlock (serializeHeaders headers ++ block) =
      (headersWithin (fuel + 1) block).map (headers ++ ·) := by
  have counted := length_le_serializeHeaders headers
  have some := List.length_pos_iff.mpr nonempty
  refine ⟨(serializeHeaders headers ++ block).length - headers.length - 1, ?_⟩
  rw [← headersWithin_serializeHeaders sendable, parseHeadersBlock]
  congr 1
  rw [List.length_append]
  omega

theorem parseHeadersBlock_sendable {last : Header} (sendable : ∀ header ∈ headers, header.Sendable)
    (lastSendable : last.Sendable) :
    parseHeadersBlock (serializeHeaders headers ++ headerLine last) = .ok (headers ++ [last]) := by
  rcases parseHeadersBlock_append sendable (headerLine_ne_nil last) with ⟨_, parsed⟩
  rw [parsed, headersWithin_last lastSendable]
  rfl

theorem first_line (unbroken : ¬crlf <:+: line) (cut : rest <+: crlf ++ more) :
    (line ++ rest).take ((find crlf (line ++ rest)).getD (line ++ rest).length) = line ∨
      (line ++ rest).take ((find crlf (line ++ rest)).getD (line ++ rest).length) =
        line ++ [13] := by
  rcases rest with _ | ⟨one, _ | ⟨two, rest⟩⟩
  · left
    rw [List.append_nil, find_eq_none_iff_absent.mpr unbroken, Option.getD_none, List.take_length]
  · right
    have same : one = 13 := (List.cons_prefix_cons.mp cut).1
    subst same
    have absent : find crlf (line ++ [13]) = none := by
      apply find_eq_none_iff.mpr
      intro position _ occurs
      by_cases inside : position < line.length
      · rw [List.drop_append_of_le_length inside.le] at occurs
        rcases isPrefix_append_cases (by simpa using inside) occurs with within | ⟨_, starts, again⟩
        · exact unbroken (within.isInfix.trans (List.drop_suffix position line).isInfix)
        · cases starts
          exact absurd again (by decide)
      · have short := occurs.length_le
        simp only [List.length_drop, List.length_append, List.length_singleton] at short
        have two : crlf.length = 2 := rfl
        omega
    rw [absent, Option.getD_none, List.take_length]
  · left
    have shape : one = 13 ∧ two = 10 := by
      rcases List.cons_prefix_cons.mp cut with ⟨first, later⟩
      exact ⟨first, (List.cons_prefix_cons.mp later).1⟩
    rcases shape with ⟨rfl, rfl⟩
    have found : find crlf (line ++ 13 :: 10 :: rest) = some line.length :=
      find_crlf_append unbroken rest
    rw [found, Option.getD_some, List.take_left]

theorem headersWithin_malformed (nonempty : line ≠ []) (colon : 58 ∉ line)
    (unbroken : ¬crlf <:+: line) (cut : rest <+: crlf ++ more) (fuel : ℕ) :
    headersWithin (fuel + 1) (line ++ rest) =
      .error (.runtime "corouv::multipart malformed part header") := by
  rcases first_line unbroken cut with first | first
  · have absent : find (ascii ":") line = none := find_eq_none_of_notMem colon
    simp only [headersWithin, first, if_neg nonempty, absent]
    rfl
  · have longer : 58 ∉ line ++ [13] := by simp [colon]
    have absent : find (ascii ":") (line ++ [13]) = none := find_eq_none_of_notMem longer
    have some : line ++ [13] ≠ [] := by simp
    simp only [headersWithin, first, if_neg some, absent]
    rfl

/-- The fields that `serialize` writes. -/
def wireHeaders (part : Part) : Headers :=
  ⟨ascii "Content-Disposition", dispositionValue part.name part.filename⟩ ::
    ((if part.contentType ≠ [] then [⟨ascii "Content-Type", part.contentType⟩] else []) ++
      extraHeaders part)

/-- The bytes that names and file names are free of. -/
def quoteBreakers : Bytes := [34, 92, 59, 13, 10]

/-- The parts that are written; a line break in the name of an extra field is not
excluded. -/
structure Part.Conforms (boundary : Bytes) (part : Part) : Prop where
  named : part.name ≠ []
  name : ∀ byte ∈ part.name, byte ∉ quoteBreakers
  filename : ∀ text ∈ part.filename, ∀ byte ∈ text, byte ∉ quoteBreakers
  contentType : trimCopy part.contentType = part.contentType ∧
    13 ∉ part.contentType ∧ 10 ∉ part.contentType
  extraNames : ∀ header ∈ extraHeaders part,
    58 ∉ header.name ∧ trimCopy header.name = header.name
  extraValues : ∀ header ∈ extraHeaders part,
    trimCopy header.value = header.value ∧ 13 ∉ header.value ∧ 10 ∉ header.value
  body : ¬crlf ++ ascii "--" ++ boundary <:+: part.body

structure Conforms (boundary : Bytes) : Prop where
  nonempty : boundary ≠ []
  plain : ∀ byte ∈ boundary, byte ∉ ([13, 10, 59, 34] : Bytes)
  trimmed : trimCopy boundary = boundary

/-- No line break in the name of an extra field. -/
def Unbroken (part : Part) : Prop :=
  ∀ header ∈ extraHeaders part, ¬crlf <:+: header.name

section Part

variable {boundary : Bytes} {part : Part}

variable {name : Bytes}

theorem notMem_dispositionValue {byte : UInt8} {filename : Option Bytes}
    (frame : byte ∉ ascii "form-data; name=\"; filename=") (nameApart : byte ∉ name)
    (filenameApart : ∀ text ∈ filename, byte ∉ text) : byte ∉ dispositionValue name filename := by
  have letters : ∀ text : Bytes, text ⊆ ascii "form-data; name=\"; filename=" → byte ∉ text :=
    fun text inside member => frame (inside member)
  cases filename with
  | none =>
      simp only [dispositionValue, Option.elim_none, List.append_nil, List.mem_append, not_or]
      exact ⟨⟨letters _ (by decide), nameApart⟩, letters _ (by decide)⟩
  | some text =>
      simp only [dispositionValue, Option.elim_some, List.mem_append, not_or]
      exact ⟨⟨⟨letters _ (by decide), nameApart⟩, letters _ (by decide)⟩,
        ⟨letters _ (by decide), filenameApart text rfl⟩, letters _ (by decide)⟩

theorem trimCopy_dispositionValue (name : Bytes) (filename : Option Bytes) :
    trimCopy (dispositionValue name filename) = dispositionValue name filename := by
  apply trimCopy_of_ends
  · intro _ first
    cases filename <;> cases first <;> rfl
  · intro _ last
    have closes : (dispositionValue name filename).getLast? = some 34 := by
      cases filename with
      | none =>
          rw [dispositionValue, Option.elim_none, List.append_nil]
          exact List.getLast?_concat
      | some _ =>
          rw [dispositionValue, Option.elim_some, ← List.append_assoc]
          exact List.getLast?_concat
    cases closes.symm.trans last
    rfl

theorem sendable_of_plain {value : Bytes} (colon : 58 ∉ name) (nameTrimmed : trimCopy name = name)
    (nameUnbroken : ¬crlf <:+: name) (valueTrimmed : trimCopy value = value)
    (noReturn : 13 ∉ value) :
    Header.Sendable ⟨name, value⟩ :=
  ⟨colon, nameTrimmed, valueTrimmed, not_crlf_infix_headerLine nameUnbroken noReturn⟩

section

variable (conforms : part.Conforms boundary)
include conforms

theorem Part.Conforms.sendable_disposition :
    Header.Sendable ⟨ascii "Content-Disposition", dispositionValue part.name part.filename⟩ := by
  apply sendable_of_plain (by decide) (by decide) (not_crlf_infix_of_notMem (by decide))
  · exact trimCopy_dispositionValue _ _
  · apply notMem_dispositionValue (by decide)
    · intro member
      exact conforms.name 13 member (by decide)
    · intro text found member
      exact conforms.filename text found 13 member (by decide)

theorem Part.Conforms.sendable_contentType :
    Header.Sendable ⟨ascii "Content-Type", part.contentType⟩ :=
  sendable_of_plain (by decide) (by decide) (not_crlf_infix_of_notMem (by decide))
    conforms.contentType.1 conforms.contentType.2.1

theorem Part.Conforms.sendable_extra {header : Header} (member : header ∈ extraHeaders part)
    (unbroken : ¬crlf <:+: header.name) : header.Sendable := by
  rcases conforms.extraNames header member with ⟨colon, nameTrimmed⟩
  rcases conforms.extraValues header member with ⟨valueTrimmed, noReturn, -⟩
  exact sendable_of_plain colon nameTrimmed unbroken valueTrimmed noReturn

theorem Part.Conforms.sendable {extra : Headers} (among : extra ⊆ extraHeaders part)
    (unbroken : ∀ header ∈ extra, ¬crlf <:+: header.name) :
    ∀ header ∈ (⟨ascii "Content-Disposition", dispositionValue part.name part.filename⟩ ::
      ((if part.contentType ≠ [] then [⟨ascii "Content-Type", part.contentType⟩] else []) ++
        extra) : Headers), header.Sendable := by
  intro header member
  rcases List.mem_cons.mp member with rfl | member
  · exact conforms.sendable_disposition
  · rcases List.mem_append.mp member with typed | member
    · split at typed
      · rw [List.mem_singleton.mp typed]
        exact conforms.sendable_contentType
      · cases typed
    · exact conforms.sendable_extra (among member) (unbroken header member)

end

theorem serializePart_eq (boundary : Bytes) (part : Part) :
    serializePart boundary part = ascii "--" ++ boundary ++ (crlf ++
      (serializeHeaders (wireHeaders part) ++ (crlf ++ (part.body ++ crlf)))) := by
  by_cases typed : part.contentType = []
  · simp [serializePart, wireHeaders, serializeHeaders, typed, ascii]
  · simp [serializePart, wireHeaders, serializeHeaders, typed, ascii]

theorem foldlM_applyHeader_extra {headers : Headers} (part : Part)
    (extra : ∀ header ∈ headers, iequals header.name (ascii "Content-Disposition") = false ∧
      iequals header.name (ascii "Content-Type") = false) :
    headers.foldlM applyHeader part = .ok part := by
  induction headers with
  | nil => rfl
  | cons header _ ih =>
      rcases extra header List.mem_cons_self with ⟨noDisposition, noType⟩
      have unchanged : applyHeader part header = .ok part := by
        simp [applyHeader, noDisposition, noType, pure, Except.pure]
      rw [List.foldlM_cons, unchanged]
      exact ih fun other member => extra other (List.mem_cons_of_mem header member)

theorem of_mem_extraHeaders {header : Header} (member : header ∈ extraHeaders part) :
    iequals header.name (ascii "Content-Disposition") = false ∧
      iequals header.name (ascii "Content-Type") = false := by
  have kept := (List.mem_filter.mp member).2
  simpa [not_or] using kept

variable {text : Bytes}

theorem notMem_of_conforms {byte : UInt8} (plain : ∀ byte ∈ text, byte ∉ quoteBreakers)
    (breaks : byte ∈ quoteBreakers) : byte ∉ text :=
  fun member => plain byte member breaks

theorem unescape_of_conforms (plain : ∀ byte ∈ text, byte ∉ quoteBreakers) :
    unescape text = text := by
  apply unescape_eq_self_iff.mpr
  intro member
  exact notMem_of_conforms plain (by decide) (List.dropLast_subset _ member)

theorem Part.Conforms.foldlM_applyHeader (conforms : part.Conforms boundary)
    (headers : Headers) :
    (wireHeaders part).foldlM applyHeader { headers := headers } =
      .ok { name := part.name, filename := part.filename, contentType := part.contentType,
            headers := headers } := by
  have disposition : applyHeader { headers := headers }
      ⟨ascii "Content-Disposition", dispositionValue part.name part.filename⟩ =
      .ok { name := part.name, filename := part.filename, headers := headers } := by
    have named : iequals (ascii "Content-Disposition") (ascii "Content-Disposition") = true :=
      iequals_refl _
    have nameApart : 59 ∉ part.name := notMem_of_conforms conforms.name (by decide)
    have filenameApart : ∀ text ∈ part.filename, 59 ∉ text := fun text found =>
      notMem_of_conforms (conforms.filename text found) (by decide)
    have filenameSame : part.filename.map unescape = part.filename := by
      cases found : part.filename with
      | none => rfl
      | some text => rw [Option.map_some, unescape_of_conforms (conforms.filename text found)]
    simp only [applyHeader, named, if_true]
    rw [parseContentDisposition_quotable rfl rfl nameApart filenameApart,
      unescape_of_conforms conforms.name, filenameSame]
  have extras : ∀ before : Part, (extraHeaders part).foldlM applyHeader before = .ok before :=
    fun before => foldlM_applyHeader_extra before fun _ member => of_mem_extraHeaders member
  rw [wireHeaders, List.foldlM_cons, disposition]
  by_cases typed : part.contentType = []
  · rw [if_neg (by simpa using typed), List.nil_append, typed]
    exact extras _
  · rw [if_pos typed]
    exact extras _

theorem extraHeaders_wireHeaders (part : Part) :
    extraHeaders { part with headers := wireHeaders part } = extraHeaders part := by
  have disposition : iequals (ascii "Content-Disposition") (ascii "Content-Disposition") = true :=
    iequals_refl _
  have typed : iequals (ascii "Content-Type") (ascii "Content-Type") = true := iequals_refl _
  have twice : (extraHeaders part).filter (fun header =>
      !(iequals header.name (ascii "Content-Disposition") ||
        iequals header.name (ascii "Content-Type"))) = extraHeaders part := by
    rw [extraHeaders, List.filter_filter]
    simp
  by_cases none : part.contentType = []
  · rw [extraHeaders, wireHeaders, if_neg (by simpa using none), List.nil_append]
    simp only [List.filter_cons, disposition, Bool.true_or, Bool.not_true, Bool.false_eq_true,
      if_false]
    exact twice
  · rw [extraHeaders, wireHeaders, if_pos none]
    simp only [List.filter_cons, List.singleton_append, disposition, typed, Bool.true_or,
      Bool.or_true, Bool.not_true, Bool.false_eq_true, if_false]
    exact twice

/-- The part as it is read: its fields are those that were written. -/
def received (part : Part) : Part :=
  { part with headers := wireHeaders part }

theorem find_delimiter (boundaryConforms : Conforms boundary) {body : Bytes}
    (absent : ¬crlf ++ ascii "--" ++ boundary <:+: body) (rest : Bytes) :
    find (crlf ++ ascii "--" ++ boundary) (body ++ (crlf ++ ascii "--" ++ boundary ++ rest)) =
      some body.length := by
  have single : 13 ∉ 10 :: (ascii "--" ++ boundary) := by
    simp only [List.mem_cons, List.mem_append, not_or]
    refine ⟨by decide, by decide, ?_⟩
    intro member
    exact boundaryConforms.plain 13 member (by decide)
  exact find_append_of_absent single absent rest

/-- An unbroken part is parsed back up to the next boundary. -/
theorem parsePart_received (boundaryConforms : Conforms boundary)
    (conforms : part.Conforms boundary) (unbroken : Unbroken part) {maxPartBytes : ℕ}
    (small : part.body.length ≤ maxPartBytes) (rest : Bytes) :
    parsePart boundary maxPartBytes (serializeHeaders (wireHeaders part) ++
        (crlf ++ (part.body ++ (crlf ++ ascii "--" ++ boundary ++ rest)))) =
      .ok (received part, rest) := by
  have sendable : ∀ header ∈ wireHeaders part, header.Sendable :=
    conforms.sendable (List.Subset.refl _) unbroken
  generalize body : part.body ++ (crlf ++ ascii "--" ++ boundary ++ rest) = content
  rcases List.eq_nil_or_concat (wireHeaders part) with none | ⟨front, last, split⟩
  · cases none
  · rw [List.concat_eq_append] at split
    have frontSendable : ∀ header ∈ front, header.Sendable := fun header member =>
      sendable header (split ▸ List.mem_append_left _ member)
    have lastSendable : last.Sendable := sendable last (split ▸ by simp)
    have text : serializeHeaders (wireHeaders part) ++ (crlf ++ content) =
        serializeHeaders front ++ headerLine last ++ (crlf ++ (crlf ++ content)) := by
      rw [split, serializeHeaders_append, serializeHeaders_cons]
      simp [serializeHeaders]
    have blank : find (crlf ++ crlf) (serializeHeaders front ++ headerLine last ++
        (crlf ++ (crlf ++ content))) = some (serializeHeaders front ++ headerLine last).length := by
      rw [List.append_assoc, find_blank_serializeHeaders frontSendable
          ( not_crlf_prefix (headerLine_ne_nil last) lastSendable.line _),
        find_blank_line lastSendable.line, List.length_append, Option.map_some, Nat.add_comm]
    have behind : (serializeHeaders front ++ headerLine last ++ (crlf ++ (crlf ++ content))).drop
          ((serializeHeaders front ++ headerLine last).length + 4) = content := by
      rw [← List.drop_drop, List.drop_left]
      rfl
    have fields := conforms.foldlM_applyHeader (wireHeaders part)
    rw [text]
    simp only [parsePart, blank, List.take_left, behind,
      parseHeadersBlock_sendable frontSendable lastSendable, ← split]
    subst body
    have delimited := find_delimiter boundaryConforms conforms.body rest
    have length : part.body.length + 2 + (ascii "--" ++ boundary).length =
        part.body.length + (crlf ++ ascii "--" ++ boundary).length := by
      simp [crlf]
      omega
    have later : (part.body ++ (crlf ++ ascii "--" ++ boundary ++ rest)).drop
        (part.body.length + 2 + (ascii "--" ++ boundary).length) = rest := by
      rw [length, ← List.drop_drop, List.drop_left, List.drop_left]
    have within : ¬part.body.length > maxPartBytes := by omega
    simp only [bind, Except.bind, fields, if_neg conforms.named, delimited, List.take_left, later,
      if_neg within]
    rfl

theorem exists_first_broken (broken : ¬Unbroken part) :
    ∃ front bad back, extraHeaders part = front ++ bad :: back ∧
      (∀ header ∈ front, ¬crlf <:+: header.name) ∧ crlf <:+: bad.name := by
  cases found : (extraHeaders part).find? fun header => decide (crlf <:+: header.name) with
  | none =>
      exfalso
      apply broken
      intro header member
      simpa using List.find?_eq_none.mp found header member
  | some bad =>
      rcases List.find?_eq_some_iff_append.mp found with ⟨breaks, front, back, split, clean⟩
      refine ⟨front, bad, back, split, ?_, by simpa using breaks⟩
      intro header member
      simpa using clean header member

theorem broken_name (trimmed : trimCopy name = name) (breaks : crlf <:+: name) :
    ∃ line rest, name = line ++ (crlf ++ rest) ∧ line ≠ [] ∧ ¬crlf <:+: line := by
  cases found : find crlf name with
  | none => exact absurd breaks (find_eq_none_iff_absent.mp found)
  | some position =>
      rcases find_split (by decide) found with ⟨split, unbroken⟩
      refine ⟨name.take position, _, split, ?_, unbroken⟩
      intro none
      rw [none, List.nil_append] at split
      have first : 13 ∈ name.head? := by
        rw [split]
        rfl
      exact absurd ((ends_of_trimCopy trimmed).1 13 first) (by decide)

/-- A line break in the name of an extra field makes the part unreadable. -/
theorem parsePart_broken (conforms : part.Conforms boundary) (broken : ¬Unbroken part)
    (maxPartBytes : ℕ) (text : Bytes) :
    ∃ error, parsePart boundary maxPartBytes
      (serializeHeaders (wireHeaders part) ++ (crlf ++ text)) = .error error := by
  rcases exists_first_broken broken with ⟨extra, bad, back, split, clean, breaks⟩
  have badExtra : bad ∈ extraHeaders part := split ▸ by simp
  rcases conforms.extraNames bad badExtra with ⟨colon, trimmed⟩
  rcases broken_name trimmed breaks with ⟨line, rest, name, nonempty, unbroken⟩
  have noColon : 58 ∉ line := fun member => colon (name ▸ List.mem_append_left _ member)
  have fields : ∃ front, wireHeaders part = front ++ bad :: back ∧
      ∀ header ∈ front, header.Sendable := by
    refine ⟨⟨ascii "Content-Disposition", dispositionValue part.name part.filename⟩ ::
      ((if part.contentType ≠ [] then [⟨ascii "Content-Type", part.contentType⟩] else []) ++
        extra), ?_, ?_⟩
    · rw [wireHeaders, split, List.cons_append, List.append_assoc]
    · exact conforms.sendable (split ▸ List.subset_append_left _ _) clean
  rcases fields with ⟨front, fields, sendable⟩
  have shape : ∃ more, serializeHeaders (wireHeaders part) ++ (crlf ++ text) =
      serializeHeaders front ++ (line ++ (crlf ++ more)) := by
    refine ⟨rest ++ ascii ": " ++ bad.value ++ (crlf ++ serializeHeaders back) ++
      (crlf ++ text), ?_⟩
    rw [fields, serializeHeaders_append, serializeHeaders_cons, headerLine, name]
    simp
  rcases shape with ⟨more, shape⟩
  have starts := not_crlf_prefix nonempty unbroken more
  rw [shape, parsePart, find_blank_serializeHeaders sendable starts]
  cases blank : find (crlf ++ crlf) (line ++ (crlf ++ more)) with
  | none => exact ⟨_, rfl⟩
  | some position =>
      have late : line.length ≤ position := by
        by_contra early
        have first := (find_eq_some_iff.mp (find_crlf_append unbroken more)).2.2 position (by omega)
        exact first ((List.prefix_append _ _).trans (find_eq_some_iff.mp blank).1)
      have block : (serializeHeaders front ++ (line ++ (crlf ++ more))).take
          (position + (serializeHeaders front).length) =
          serializeHeaders front ++ (line ++ (crlf ++ more).take (position - line.length)) := by
        rw [Nat.add_comm, List.take_length_add_append, List.take_append,
          List.take_of_length_le late]
      have someLine : line ++ (crlf ++ more).take (position - line.length) ≠ [] := by
        simp [nonempty]
      rcases parseHeadersBlock_append sendable someLine with ⟨_, parsed⟩
      rw [headersWithin_malformed nonempty noColon unbroken (List.take_prefix _ _)] at parsed
      simp only [Option.map_some, block, parsed]
      exact ⟨_, rfl⟩

end Part

/-- The boundary is read back from the content type that was built with it. -/
theorem boundaryFromContentType_build {boundary : Bytes} (conforms : Conforms boundary) :
    boundaryFromContentType (buildContentType boundary) = some boundary := by
  have apart : 59 ∉ ascii " boundary=" ++ boundary := by
    simp only [List.mem_append, not_or]
    refine ⟨by decide, ?_⟩
    intro member
    exact conforms.plain 59 member (by decide)
  have split : buildContentType boundary =
      ascii "multipart/form-data" ++ 59 :: (ascii " boundary=" ++ boundary) := by
    simp [buildContentType, ascii]
  have front : parameterTokens (ascii "multipart/form-data") = [ascii "multipart/form-data"] := by
    decide +kernel
  have trimmed : trimCopy (ascii " boundary=" ++ boundary) = ascii "boundary=" ++ boundary := by
    have spaced : ascii " boundary=" ++ boundary =
        ascii " " ++ (ascii "boundary=" ++ boundary) := by
      simp [ascii]
    rw [spaced, trimCopy_space]
    apply trimCopy_of_ends
    · rintro byte ⟨⟩
      rfl
    · intro byte last
      rw [List.getLast?_append_of_ne_nil _ conforms.nonempty] at last
      exact (ends_of_trimCopy conforms.trimmed).2 byte last
  have tokens : parameterTokens (buildContentType boundary) =
      [ascii "multipart/form-data", ascii "boundary=" ++ boundary] := by
    rw [split, parameterTokens_append, front, parameterTokens, List.splitOn_eq_singleton apart,
      List.map_singleton, trimmed]
    rfl
  have found : find (ascii "=") (ascii "boundary=" ++ boundary) = some 8 := by
    have shape : ascii "boundary=" ++ boundary = ascii "boundary" ++ ascii "=" ++ boundary := by
      simp [ascii]
    rw [shape]
    exact find_append_of_notMem (by decide)
  have key : (ascii "boundary=" ++ boundary).take 8 = ascii "boundary" := by
    simp [ascii]
  have value : (ascii "boundary=" ++ boundary).drop (8 + 1) = boundary := by
    simp [ascii]
  have unquoted : unquote boundary = boundary := by
    rw [unquote, if_neg, conforms.trimmed]
    rintro ⟨-, first, -⟩
    exact conforms.plain 34 (List.mem_of_mem_head? first) (by decide)
  have kind : iequals (ascii "multipart/form-data") (ascii "multipart/form-data") = true :=
    iequals_refl _
  have keyed : iequals (trimCopy (ascii "boundary")) (ascii "boundary") = true := by decide
  have someKind : ascii "multipart/form-data" ≠ [] := by decide
  have someToken : ascii "boundary=" ++ boundary ≠ [] := by simp [ascii]
  rw [boundaryFromContentType, tokens]
  simp only [boundaryOfTokens, if_neg someKind, if_neg someToken, if_true, kind, found, key,
    keyed, value, unquoted, Bool.false_eq_true, if_false]

/-- The text behind a delimiter. -/
def behind (boundary : Bytes) : List Part → Bytes
  | [] => ascii "--" ++ crlf
  | part :: rest =>
      crlf ++ (serializeHeaders (wireHeaders part) ++
        (crlf ++ (part.body ++ (crlf ++ ascii "--" ++ boundary ++ behind boundary rest))))

theorem flatMap_serializePart (boundary : Bytes) (parts : List Part) :
    parts.flatMap (serializePart boundary) ++ (ascii "--" ++ boundary ++ ascii "--" ++ crlf) =
      ascii "--" ++ boundary ++ behind boundary parts := by
  induction parts with
  | nil => simp [behind]
  | cons _ _ ih =>
      rw [List.flatMap_cons, List.append_assoc, ih, serializePart_eq, behind]
      simp

theorem length_le_behind (boundary : Bytes) (parts : List Part) :
    parts.length ≤ (behind boundary parts).length := by
  induction parts with
  | nil => exact Nat.zero_le _
  | cons _ _ _ =>
      have two : crlf.length = 2 := rfl
      simp only [behind, List.length_append, List.length_cons]
      omega

theorem take_behind_cons (boundary : Bytes) (part : Part) (rest : List Part) :
    (behind boundary (part :: rest)).take 2 = crlf ∧
      (behind boundary (part :: rest)).drop 2 =
        serializeHeaders (wireHeaders part) ++
          (crlf ++ (part.body ++ (crlf ++ ascii "--" ++ boundary ++ behind boundary rest))) :=
  ⟨rfl, rfl⟩

section Form

variable {boundary : Bytes} {maxParts maxPartBytes fuel : ℕ} {before : List Part} {part : Part}
  {rest : List Part}

theorem parseParts_cons (boundaryConforms : Conforms boundary)
    (conforms : part.Conforms boundary) (unbroken : Unbroken part)
    (small : part.body.length ≤ maxPartBytes) (room : before.length + 1 ≤ maxParts) :
    parseParts boundary maxParts maxPartBytes (fuel + 1) before (behind boundary (part :: rest)) =
      if rest = [] then .ok ⟨before ++ [received part]⟩
      else parseParts boundary maxParts maxPartBytes fuel (before ++ [received part])
        (behind boundary rest) := by
  rcases take_behind_cons boundary part rest with ⟨starts, text⟩
  have goesOn : crlf ≠ ascii "--" := by decide
  have within : ¬(before ++ [received part]).length > maxParts := by
    simp only [List.length_append, List.length_singleton]
    omega
  rw [parseParts, starts, if_neg goesOn, if_neg (not_not.mpr rfl), text,
    parsePart_received boundaryConforms conforms unbroken small]
  simp only [bind, Except.bind, if_neg within]
  cases rest with
  | nil => rfl
  | cons next more =>
      rw [(take_behind_cons boundary next more).1, if_neg goesOn, if_neg (by simp)]

theorem parseParts_broken (conforms : part.Conforms boundary) (broken : ¬Unbroken part) :
    ∃ error, parseParts boundary maxParts maxPartBytes (fuel + 1) before
      (behind boundary (part :: rest)) = .error error := by
  rcases take_behind_cons boundary part rest with ⟨starts, text⟩
  have goesOn : crlf ≠ ascii "--" := by decide
  rcases parsePart_broken conforms broken maxPartBytes
    (part.body ++ (crlf ++ ascii "--" ++ boundary ++ behind boundary rest)) with ⟨error, failed⟩
  rw [parseParts, starts, if_neg goesOn, if_neg (not_not.mpr rfl), text, failed]
  exact ⟨error, rfl⟩

/-- The loop over the parts: read back if all are unbroken, an error if one is not. -/
theorem parseParts_behind (boundaryConforms : Conforms boundary) (parts : List Part) :
    ∀ {fuel : ℕ} {before : List Part}, parts.length < fuel →
      before.length + parts.length ≤ maxParts →
      (∀ part ∈ parts, part.Conforms boundary) →
      (∀ part ∈ parts, part.body.length ≤ maxPartBytes) →
      ((∀ part ∈ parts, Unbroken part) ∧
        parseParts boundary maxParts maxPartBytes fuel before (behind boundary parts) =
          .ok ⟨before ++ parts.map received⟩) ∨
      ((¬∀ part ∈ parts, Unbroken part) ∧
        ∃ error, parseParts boundary maxParts maxPartBytes fuel before (behind boundary parts) =
          .error error) := by
  induction parts with
  | nil =>
      intro fuel before enough _ _ _
      cases fuel with
      | zero => cases enough
      | succ fuel =>
          left
          have closes : (behind boundary []).take 2 = ascii "--" := rfl
          rw [parseParts, if_pos closes, List.map_nil, List.append_nil]
          exact ⟨by simp, rfl⟩
  | cons part rest ih =>
      intro fuel before enough few conforms small
      cases fuel with
      | zero => cases enough
      | succ fuel =>
          rw [List.length_cons] at few enough
          have here := conforms part List.mem_cons_self
          by_cases unbroken : Unbroken part
          · rw [parseParts_cons boundaryConforms here unbroken (small part List.mem_cons_self)
              (by omega)]
            have room : (before ++ [received part]).length + rest.length ≤ maxParts := by
              simp only [List.length_append, List.length_singleton]
              omega
            have later := ih (by omega : rest.length < fuel) room
              (fun other member => conforms other (List.mem_cons_of_mem part member))
              (fun other member => small other (List.mem_cons_of_mem part member))
            cases rest with
            | nil =>
                left
                exact ⟨by simpa using unbroken, rfl⟩
            | cons next more =>
                rw [if_neg (List.cons_ne_nil next more)]
                rcases later with ⟨fine, done⟩ | ⟨broken, failed⟩
                · left
                  refine ⟨List.forall_mem_cons.mpr ⟨unbroken, fine⟩, ?_⟩
                  rw [done, List.append_assoc]
                  rfl
                · right
                  exact ⟨fun all => broken (List.forall_mem_cons.mp all).2, failed⟩
          · right
            refine ⟨fun all => unbroken (all part List.mem_cons_self), ?_⟩
            exact parseParts_broken here unbroken

end Form

/-- What a part keeps on its way: everything but the two fields that describe it, which are
written anew. -/
structure SamePart (sent got : Part) : Prop where
  name : got.name = sent.name
  filename : got.filename = sent.filename
  contentType : got.contentType = sent.contentType
  body : got.body = sent.body
  extra : extraHeaders got = extraHeaders sent

theorem samePart_received (part : Part) : SamePart part (received part) :=
  ⟨rfl, rfl, rfl, rfl, extraHeaders_wireHeaders part⟩

theorem parse_serialize (form : FormData) {boundary : Bytes} (conforms : Conforms boundary)
    (maxParts maxPartBytes : ℕ) :
    ∃ body fuel, serialize form boundary = .ok body ∧ form.parts.length < fuel ∧
      parse (buildContentType boundary) body maxParts maxPartBytes =
        parseParts boundary maxParts maxPartBytes fuel [] (behind boundary form.parts) := by
  have opening : ascii "--" ++ boundary <+: ascii "--" ++ boundary ++ behind boundary form.parts :=
    List.prefix_append _ _
  refine ⟨ascii "--" ++ boundary ++ behind boundary form.parts,
    (ascii "--" ++ boundary ++ behind boundary form.parts).length + 1, ?_, ?_, ?_⟩
  · rw [serialize, if_neg conforms.nonempty, flatMap_serializePart]
    rfl
  · have counted := length_le_behind boundary form.parts
    rw [List.length_append]
    omega
  · simp [parse, boundaryFromContentType_build conforms, if_neg conforms.nonempty]

/-- A form comes back part by part, exactly if no name of an extra field has a line break in
it. -/
theorem form_round_trip_iff {form : FormData} {boundary : Bytes} {maxParts maxPartBytes : ℕ}
    (boundaryConforms : Conforms boundary)
    (conforms : ∀ part ∈ form.parts, part.Conforms boundary)
    (few : form.parts.length ≤ maxParts)
    (small : ∀ part ∈ form.parts, part.body.length ≤ maxPartBytes) :
    (∃ body parsed, serialize form boundary = .ok body ∧
        parse (buildContentType boundary) body maxParts maxPartBytes = .ok parsed ∧
        List.Forall₂ SamePart form.parts parsed.parts) ↔
      ∀ part ∈ form.parts, ∀ header ∈ extraHeaders part, ¬crlf <:+: header.name := by
  rcases parse_serialize form boundaryConforms maxParts maxPartBytes with
    ⟨body, _, written, enough, parsed⟩
  have room : ([] : List Part).length + form.parts.length ≤ maxParts := by simpa using few
  rcases parseParts_behind boundaryConforms form.parts enough room conforms small with
    ⟨unbroken, done⟩ | ⟨broken, _, failed⟩
  · refine iff_of_true ⟨body, _, written, parsed.trans done, ?_⟩ unbroken
    rw [List.nil_append, List.forall₂_map_right_iff, List.forall₂_same]
    exact fun part _ => samePart_received part
  · refine iff_of_false ?_ broken
    rintro ⟨_, _, again, accepted, -⟩
    cases written.symm.trans again
    cases accepted.symm.trans (parsed.trans failed)

/-- A file whose body ends in the start of a delimiter. -/
def exampleForm : FormData :=
  ⟨[{ name := ascii "a", filename := some (ascii "f"), contentType := ascii "text/plain",
      headers := [⟨ascii "X-Id", ascii "7"⟩], body := ascii "x\r\n--" }]⟩

theorem exampleForm_round_trip :
    ∃ body parsed, serialize exampleForm (ascii "B") = .ok body ∧
      parse (buildContentType (ascii "B")) body 1 5 = .ok parsed ∧
      List.Forall₂ SamePart exampleForm.parts parsed.parts := by
  apply (form_round_trip_iff ⟨by decide, by decide +kernel, by decide +kernel⟩ ?_
    (by decide) (by decide +kernel)).mpr
  · decide +kernel
  · intro _ member
    cases List.mem_singleton.mp member
    exact ⟨by decide +kernel, by decide +kernel, by decide +kernel, by decide +kernel,
      by decide +kernel, by decide +kernel, by decide +kernel⟩

/-- A form with a line break in the name of an extra field is written and not read. -/
theorem broken_name_refused :
    ∃ form : FormData, (∀ part ∈ form.parts, part.Conforms (ascii "B")) ∧
      Conforms (ascii "B") ∧ form.parts.length ≤ 1 ∧
      (∀ part ∈ form.parts, part.body.length ≤ 1) ∧
      ∃ body, serialize form (ascii "B") = .ok body ∧
        parse (buildContentType (ascii "B")) body 1 1 =
          .error (.runtime "corouv::multipart malformed part header") := by
  refine ⟨⟨[{ name := ascii "a", headers := [⟨ascii "x\r\ny", ascii "1"⟩] }]⟩, ?_,
    ⟨by decide, by decide +kernel, by decide +kernel⟩, by decide, by decide, _, rfl,
    by decide +kernel⟩
  intro _ member
  cases List.mem_singleton.mp member
  exact ⟨by decide +kernel, by decide +kernel, by decide +kernel, by decide +kernel,
    by decide +kernel, by decide +kernel, by decide +kernel⟩

end Corouv.Multipart
