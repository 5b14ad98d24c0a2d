import Corouv.Multipart

/-!
# The names of a part

`serialize` writes names and file names between quotes as they are.  The parser splits the
field at every semicolon, also at one between quotes, and reads a backslash as an escape.
What is read back is what was written exactly if there is no semicolon in it and no
backslash but the last byte.
-/

namespace Corouv.Multipart

open Library Http

variable {text : Bytes} {byte : UInt8}

theorem mem_of_mem_unescape (member : byte ∈ unescape text) : byte ∈ text := by
  fun_induction unescape text with
  | case1 => exact member
  | case2 => exact member
  | case3 _ _ ih =>
      rcases List.mem_cons.mp member with rfl | later
      · simp
      · exact List.mem_cons_of_mem _ (List.mem_cons_of_mem _ (ih later))
  | case4 _ _ _ _ ih =>
      rcases List.mem_cons.mp member with rfl | later
      · exact List.mem_cons_self
      · exact List.mem_cons_of_mem _ (ih later)

theorem length_unescape_le (text : Bytes) : (unescape text).length ≤ text.length := by
  fun_induction unescape text with
  | case1 => exact Nat.le_refl _
  | case2 => exact Nat.le_refl _
  | case3 _ _ ih =>
      simp only [List.length_cons]
      omega
  | case4 _ _ _ _ ih =>
      simp only [List.length_cons] at ih ⊢
      omega

theorem unescape_eq_self_iff : unescape text = text ↔ 92 ∉ text.dropLast := by
  fun_induction unescape text with
  | case1 => simp
  | case2 => simp
  | case3 _ rest ih =>
      -- A byte is lost.
      have shorter := length_unescape_le rest
      constructor
      · intro same
        have lengths := congrArg List.length same
        simp only [List.length_cons] at lengths
        omega
      · intro absent
        simp at absent
  | case4 _ _ _ differs ih =>
      simp only [List.cons.injEq, true_and, ih, List.dropLast_cons_cons, List.mem_cons, not_or]
      exact ⟨fun absent => ⟨fun same => differs same.symm, absent⟩, fun absent => absent.2⟩

/-- The escapes that the parser undoes. -/
def escape (text : Bytes) : Bytes :=
  text.flatMap fun byte => if byte = 34 ∨ byte = 92 then [92, byte] else [byte]

theorem escape_cons (byte : UInt8) (text : Bytes) :
    escape (byte :: text) =
      (if byte = 34 ∨ byte = 92 then [92, byte] else [byte]) ++ escape text :=
  rfl

theorem unescape_escape (text : Bytes) : unescape (escape text) = text := by
  induction text with
  | nil => rfl
  | cons byte rest ih =>
      rw [escape_cons]
      split
      · simp [unescape, ih]
      next plain =>
        have differs : byte ≠ 92 := fun same => plain (.inr same)
        cases later : escape rest with
        | nil =>
            rw [later] at ih
            simp [unescape, ← ih]
        | cons _ _ =>
            rw [later] at ih
            simp [unescape, if_neg differs, ih]

theorem notMem_escape (absent : byte ∉ text) (plain : byte ≠ 92) : byte ∉ escape text := by
  intro member
  rcases List.mem_flatMap.mp member with ⟨_, present, written⟩
  split at written
  · rcases List.mem_cons.mp written with same | same
    · exact plain same
    · exact absent (List.mem_singleton.mp same ▸ present)
  · exact absent (List.mem_singleton.mp written ▸ present)

theorem unquote_quoted (text : Bytes) : unquote ([34] ++ text ++ [34]) = unescape text := by
  have quoted : 2 ≤ ([34] ++ text ++ [34] : Bytes).length ∧
      ([34] ++ text ++ [34] : Bytes).head? = some 34 ∧
      ([34] ++ text ++ [34] : Bytes).getLast? = some 34 := by
    exact ⟨by simp, by simp, List.getLast?_concat⟩
  rw [unquote, if_pos quoted]
  simp

theorem mem_of_mem_unquote {value : Bytes} (member : byte ∈ unquote value) : byte ∈ value := by
  rw [unquote] at member
  split at member
  · exact List.mem_of_mem_tail (List.dropLast_subset _ (mem_of_mem_unescape member))
  · exact (isInfix_trimCopy value).subset member

theorem length_unquote_le (value : Bytes) : (unquote value).length ≤ value.length := by
  rw [unquote]
  split
  · have shorter := length_unescape_le value.tail.dropLast
    simp only [List.length_dropLast, List.length_tail] at shorter
    omega
  · exact (isInfix_trimCopy value).length_le

theorem length_encodedPart_le (value : Bytes) : (encodedPart value).length ≤ value.length := by
  rw [encodedPart]
  split
  · exact Nat.le_refl _
  · split
    · exact Nat.le_refl _
    · rw [List.length_drop]
      omega

theorem length_of_iequals {left right : Bytes} (same : iequals left right = true) :
    left.length = right.length := by
  simpa using congrArg List.length (beq_iff_eq.mp same)

namespace Disposition

/-- What a token can change. -/
inductive Change (state : Disposition) (token : Bytes) : Disposition → Prop
  | nothing : Change state token state
  | formData : Change state token { state with first := false }
  | name {value : Bytes} (inside : ∀ byte ∈ value, byte ∈ token) :
      Change state token { state with name := value }
  | filename {value : Bytes} (inside : ∀ byte ∈ value, byte ∈ token) :
      Change state token { state with filename := some value }
  | filenameExt {value : Bytes} (shorter : value.length + 10 ≤ token.length) :
      Change state token { state with filenameExt := some value }

variable {state state' : Disposition} {token : Bytes}

theorem change_of_parameter (read : state.parameter token = .ok state') :
    state.Change token state' := by
  simp only [parameter] at read
  split at read
  · cases read
    exact .nothing
  next eq found =>
    have inside : ∀ byte ∈ unquote (token.drop (eq + 1)), byte ∈ token :=
      fun byte member => List.mem_of_mem_drop (mem_of_mem_unquote member)
    split at read
    · cases read
      exact .name inside
    · split at read
      · cases read
        exact .filename inside
      · split at read
        next keyed =>
          rcases except_bind_eq_ok.mp read with ⟨_, decoded, same⟩
          cases same
          apply Change.filenameExt
          -- The key and the sign of equality take ten bytes.
          have key := length_of_iequals keyed
          have keyInside := (isInfix_trimCopy (token.take eq)).length_le
          have one := Percent.length_decode_le decoded
          have two := length_encodedPart_le (unquote (token.drop (eq + 1)))
          have three := length_unquote_le (token.drop (eq + 1))
          simp only [List.length_take, List.length_drop] at keyInside three
          have nine : (ascii "filename*").length = 9 := rfl
          have room := find_add_length_le found
          have single : (ascii "=").length = 1 := rfl
          omega
        · cases read
          exact .nothing

theorem change_of_step (read : state.step token = .ok state') : state.Change token state' := by
  simp only [step] at read
  split at read
  · cases read
    exact .nothing
  · split at read
    · split at read
      · cases read
        exact .formData
      · cases read
    · exact change_of_parameter read

/-- No semicolon in what has been read. -/
def Split (state : Disposition) : Prop :=
  59 ∉ state.name ∧ ∀ text ∈ state.filename, 59 ∉ text

theorem Split.change (split : state.Split) (apart : 59 ∉ token)
    (change : state.Change token state') : state'.Split := by
  cases change with
  | nothing | formData | filenameExt _ => exact split
  | name inside => exact ⟨fun member => apart (inside _ member), split.2⟩
  | filename inside =>
      refine ⟨split.1, ?_⟩
      rintro _ ⟨⟩ member
      exact apart (inside _ member)

theorem Split.fold {tokens : List Bytes} (split : state.Split)
    (apart : ∀ token ∈ tokens, 59 ∉ token)
    (read : tokens.foldlM step state = .ok state') : state'.Split := by
  refine foldlM_invariant Split ?_ split read
  intro _ _ token member split read
  exact split.change (apart token member) (change_of_step read)

theorem length_filenameExt {tokens : List Bytes} {bound : ℕ} (none : state.filenameExt = none)
    (short : ∀ token ∈ tokens, token.length ≤ bound)
    (read : tokens.foldlM step state = .ok state') :
    ∀ text ∈ state'.filenameExt, text.length + 10 ≤ bound := by
  refine foldlM_invariant (fun state => ∀ text ∈ state.filenameExt, text.length + 10 ≤ bound)
    ?_ ?_ read
  · intro _ _ token member holds read
    cases change_of_step read with
    | nothing | formData | name _ | filename _ => exact holds
    | filenameExt shorter =>
        rintro _ ⟨⟩
        exact shorter.trans (short token member)
  · rw [none]
    rintro _ ⟨⟩

end Disposition

theorem parameterTokens_append (front back : Bytes) :
    parameterTokens (front ++ 59 :: back) = parameterTokens front ++ parameterTokens back := by
  rw [parameterTokens, List.splitOn_append_cons_self, List.map_append]
  rfl

theorem of_mem_parameterTokens {value token : Bytes} (member : token ∈ parameterTokens value) :
    59 ∉ token ∧ token.length ≤ value.length := by
  rcases List.mem_map.mp member with ⟨piece, present, rfl⟩
  rcases of_mem_splitOn present with ⟨apart, inside⟩
  have trimmed := isInfix_trimCopy piece
  exact ⟨fun member => apart (trimmed.subset member), (trimmed.trans inside).length_le⟩

def quotedParameter (key text : Bytes) : Bytes :=
  key ++ ascii "=" ++ ([34] ++ text ++ [34])

theorem dispositionValue_eq (name : Bytes) (filename : Option Bytes) :
    dispositionValue name filename =
      ascii "form-data" ++ 59 :: (ascii " " ++ quotedParameter (ascii "name") name ++
        filename.elim [] fun text =>
          59 :: (ascii " " ++ quotedParameter (ascii "filename") text)) := by
  cases filename <;> simp [dispositionValue, quotedParameter, ascii]

theorem parameterTokens_quoted (key : Bytes) {text : Bytes} {first : UInt8} {rest : Bytes}
    (shape : key = first :: rest) (solid : isSpace first = false) (keyApart : 59 ∉ key)
    (apart : 59 ∉ text) :
    parameterTokens (ascii " " ++ quotedParameter key text) = [quotedParameter key text] := by
  have whole : 59 ∉ ascii " " ++ quotedParameter key text := by
    simp only [quotedParameter, List.mem_append, not_or]
    exact ⟨by decide, ⟨keyApart, by decide⟩, ⟨by decide, apart⟩, by decide⟩
  have trimmed : trimCopy (quotedParameter key text) = quotedParameter key text := by
    apply trimCopy_of_ends
    · subst shape
      rintro _ ⟨⟩
      exact solid
    · intro _ last
      have closes : (quotedParameter key text).getLast? = some 34 := by
        rw [quotedParameter, ← List.append_assoc]
        exact List.getLast?_concat
      cases closes.symm.trans last
      rfl
  rw [parameterTokens, List.splitOn_eq_singleton whole, List.map_singleton, trimCopy_space, trimmed]

namespace Disposition

theorem find_quotedParameter {key : Bytes} (apart : 61 ∉ key) (text : Bytes) :
    find (ascii "=") (quotedParameter key text) = some key.length ∧
      (quotedParameter key text).take key.length = key ∧
      (quotedParameter key text).drop (key.length + 1) = [34] ++ text ++ [34] := by
  refine ⟨find_append_of_notMem apart, ?_, ?_⟩
  · simp [quotedParameter]
  · simp [quotedParameter, ascii, List.drop_append]

variable {state : Disposition}

theorem step_quotedParameter (begun : state.first = false) (key text : Bytes) :
    state.step (quotedParameter key text) = state.parameter (quotedParameter key text) := by
  rw [step, if_neg (by simp [quotedParameter, ascii]), if_neg (by simp [begun])]

theorem step_name (begun : state.first = false) (text : Bytes) :
    state.step (quotedParameter (ascii "name") text) =
      .ok { state with name := unescape text } := by
  rcases find_quotedParameter (show 61 ∉ ascii "name" by decide) text with ⟨found, key, value⟩
  have keyed : iequals (trimCopy (ascii "name")) (ascii "name") = true := by decide
  rw [step_quotedParameter begun]
  simp only [parameter, found, key, value, unquote_quoted, keyed, if_true]
  rfl

theorem step_filename (begun : state.first = false) (text : Bytes) :
    state.step (quotedParameter (ascii "filename") text) =
      .ok { state with filename := some (unescape text) } := by
  rcases find_quotedParameter (show 61 ∉ ascii "filename" by decide) text with ⟨found, key, value⟩
  have other : iequals (trimCopy (ascii "filename")) (ascii "name") = false := by decide
  have keyed : iequals (trimCopy (ascii "filename")) (ascii "filename") = true := by decide
  rw [step_quotedParameter begun]
  simp only [parameter, found, key, value, unquote_quoted, other, keyed, if_true,
    Bool.false_eq_true, if_false]
  rfl

end Disposition

variable {part : Part} {name : Bytes}

theorem tokens_named (apart : 59 ∉ name) (filename : Option Bytes) :
    parameterTokens (dispositionValue name filename) =
      ascii "form-data" :: quotedParameter (ascii "name") name ::
        filename.elim [] fun text =>
          parameterTokens (ascii " " ++ quotedParameter (ascii "filename") text) := by
  have front : parameterTokens (ascii "form-data") = [ascii "form-data"] := by decide +kernel
  have named := parameterTokens_quoted (ascii "name") rfl (by decide) (by decide) apart
  rw [dispositionValue_eq, parameterTokens_append, front]
  cases filename with
  | none => simp [named]
  | some _ =>
      simp only [Option.elim_some, parameterTokens_append, named, List.singleton_append]

theorem foldlM_named (name : Bytes) (tokens : List Bytes) :
    (ascii "form-data" :: quotedParameter (ascii "name") name :: tokens).foldlM
        Disposition.step {} =
      tokens.foldlM Disposition.step { first := false, name := unescape name } := by
  have begins : Disposition.step {} (ascii "form-data") = .ok { first := false } := by
    decide +kernel
  have named : Disposition.step { first := false } (quotedParameter (ascii "name") name) =
      .ok { first := false, name := unescape name } := Disposition.step_name rfl name
  rw [List.foldlM_cons, begins]
  change (quotedParameter (ascii "name") name :: tokens).foldlM Disposition.step
    { first := false } = _
  rw [List.foldlM_cons, named]
  rfl

theorem parseContentDisposition_quotable {filename : Option Bytes} (unnamed : part.name = [])
    (unfiled : part.filename = none) (nameApart : 59 ∉ name)
    (filenameApart : ∀ text ∈ filename, 59 ∉ text) :
    parseContentDisposition part (dispositionValue name filename) =
      .ok { part with name := unescape name, filename := filename.map unescape } := by
  rw [parseContentDisposition, tokens_named nameApart, unnamed, unfiled]
  cases filename with
  | none =>
      rw [Option.elim_none, foldlM_named]
      rfl
  | some text =>
      have quoted := parameterTokens_quoted (ascii "filename") rfl (by decide) (by decide)
        (filenameApart text rfl)
      rw [Option.elim_some, quoted, foldlM_named, List.foldlM_cons,
        Disposition.step_filename rfl text]
      rfl

theorem parseContentDisposition_eq_ok {part' : Part} {value : Bytes}
    (parsed : parseContentDisposition part value = .ok part') :
    ∃ state, (parameterTokens value).foldlM Disposition.step { name := part.name } = .ok state ∧
      part'.name = state.name ∧
      part'.filename = (state.filenameExt <|> state.filename <|> part.filename) := by
  rcases except_bind_eq_ok.mp parsed with ⟨state, folded, same⟩
  cases same
  exact ⟨state, folded, rfl, rfl⟩

theorem semicolon_notMem_name {value : Bytes}
    (parsed : parseContentDisposition {} value = .ok part) :
    59 ∉ part.name := by
  rcases parseContentDisposition_eq_ok parsed with ⟨_, folded, name, -⟩
  have start : Disposition.Split {} := ⟨by simp, by simp⟩
  rw [name]
  exact (start.fold (fun token member => (of_mem_parameterTokens member).1) folded).1

theorem length_tokens_filename {front back token : Bytes} (frontApart : 59 ∉ front)
    (member : token ∈ parameterTokens
      (ascii " " ++ quotedParameter (ascii "filename") (front ++ 59 :: back))) :
    token.length ≤ (front ++ 59 :: back).length + 9 := by
  have split : ascii " " ++ quotedParameter (ascii "filename") (front ++ 59 :: back) =
      (ascii " " ++ (ascii "filename=" ++ [34] ++ front)) ++ 59 :: (back ++ [34]) := by
    simp [quotedParameter, ascii]
  have whole : 59 ∉ ascii " " ++ (ascii "filename=" ++ [34] ++ front) := by
    simp only [List.mem_append, not_or]
    exact ⟨by decide, ⟨by decide, by decide⟩, frontApart⟩
  rw [split, parameterTokens_append] at member
  rw [List.length_append, List.length_cons]
  rcases List.mem_append.mp member with first | later
  · rw [parameterTokens, List.splitOn_eq_singleton whole, List.map_singleton, trimCopy_space,
      List.mem_singleton] at first
    have shorter := (isInfix_trimCopy (ascii "filename=" ++ [34] ++ front)).length_le
    rw [List.length_append, ← first] at shorter
    have ten : (ascii "filename=" ++ [34] : Bytes).length = 10 := rfl
    omega
  · have shorter := (of_mem_parameterTokens later).2
    rw [List.length_append, List.length_singleton] at shorter
    omega

/-- A semicolon never comes back in a file name, not even from a `filename*` within it. -/
theorem semicolon_notMem_filename {text : Bytes} (apart : 59 ∉ name)
    (parsed : parseContentDisposition {} (dispositionValue name (some text)) = .ok part)
    (same : part.filename = some text) : 59 ∉ text := by
  intro present
  rcases List.eq_append_cons_of_mem present with ⟨_, _, rfl, frontApart⟩
  rcases parseContentDisposition_eq_ok parsed with ⟨state, folded, -, filename⟩
  rw [tokens_named apart, foldlM_named, Option.elim_some] at folded
  have short := Disposition.length_filenameExt rfl
    (fun _ member => length_tokens_filename frontApart member) folded
  have start : Disposition.Split { first := false, name := unescape name } :=
    ⟨fun member => apart (mem_of_mem_unescape member), by simp⟩
  have split := start.fold (fun token member => (of_mem_parameterTokens member).1) folded
  rw [same] at filename
  cases extended : state.filenameExt with
  | some _ =>
      rw [extended] at filename
      cases filename
      have := short _ extended
      omega
  | none =>
      cases plain : state.filename with
      | some _ =>
          rw [extended, plain] at filename
          cases filename
          exact split.2 _ plain present
      | none =>
          rw [extended, plain] at filename
          cases filename

/-- What `serialize` can write between quotes. -/
def Quotable (text : Bytes) : Prop :=
  59 ∉ text ∧ 92 ∉ text.dropLast

instance (text : Bytes) : Decidable (Quotable text) :=
  inferInstanceAs (Decidable (_ ∧ _))

/-- A name and a file name are read back exactly if they can stand between quotes as they are; a
name with escapes, exactly if it has no semicolon. -/
theorem names_read_back_iff (name : Bytes) (filename : Option Bytes) (text : Bytes) :
    (parseContentDisposition {} (dispositionValue name filename) =
        .ok { name := name, filename := filename } ↔
      Quotable name ∧ ∀ text ∈ filename, Quotable text) ∧
    (parseContentDisposition {} (ascii "form-data; name=\"" ++ escape text ++ [34]) =
        .ok { name := text } ↔
      59 ∉ text) := by
  refine ⟨⟨?_, ?_⟩, ⟨?_, ?_⟩⟩
  · intro parsed
    have nameApart : 59 ∉ name := semicolon_notMem_name parsed
    have filenameApart : ∀ text ∈ filename, 59 ∉ text := by
      rintro text ⟨⟩
      exact semicolon_notMem_filename nameApart parsed rfl
    rw [parseContentDisposition_quotable rfl rfl nameApart filenameApart] at parsed
    have same := Except.ok.inj parsed
    have nameSame : unescape name = name := congrArg Part.name same
    have filenameSame : filename.map unescape = filename := congrArg Part.filename same
    refine ⟨⟨nameApart, unescape_eq_self_iff.mp nameSame⟩, ?_⟩
    rintro text ⟨⟩
    exact ⟨filenameApart text rfl, unescape_eq_self_iff.mp (Option.some.inj filenameSame)⟩
  · rintro ⟨⟨nameApart, nameWhole⟩, quotable⟩
    have filenameApart : ∀ text ∈ filename, 59 ∉ text := fun text member => (quotable text member).1
    rw [parseContentDisposition_quotable rfl rfl nameApart filenameApart,
      unescape_eq_self_iff.mpr nameWhole]
    cases filename with
    | none => rfl
    | some text =>
        rw [Option.map_some, unescape_eq_self_iff.mpr (quotable text rfl).2]
  · exact semicolon_notMem_name
  · intro apart
    have unfolded : ascii "form-data; name=\"" ++ escape text ++ [34] =
        dispositionValue (escape text) none := by
      simp [dispositionValue]
    have escapedApart : 59 ∉ escape text := notMem_escape apart (by decide)
    rw [unfolded, parseContentDisposition_quotable rfl rfl escapedApart (by simp), unescape_escape]
    rfl

/-- A semicolon ends the name, a backslash is lost, and an escape does not protect a
semicolon. -/
theorem name_misread :
    parseContentDisposition {} (dispositionValue (ascii "a;b") none) =
        .ok { name := ascii "\"a" } ∧
      parseContentDisposition {} (dispositionValue (ascii "a\\b") none) =
        .ok { name := ascii "ab" } ∧
      parseContentDisposition {} (ascii "form-data; name=\"" ++ escape (ascii "a;b") ++ [34]) =
        .ok { name := ascii "\"a" } := by
  refine ⟨?_, ?_, ?_⟩ <;> decide +kernel

end Corouv.Multipart
