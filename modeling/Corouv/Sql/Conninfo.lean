import Corouv.Sql.ConnectionInfo

/-!
# The connection string for libpq

`append_conninfo` quotes the values of the parameters and leaves their names as they are.
Names and values are free of NUL.
-/

namespace Corouv.Sql

open Library

def escapeConninfo (value : Bytes) : Bytes :=
  value.flatMap fun byte => if byte = 39 ∨ byte = 92 then [92, byte] else [byte]

def appendConninfo (out : Bytes) (pair : Bytes × Bytes) : Bytes :=
  if pair.2 = [] then out
  else
    (if out = [] then out else out ++ [32]) ++ pair.1 ++ ascii "='" ++ escapeConninfo pair.2 ++
      ascii "'"

/-- The parameters that the fields of a `ConnectionInfo` stand for. -/
def fieldPairs (info : ConnectionInfo) : List (Bytes × Bytes) :=
  [(ascii "host", info.host),
    (ascii "port", Numeral.digits 10 (if info.port = 0 then 5432 else info.port)),
    (ascii "dbname", info.database), (ascii "user", info.username),
    (ascii "password", info.password)]

/-- The string that `connect_async` hands to `PQconnectStart`. -/
def conninfo (info : ConnectionInfo) : Bytes :=
  info.options.foldl appendConninfo ((fieldPairs info).foldl appendConninfo [])

/-- A value with its escapes, up to a byte that ends it, and what follows that byte. -/
def readUntil (ends : UInt8 → Bool) : Bytes → Bytes × Option Bytes
  | [] => ([], none)
  | byte :: rest =>
      if ends byte then ([], some rest)
      else if byte = 92 then
        match rest with
        | [] => ([], none)
        | escaped :: later => (escaped :: (readUntil ends later).1, (readUntil ends later).2)
      else (byte :: (readUntil ends rest).1, (readUntil ends rest).2)

/-- A value in quotes, or one that ends at white space. -/
def readValue : Bytes → Option (Bytes × Bytes)
  | 39 :: body =>
      let read := readUntil (· = 39) body
      read.2.map fun later => (read.1, later)
  | body =>
      let read := readUntil isSpace body
      some (read.1, read.2.getD [])

def isNameByte (byte : UInt8) : Bool :=
  byte ≠ 61 && !isSpace byte

/-- The settings in the grammar of libpq: a name, an equals sign and a value, with white
space around each of them. -/
def readPairs : ℕ → Bytes → Option (List (Bytes × Bytes))
  | 0, _ => none
  | fuel + 1, text =>
      let start := text.dropWhile isSpace
      let name := start.takeWhile isNameByte
      if start = [] then some []
      else
        match (start.dropWhile isNameByte).dropWhile isSpace with
        | 61 :: after =>
            if name = [] then none
            else
              (readValue (after.dropWhile isSpace)).bind fun read =>
                (readPairs fuel read.2).map ((name, read.1) :: ·)
        | _ => none

def readConninfo (text : Bytes) : Option (List (Bytes × Bytes)) :=
  readPairs (text.length + 1) text

def meantPairs (info : ConnectionInfo) : List (Bytes × Bytes) :=
  (fieldPairs info ++ info.options).filter fun pair => pair.2 ≠ []

def IsName (name : Bytes) : Prop :=
  name ≠ [] ∧ ∀ byte ∈ name, isNameByte byte = true

instance : DecidablePred IsName :=
  fun _ => inferInstanceAs (Decidable (_ ∧ _))

/-- One parameter behind others. -/
def entry (pair : Bytes × Bytes) : Bytes :=
  32 :: (pair.1 ++ (61 :: 39 :: (escapeConninfo pair.2 ++ [39])))

variable {pairs : List (Bytes × Bytes)}

theorem foldl_appendConninfo_of_ne_nil {out : Bytes} (nonempty : out ≠ []) :
    pairs.foldl appendConninfo out =
      out ++ (pairs.filter fun pair => pair.2 ≠ []).flatMap entry := by
  induction pairs generalizing out with
  | nil => simp
  | cons pair later ih =>
      by_cases empty : pair.2 = []
      · simp [appendConninfo, empty, ih nonempty]
      · have added : appendConninfo out pair = out ++ entry pair := by
          simp [appendConninfo, empty, nonempty, entry, ascii]
        rw [List.foldl_cons, added, ih (by simp [nonempty])]
        simp [empty]

theorem foldl_appendConninfo :
    pairs.foldl appendConninfo [] =
      ((pairs.filter fun pair => pair.2 ≠ []).flatMap entry).tail := by
  induction pairs with
  | nil => rfl
  | cons pair later ih =>
      by_cases empty : pair.2 = []
      · simpa [appendConninfo, empty] using ih
      · have first : appendConninfo [] pair = (entry pair).tail := by
          simp [appendConninfo, empty, entry, ascii]
        rw [List.foldl_cons, first, foldl_appendConninfo_of_ne_nil (by simp [entry])]
        simp [empty, entry]

theorem readUntil_escapeConninfo (value rest : Bytes) :
    readUntil (· = 39) (escapeConninfo value ++ 39 :: rest) = (value, some rest) := by
  induction value with
  | nil => simp [escapeConninfo, readUntil.eq_def]
  | cons byte later ih =>
      by_cases special : byte = 39 ∨ byte = 92
      · have escaped : escapeConninfo (byte :: later) = 92 :: byte :: escapeConninfo later := by
          simp [escapeConninfo, special]
        simp [escaped, readUntil, ih]
      · have plain : escapeConninfo (byte :: later) = byte :: escapeConninfo later := by
          simp [escapeConninfo, special]
        rw [not_or] at special
        rw [plain, List.cons_append, readUntil.eq_def]
        simp [ih, special]

/-- An entry is read back as the pair it was written from. -/
theorem readPairs_entry {name : Bytes} (isName : IsName name) (value rest : Bytes) (fuel : ℕ) :
    readPairs (fuel + 1) (entry (name, value) ++ rest) =
      (readPairs fuel rest).map ((name, value) :: ·) := by
  rcases isName with ⟨nonempty, bytes⟩
  rcases List.exists_cons_of_ne_nil nonempty with ⟨first, others, rfl⟩
  have solid : isSpace first = false := by
    simpa [isNameByte] using (Bool.and_eq_true_iff.mp (bytes first List.mem_cons_self)).2
  have read := readUntil_escapeConninfo value rest
  generalize behind : 39 :: (escapeConninfo value ++ 39 :: rest) = quoted
  have start : (entry (first :: others, value) ++ rest).dropWhile isSpace =
      first :: others ++ 61 :: quoted := by
    simp [entry, ← behind, solid, show isSpace 32 = true by decide]
  have name : (first :: others ++ 61 :: quoted).takeWhile isNameByte = first :: others := by
    rw [List.takeWhile_append_of_pos bytes, List.takeWhile_cons_of_neg (by decide), List.append_nil]
  have later : (first :: others ++ 61 :: quoted).dropWhile isNameByte = 61 :: quoted := by
    rw [List.dropWhile_append_of_pos bytes, List.dropWhile_cons_of_neg (by decide)]
  simp only [readPairs, start, name, later]
  simp [← behind, show isSpace 61 = false by decide, show isSpace 39 = false by decide, readValue,
    read]

theorem readPairs_entries (names : ∀ pair ∈ pairs, IsName pair.1) {fuel : ℕ}
    (enough : pairs.length < fuel) : readPairs fuel (pairs.flatMap entry) = some pairs := by
  induction pairs generalizing fuel with
  | nil =>
      cases fuel with
      | zero => cases enough
      | succ fuel => rfl
  | cons pair later ih =>
      cases fuel with
      | zero => cases enough
      | succ fuel =>
          rw [List.flatMap_cons, readPairs_entry (names pair List.mem_cons_self),
            ih (fun pair member => names pair (List.mem_cons_of_mem _ member))
            (by simpa using enough)]
          rfl

theorem readPairs_tail (fuel : ℕ) :
    readPairs fuel (pairs.flatMap entry).tail = readPairs fuel (pairs.flatMap entry) := by
  cases pairs with
  | nil => rfl
  | cons pair later =>
      cases fuel with
      | zero => rfl
      | succ fuel =>
          have same : ∀ text, (32 :: text).dropWhile isSpace = text.dropWhile isSpace :=
            fun _ => rfl
          simp only [List.flatMap_cons, entry, List.cons_append, List.tail_cons, readPairs, same]

theorem length_le_tail : pairs.length ≤ (pairs.flatMap entry).tail.length := by
  induction pairs with
  | nil => rfl
  | cons pair later ih =>
      simp only [List.flatMap_cons, entry, List.cons_append, List.tail_cons, List.length_append,
        List.length_cons, List.length_tail] at ih ⊢
      omega

theorem isName_of_readPairs {fuel : ℕ} {text : Bytes} (read : readPairs fuel text = some pairs) :
    ∀ pair ∈ pairs, IsName pair.1 := by
  induction fuel generalizing text pairs with
  | zero => cases read
  | succ fuel ih =>
      simp only [readPairs] at read
      split at read
      · cases read
        exact nofun
      · split at read
        · split at read
          · cases read
          next nonempty =>
            rcases Option.bind_eq_some_iff.mp read with ⟨_, -, further⟩
            rcases Option.map_eq_some_iff.mp further with ⟨_, rest, rfl⟩
            rintro _ (_ | ⟨_, member⟩)
            · exact ⟨nonempty, fun _ here => List.mem_takeWhile_imp here⟩
            · exact ih rest _ member
        · cases read

theorem readConninfo_of_names {info : ConnectionInfo}
    (names : ∀ option ∈ info.options, option.2 ≠ [] → IsName option.1) :
    readConninfo (conninfo info) = some (meantPairs info) := by
  have text : conninfo info = ((meantPairs info).flatMap entry).tail := by
    rw [conninfo, ← List.foldl_append, foldl_appendConninfo]
    rfl
  have fields : ∀ name ∈ (fieldPairs info).map Prod.fst, IsName name := by
    change ∀ name ∈ ["host", "port", "dbname", "user", "password"].map ascii, IsName name
    decide +kernel
  have all : ∀ pair ∈ meantPairs info, IsName pair.1 := by
    intro pair member
    rcases List.mem_filter.mp member with ⟨either, set⟩
    rcases List.mem_append.mp either with field | option
    · exact fields pair.1 (List.mem_map_of_mem field)
    · exact names pair option (by simpa using set)
  rw [readConninfo, text]
  refine (readPairs_tail _).trans (readPairs_entries all ?_)
  exact Nat.lt_succ_of_le length_le_tail

/-- The setting that libpq uses: the last one of the name. -/
def inForce (name : Bytes) (pairs : List (Bytes × Bytes)) : Option Bytes :=
  (pairs.findRev? fun pair => pair.1 = name).map Prod.snd

/-- An option under the name of a field, `host` say, takes the place of the field; all other
fields stay in force. -/
theorem inForce_conninfo {info : ConnectionInfo}
    (names : ∀ option ∈ info.options, option.2 ≠ [] → IsName option.1) (name : Bytes) :
    (readConninfo (conninfo info)).map (inForce name) =
      some ((inForce name (info.options.filter fun option => option.2 ≠ [])).or
        (inForce name ((fieldPairs info).filter fun field => field.2 ≠ []))) := by
  rw [readConninfo_of_names names, meantPairs, List.filter_append]
  simp [inForce, List.findRev?_eq_find?_reverse, Option.map_or]

/-- libpq reads the settings that are meant, and no others, if and only if the options are set
under names.  Among these may be names of fields: see `inForce_conninfo`. -/
theorem readConninfo_eq_meant_iff (info : ConnectionInfo) :
    readConninfo (conninfo info) = some (meantPairs info) ↔
      ∀ option ∈ info.options, option.2 ≠ [] → IsName option.1 := by
  constructor
  · intro read option member set
    apply isName_of_readPairs read option
    simp [meantPairs, member, set]
  · exact readConninfo_of_names

def hostileOption : ConnectionInfo :=
  { host := ascii "db", port := 5432, options := [(ascii "sslmode=disable host", ascii "evil")] }

/-- The name of an option brings a setting of its own and a second host. -/
theorem hostileOption_overrides_host :
    readConninfo (conninfo hostileOption) =
      some [(ascii "host", ascii "db"), (ascii "port", ascii "5432"),
        (ascii "sslmode", ascii "disable"), (ascii "host", ascii "evil")] := by
  decide +kernel

end Corouv.Sql
