import Corouv.Sql.Postgres

/-!
# The sqlite driver

`SqliteDriver::query` prepares a statement, binds its parameters, steps it to its end and
then asks the handle how many rows were changed.  sqlite is its documented contract: a
statement that is not an `INSERT`, `UPDATE` or `DELETE` leaves the count of the handle as
it was, and a null pointer is bound as null.
-/

namespace Corouv.Sql.Sqlite

open Library

inductive Stored where
  | null
  | integer (value : ℤ)
  | float (printed : Bytes)
  | text (bytes : Bytes)
  | blob (bytes : Bytes)
  deriving DecidableEq

/-- What stepping a statement to its end comes to. -/
structure Execution (δ : Type) where
  rows : List (List Stored) := []
  /-- The last result of `sqlite3_step` if it is not `SQLITE_DONE`. -/
  failure : Option ℤ := none
  /-- The rows that an `INSERT`, `UPDATE` or `DELETE` changed; none for other statements. -/
  changed : Option ℕ := none
  rowid : Option ℤ := none
  database : δ

structure Statement (δ : Type) where
  paramCount : ℕ := 0
  columns : List (Option Bytes) := []
  execute : List Stored → δ → Execution δ

structure Engine (δ : Type) where
  /-- The text has the given length, or ends at its first NUL if that is negative; from
  blank text no statement is prepared. -/
  prepare : Bytes → ℤ → δ → Except ℤ (Option (Statement δ))
  errmsg : ℤ → Option Bytes

/-- A handle, with what `sqlite3_changes64` and `sqlite3_last_insert_rowid` return. -/
structure Handle (δ : Type) where
  database : δ
  changes : ℕ := 0
  lastInsertRowid : ℤ := 0

variable {δ : Type}

def Handle.after (handle : Handle δ) (execution : Execution δ) : Handle δ where
  database := execution.database
  changes := if execution.failure = none then execution.changed.getD handle.changes
    else handle.changes
  lastInsertRowid := execution.rowid.getD handle.lastInsertRowid

/-- `static_cast<int>` of a size. -/
def toInt (size : ℕ) : ℤ :=
  if size % 2 ^ 32 < 2 ^ 31 then size % 2 ^ 32 else (size % 2 ^ 32 : ℕ) - 2 ^ 32

def rangeCode : ℤ := 25

def misuseCode : ℤ := 21

/-- A negative length means that the text ends at its first NUL. -/
def bindText (text : Option Bytes) (length : ℤ) : Stored :=
  match text with
  | none => .null
  | some bytes => .text (if length < 0 then cString bytes else bytes.take length.toNat)

def bindBlob (blob : Option Bytes) (length : ℤ) : Except ℤ Stored :=
  match blob with
  | none => .ok .null
  | some bytes => if length < 0 then .error misuseCode else .ok (.blob (bytes.take length.toNat))

/-- A NaN is bound as null. -/
def bindDouble (printed : Bytes) : Stored :=
  if printed = ascii "nan" ∨ printed = ascii "-nan" then .null else .float printed

inductive Error where
  | logic (message : String)
  | error (code : ℤ) (message : Bytes)
  deriving DecidableEq

structure Result where
  columns : List Bytes := []
  rows : List (List Value) := []
  affectedRows : ℤ := -1
  lastInsertId : ℤ := -1

def sqliteError (engine : Engine δ) (code : ℤ) : Error :=
  .error code ((engine.errmsg code).getD (ascii "sqlite error " ++ intToString code))

def bindValue : Value → Except ℤ Stored
  | .null => .ok .null
  | .bool value => .ok (.integer (if value then 1 else 0))
  | .int64 value => .ok (.integer value)
  | .double printed => .ok (bindDouble printed)
  | .string text => .ok (bindText (some text) (toInt text.length))
  | .blob bytes => bindBlob (if bytes = [] then none else some bytes) (toInt bytes.length)

/-- Parameters that are not bound are null. -/
def bindParams : ℕ → List Value → Except ℤ (List Stored)
  | room, [] => .ok (List.replicate room .null)
  | 0, _ :: _ => .error rangeCode
  | room + 1, value :: later => do
      let first ← bindValue value
      let rest ← bindParams room later
      return first :: rest

def readColumn : Stored → Value
  | .null => .null
  | .integer value => .int64 value
  | .float printed => .double printed
  | .text bytes => .string bytes
  | .blob bytes => .blob bytes

/-- `SqliteDriver::query`; the state is `_db`. -/
def query (engine : Engine δ) (sql : Bytes) (params : List Value) :
    EStateM Error (Option (Handle δ)) Result := fun db =>
  match db with
  | none => .error (.logic "corouv::sql sqlite driver is not connected") none
  | some handle =>
      match engine.prepare sql (toInt sql.length) handle.database with
      | .error code => .error (sqliteError engine code) db
      | .ok none => .error (sqliteError engine misuseCode) db
      | .ok (some statement) =>
          match bindParams statement.paramCount params with
          | .error code => .error (sqliteError engine code) db
          | .ok bound =>
              let execution := statement.execute bound handle.database
              let after := handle.after execution
              match execution.failure with
              | some code => .error (sqliteError engine code) (some after)
              | none =>
                  -- the names of the columns are taken at the first row
                  .ok { columns :=
                          if execution.rows = [] then [] else statement.columns.map (·.getD [])
                        rows := execution.rows.map (·.map readColumn)
                        affectedRows := after.changes
                        lastInsertId := after.lastInsertRowid } (some after)

/-- `Connection::execute`. -/
def execute (engine : Engine δ) (sql : Bytes) (params : List Value) :
    EStateM Error (Option (Handle δ)) ℤ := do
  let result ← query engine sql params
  return result.affectedRows

/-- On `handle` the statement is executed to its end, as `execution`. -/
def Completes (engine : Engine δ) (handle : Handle δ) (sql : Bytes) (params : List Value)
    (execution : Execution δ) : Prop :=
  ∃ statement bound, engine.prepare sql (toInt sql.length) handle.database = .ok (some statement) ∧
    bindParams statement.paramCount params = .ok bound ∧
    execution = statement.execute bound handle.database ∧ execution.failure = none

/-- `execute` returns exactly if the statement is prepared, bound and stepped to its end. -/
theorem execute_run_eq_ok_iff {engine : Engine δ} {handle : Handle δ} {sql : Bytes}
    {params : List Value} {affected : ℤ} {after : Option (Handle δ)} :
    (execute engine sql params).run (some handle) = .ok affected after ↔
      ∃ execution, Completes engine handle sql params execution ∧
        affected = execution.changed.getD handle.changes ∧
        after = some (handle.after execution) := by
  simp only [execute, EStateM.run_bind]
  simp only [EStateM.run, query, Completes]
  cases prepared : engine.prepare sql (toInt sql.length) handle.database with
  | error _ => simp
  | ok statement =>
      cases statement with
      | none => simp
      | some statement =>
          cases bound : bindParams statement.paramCount params with
          | error _ => simp [bound]
          | ok values =>
              cases failure : (statement.execute values handle.database).failure with
              | some _ => simp [bound, failure]
              | none =>
                  simp only [bound, failure, Handle.after, Except.ok.injEq, Option.some.injEq,
                    EStateM.pure, pure, EStateM.Result.ok.injEq, if_true]
                  constructor
                  · rintro ⟨rfl, rfl⟩
                    exact ⟨_, ⟨statement, values, rfl, bound, rfl, failure⟩, rfl, by simp [failure]⟩
                  · rintro ⟨_, ⟨_, _, rfl, bound', rfl, -⟩, rfl, rfl⟩
                    cases bound.symm.trans bound'
                    exact ⟨rfl, by simp [failure]⟩

/-- Each of the statements, executed one after another, finds the handle as `holds` asks. -/
def Throughout (engine : Engine δ) (holds : Handle δ → Bytes → List Value → Prop) :
    Option (Handle δ) → List (Bytes × List Value) → Prop
  | _, [] => True
  | db, (sql, params) :: later =>
      (∀ handle, db = some handle → holds handle sql params) ∧
        Throughout engine holds (endState ((execute engine sql params).run db)) later

/-- The number reported is that of the rows the statement itself has changed. -/
def Attributed (engine : Engine δ) (handle : Handle δ) (sql : Bytes) (params : List Value) : Prop :=
  ∀ affected after execution, (execute engine sql params).run (some handle) = .ok affected after →
    Completes engine handle sql params execution → affected = execution.changed.getD 0

/-- The statement is an `INSERT`, `UPDATE` or `DELETE`, or the last one has changed nothing. -/
def Counts (engine : Engine δ) (handle : Handle δ) (sql : Bytes) (params : List Value) : Prop :=
  ∀ execution, Completes engine handle sql params execution →
    execution.changed.isSome = true ∨ handle.changes = 0

theorem attributed_iff_counts (engine : Engine δ) (handle : Handle δ) (sql : Bytes)
    (params : List Value) :
    Attributed engine handle sql params ↔ Counts engine handle sql params := by
  constructor
  · intro attributed execution completes
    have reported := attributed _ _ execution
      (execute_run_eq_ok_iff.mpr ⟨execution, completes, rfl, rfl⟩) completes
    cases changed : execution.changed with
    | some _ => exact Or.inl rfl
    | none =>
        right
        simpa [changed] using reported
  · intro counts _ _ _ ran completes
    rcases execute_run_eq_ok_iff.mp ran with ⟨_, completes', rfl, -⟩
    rcases completes with ⟨statement, bound, prepared, binds, rfl, done⟩
    rcases completes' with ⟨_, _, prepared', binds', rfl, -⟩
    cases prepared.symm.trans prepared'
    cases binds.symm.trans binds'
    rcases counts _ ⟨statement, bound, prepared, binds, rfl, done⟩ with counted | unchanged
    · rcases Option.isSome_iff_exists.mp counted with ⟨_, changed⟩
      simp [changed]
    · rw [unchanged]

/-- In a sequence of statements every number is that of the statement it is reported for
exactly if the others find the count of the handle at zero. -/
theorem rows_attributed_iff (engine : Engine δ) (db : Option (Handle δ))
    (statements : List (Bytes × List Value)) :
    Throughout engine (Attributed engine) db statements ↔
      Throughout engine (Counts engine) db statements := by
  induction statements generalizing db with
  | nil => exact Iff.rfl
  | cons statement _ ih =>
      simp only [Throughout, attributed_iff_counts, ih]

/-- A table of which only the number of its rows is known. -/
def tableEngine : Engine ℕ where
  prepare sql _ _ := .ok (some {
    execute := fun _ count =>
      if sql = ascii "INSERT INTO t VALUES (1)" then { changed := some 1, database := count + 1 }
      else { rows := [[.integer count]], database := count } })
  errmsg _ := none

def insertThenSelect : List (Bytes × List Value) :=
  [(ascii "INSERT INTO t VALUES (1)", []), (ascii "SELECT count(*) FROM t", [])]

/-- The `SELECT` reports the row of the `INSERT` before it. -/
theorem select_reports_insert :
    (∃ affected after, (execute tableEngine (ascii "SELECT count(*) FROM t") []).run
        (endState ((execute tableEngine (ascii "INSERT INTO t VALUES (1)") []).run
          (some { database := 0 }))) = .ok affected after ∧ affected = 1) ∧
      ¬Throughout tableEngine (Attributed tableEngine) (some { database := 0 })
        insertThenSelect := by
  refine ⟨⟨1, _, rfl, rfl⟩, ?_⟩
  intro attributed
  have zero := attributed.2.1 _ rfl 1 _ _ rfl ⟨_, _, rfl, rfl, rfl, rfl⟩
  exact absurd zero (by decide +kernel)

/-- A statement that returns its parameter. -/
def returning (column : Option Bytes) : Statement δ where
  paramCount := 1
  columns := [column]
  execute := fun bound database => { rows := [bound], database := database }

/-- A bool comes back as a number. -/
def readBack : Value → Value
  | .bool value => .int64 (if value then 1 else 0)
  | value => value

def payload : Value → ℕ
  | .string text => text.length
  | .blob bytes => bytes.length
  | _ => 0

theorem toInt_of_lt {size : ℕ} (small : size < 2 ^ 31) : toInt size = size := by
  have same : size % 2 ^ 32 = size := Nat.mod_eq_of_lt (by omega)
  rw [toInt, if_pos (by omega)]
  exact_mod_cast same

theorem bindValue_of_size_lt {value : Value} (double : ∀ printed, value ≠ .double printed)
    (short : payload value < 2 ^ 31) :
    (bindValue value).map readColumn =
      .ok (match value with | .blob [] => .null | _ => readBack value) := by
  cases value with
  | null => rfl
  | bool _ => rfl
  | int64 _ => rfl
  | double printed => exact absurd rfl (double printed)
  | string text =>
      have length : toInt text.length = text.length := toInt_of_lt short
      simp [bindValue, bindText, length, Except.map, readColumn, readBack]
  | blob bytes =>
      cases bytes with
      | nil => rfl
      | cons byte later =>
          have length : toInt (byte :: later).length = (byte :: later).length := toInt_of_lt short
          have positive : ¬(((byte :: later).length : ℕ) : ℤ) < 0 := by omega
          simp only [bindValue, bindBlob, length, if_neg (List.cons_ne_nil byte later),
            if_neg positive, Int.toNat_natCast, List.take_length, Except.map, readColumn, readBack]

/-- Every value but the empty blob is read back. -/
theorem parameter_read_back_iff (engine : Engine δ) (handle : Handle δ) (sql : Bytes)
    (column : Option Bytes) (value : Value)
    (prepared : engine.prepare sql (toInt sql.length) handle.database =
      .ok (some (returning column)))
    (double : ∀ printed, value ≠ .double printed) (short : payload value < 2 ^ 31) :
    (∃ result db, (query engine sql [value]).run (some handle) = .ok result db ∧
        result.rows = [[readBack value]]) ↔ value ≠ .blob [] := by
  have reads := bindValue_of_size_lt double short
  rcases binds : bindValue value with _ | bound
  · rw [binds] at reads
    cases reads
  rw [binds, Except.map, Except.ok.injEq] at reads
  have ran : ∃ result db, (query engine sql [value]).run (some handle) = .ok result db ∧
      result.rows = [[readColumn bound]] := by
    simp only [EStateM.run, query, prepared, returning, bindParams, binds]
    exact ⟨_, _, rfl, rfl⟩
  rcases ran with ⟨result, db, ran, rows⟩
  constructor
  · rintro ⟨_, _, ran', rows'⟩ rfl
    cases ran.symm.trans ran'
    rw [rows, reads] at rows'
    cases rows'
  · intro nonempty
    refine ⟨result, db, ran, ?_⟩
    rw [rows, reads]
    split
    · exact absurd rfl nonempty
    · rfl

/-- `SELECT ?` on an empty database. -/
def echoEngine : Engine Unit where
  prepare _ _ _ := .ok (some (returning none))
  errmsg _ := none

theorem nul_read_back :
    ∃ result db, (query echoEngine (ascii "SELECT ?") [.string [97, 0, 98]]).run
        (some { database := () }) = .ok result db ∧ result.rows = [[.string [97, 0, 98]]] :=
  (parameter_read_back_iff echoEngine _ _ none _ rfl (fun _ => by simp) (by decide)).mpr (by simp)

/-- An empty blob comes back as null. -/
theorem empty_blob_read_as_null :
    ∃ result db, (query echoEngine (ascii "SELECT ?") [.blob []]).run (some { database := () }) =
      .ok result db ∧ result.rows = [[.null]] :=
  ⟨_, _, rfl, rfl⟩

end Corouv.Sql.Sqlite
