import Corouv.Base
import Corouv.Library.Transition

/-!
# The PostgreSQL driver and libpq's command state

`PostgresDriver::query_async` sends a statement and fetches its results.  libpq is the
contract of its asynchronous interface: a connection is idle or has a command whose
results have not all been fetched; `PQsendQueryParams` is refused unless it is idle, and
it is idle again only once `PQgetResult` has returned a null pointer.  After a statement
with a failing result the driver leaves libpq busy, so that the next one is refused.
-/

namespace Corouv.Sql

open Library

inductive Value where
  | null
  | bool (value : Bool)
  | int64 (value : ℤ)
  /-- A double, as `std::to_string` prints it. -/
  | double (printed : Bytes)
  | string (text : Bytes)
  | blob (bytes : Bytes)

def valueToString : Value → Bytes
  | .null => ascii "NULL"
  | .bool value => if value then ascii "1" else ascii "0"
  | .int64 value => intToString value
  | .double printed => printed
  | .string text => text
  | .blob bytes => ascii "<blob:" ++ intToString bytes.length ++ ascii ">"

/-- What a C function sees of the `c_str()` of a string. -/
def cString (text : Bytes) : Bytes :=
  text.takeWhile (· != 0)

/-- The text-format parameters of a statement; a null pointer stands for a null. -/
def renderParams (params : List Value) : List (Option Bytes) :=
  params.map fun
    | .null => none
    | value => some (valueToString value)

structure Result where
  columns : List Bytes := []
  rows : List (List (Option Bytes)) := []
  affectedRows : ℤ := -1
  deriving DecidableEq

/-- Why `query_async` throws. -/
inductive Cause where
  /-- `PQsendQueryParams` did not accept the statement. -/
  | refused
  /-- The socket failed. -/
  | connection
  /-- The server reported an error. -/
  | server
  deriving DecidableEq

inductive PgError where
  | logic (message : String)
  /-- `corouv::sql::Error`; the cause tells the throw expressions apart. -/
  | error (cause : Cause) (code : ℤ) (message : Bytes)
  /-- Not thrown: a loop of the model ran out of fuel. -/
  | exhausted
  deriving DecidableEq

structure PgResult where
  status : ℤ
  /-- What `PQerrorMessage` returns once the result has been fetched. -/
  message : Bytes := []
  columns : List Bytes := []
  rows : List (List (Option Bytes)) := []
  cmdTuples : Bytes := []

structure Libpq where
  /-- The results of the current command that have not been fetched; none when idle. -/
  command : Option (List PgResult) := none
  errorMessage : Bytes := []
  /-- The statements sent, with their parameters. -/
  sent : List (Bytes × List (Option Bytes)) := []
  /-- The codes `PQflush` is going to return; zero when there are no more. -/
  flushes : List ℤ := []
  /-- What `PQconsumeInput` is going to do: fail, or find so many results complete. -/
  inputs : List (Option ℕ) := []
  socket : ℤ := 0
  /-- How many calls of `PQgetResult` would not block. -/
  ready : ℕ := 0
  /-- How many calls of `PQgetResult` have blocked. -/
  blocked : ℕ := 0

/-- What happens on the connection while a statement is executed. -/
structure Answer where
  results : List PgResult
  flushes : List ℤ := []
  inputs : List (Option ℕ) := []
  socket : ℤ := 0

abbrev PgTask (α : Type) := EStateM PgError Libpq α

def kPgCommandOk : ℤ := 1
def kPgTuplesOk : ℤ := 2

def connectionErrorMessage (fallback : String) (libpq : Libpq) : Bytes :=
  let trimmed := trimCopy libpq.errorMessage
  if trimmed = [] then ascii fallback else trimmed

def throwPgError {α : Type} (cause : Cause) (code : ℤ) (fallback : String) : PgTask α := do
  let libpq ← get
  throw (.error cause code (connectionErrorMessage fallback libpq))

def pqSendQueryParams (answer : Answer) (sql : Bytes) (values : List (Option Bytes)) :
    PgTask Bool := fun libpq =>
  match libpq.command with
  | some _ =>
      .ok false { libpq with errorMessage := ascii "another command is already in progress\n" }
  | none =>
      .ok true
        { libpq with
          command := some answer.results, errorMessage := [],
          sent := libpq.sent ++ [(cString sql, values.map (Option.map cString))],
          flushes := answer.flushes, inputs := answer.inputs, socket := answer.socket,
          ready := 0 }

def pqFlush : PgTask ℤ := fun libpq =>
  match libpq.flushes with
  | [] => .ok 0 libpq
  | code :: later => .ok code { libpq with flushes := later }

def pqConsumeInput : PgTask Bool := fun libpq =>
  match libpq.inputs with
  | [] => .ok true libpq
  | none :: later => .ok false { libpq with inputs := later }
  | some complete :: later =>
      .ok true { libpq with inputs := later, ready := libpq.ready + complete }

def pqIsBusy (libpq : Libpq) : Bool :=
  libpq.command.isSome && libpq.ready == 0

/-- `PQgetResult`, which blocks when the connection is busy. -/
def pqGetResult : PgTask (Option PgResult) := fun libpq =>
  let waited := { libpq with
    blocked := if pqIsBusy libpq then libpq.blocked + 1 else libpq.blocked
    ready := libpq.ready - 1 }
  match libpq.command with
  | none => .ok none libpq
  | some [] => .ok none { waited with command := none }
  | some (result :: later) =>
      .ok (some result) { waited with command := some later, errorMessage := result.message }

/-- `std::from_chars` on the whole of a text, for an `std::int64_t`. -/
def int64FromChars : Bytes → Option ℤ
  | 45 :: digits =>
      match Numeral.fromChars 10 (2 ^ 63 + 1) digits with
      | some (number, []) => some (-number)
      | _ => none
  | digits =>
      match Numeral.fromChars 10 (2 ^ 63) digits with
      | some (number, []) => some number
      | _ => none

def PgResult.isOk (result : PgResult) : Bool :=
  result.status == kPgCommandOk || result.status == kPgTuplesOk

def parseResult (out : Result) (result : PgResult) : PgTask Result := do
  if result.isOk then
    let out := if result.status = kPgTuplesOk then
      { out with columns := result.columns, rows := result.rows } else out
    match int64FromChars (cString result.cmdTuples) with
    | some affected => pure { out with affectedRows := affected }
    | none => pure out
  else throwPgError .server result.status "pgsql query failed"

def flushTurn (_ : Unit) : PgTask (Turn Unit Unit) := do
  let code ← pqFlush
  if code = 0 then pure (.done ())
  else if code = 1 then
    let libpq ← get
    if libpq.socket < 0 then
      throw (.error .connection (-1) (ascii "corouv::sql pgsql invalid socket"))
    else pure (.again ())
  else throwPgError .connection code "pgsql flush failed"

def fetchTurn (out : Result) : PgTask (Turn Result Result) := do
  match ← pqGetResult with
  | some result => do
      let out ← parseResult out result
      pure (.again out)
  | none => pure (.done out)

def resultTurn (out : Result) : PgTask (Turn Result Result) := do
  if ← pqConsumeInput then
    let libpq ← get
    let out ← loop .exhausted fetchTurn ((libpq.command.getD []).length + 1) out
    let libpq ← get
    if pqIsBusy libpq then
      if libpq.socket < 0 then
        throw (.error .connection (-1) (ascii "corouv::sql pgsql invalid socket"))
      else pure (.again out)
    else pure (.done out)
  else throwPgError .connection (-1) "pgsql consume input failed"

structure PostgresDriver where
  conn : Option Libpq := none

/-- The part of `query_async` that talks to libpq. -/
def execute (answer : Answer) (sql : Bytes) (params : List Value) : PgTask Result := do
  if ← pqSendQueryParams answer sql (renderParams params) then
    loop .exhausted flushTurn (answer.flushes.length + 1) ()
    loop .exhausted resultTurn (answer.inputs.length + 1) {}
  else throwPgError .refused (-1) "pgsql send query failed"

/-- `query_async`; the answer is what libpq and the server do with the statement. -/
def queryAsync (answer : Answer) (sql : Bytes) (params : List Value) :
    EStateM PgError PostgresDriver Result := fun driver =>
  match driver.conn with
  | none => .error (.logic "corouv::sql pgsql driver is not connected") driver
  | some libpq =>
      match (execute answer sql params).run libpq with
      | .ok out later => .ok out { driver with conn := some later }
      | .error error later => .error error { driver with conn := some later }

/-- The driver has a connection on which no command is in progress. -/
def PostgresDriver.Accepts (driver : PostgresDriver) : Prop :=
  ∃ libpq, driver.conn = some libpq ∧ libpq.command = none

theorem conn_queryAsync {driver : PostgresDriver} {libpq : Libpq}
    (connected : driver.conn = some libpq) (answer : Answer) (sql : Bytes) (params : List Value) :
    (endState ((queryAsync answer sql params).run driver)).conn =
      some (endState ((execute answer sql params).run libpq)) := by
  simp only [EStateM.run, queryAsync, connected]
  split
  next ran => simp only [endState, ran]
  next ran => simp only [endState, ran]

structure Query where
  sql : Bytes
  params : List Value := []
  answer : Answer

/-- A driver and how its last call ended. -/
structure PgSession where
  driver : PostgresDriver
  outcome : Option (Except PgError Result) := none

def PgSession.step (session : PgSession) (query : Query) : Option PgSession :=
  match (queryAsync query.answer query.sql query.params).run session.driver with
  | .ok out driver => some { driver := driver, outcome := some (.ok out) }
  | .error error driver => some { driver := driver, outcome := some (.error error) }

end Corouv.Sql
