import Corouv.Sql.Postgres

/-!
# The command state after a statement

A call of `query_async` on an idle connection either fetches all results and leaves the
connection idle, or throws at the first result that is neither `PGRES_COMMAND_OK` nor
`PGRES_TUPLES_OK`, with `PQgetResult` not called again, or fails with the socket.  As long
as every result of every statement is of the first kind, no statement is refused.
-/

namespace Corouv.Sql

open Library
open EStateM (run_bind run_get run_pure)

/-- How a statement that libpq has accepted ends. -/
inductive QueryOutcome (results : List PgResult) : EStateM.Result PgError Libpq Result → Prop
  | returned {out : Result} {later : Libpq} (fine : ∀ result ∈ results, result.isOk = true)
      (idle : later.command = none) : QueryOutcome results (.ok out later)
  | reported {result : PgResult} {message : Bytes} {later : Libpq} (member : result ∈ results)
      (fails : result.isOk = false) (busy : later.command ≠ none) :
      QueryOutcome results (.error (.error .server result.status message) later)
  | disconnected {code : ℤ} {message : Bytes} {later : Libpq} :
      QueryOutcome results (.error (.error .connection code message) later)

theorem parseResult_run_ok {result : PgResult} (fine : result.isOk = true) (out : Result)
    (libpq : Libpq) : ∃ out', (parseResult out result).run libpq = .ok out' libpq := by
  simp only [parseResult, if_pos fine]
  split
  · exact ⟨_, rfl⟩
  · exact ⟨_, rfl⟩

theorem parseResult_run_error {result : PgResult} (fails : result.isOk = false) (out : Result)
    (libpq : Libpq) : (parseResult out result).run libpq =
      .error (.error .server result.status
        (connectionErrorMessage "pgsql query failed" libpq)) libpq := by
  simp only [parseResult, fails, Bool.false_eq_true, if_false]
  rfl

/-- The calls of `PQgetResult` for the results: up to the null pointer at the end, or up to
the first failure. -/
def fetches (results : List PgResult) : ℕ :=
  (results.takeWhile PgResult.isOk).length + 1

/-- How fetching the results from `start` on ends, and how many of the calls have blocked. -/
structure Fetched (start : Libpq) (results : List PgResult)
    (result : EStateM.Result PgError Libpq Result) : Prop where
  outcome : QueryOutcome results result
  blocked : (endState result).blocked = start.blocked + (fetches results - start.ready)

/-- The results fetched so far were fine, and the others are still to come.  The calls that are
left account for the rest of those that block. -/
def Fetching (start : Libpq) (results : List PgResult) (libpq : Libpq) : Prop :=
  ∃ fetched later, results = fetched ++ later ∧ (∀ result ∈ fetched, result.isOk = true) ∧
    libpq.command = some later ∧
    libpq.blocked + (fetches later - libpq.ready) =
      start.blocked + (fetches results - start.ready)

variable {libpq start : Libpq} {results : List PgResult}

theorem pqGetResult_run (command : libpq.command = some results) :
    ∃ later, pqGetResult.run libpq = .ok results.head? later ∧
      later.blocked = libpq.blocked + (1 - libpq.ready) ∧ later.ready = libpq.ready - 1 ∧
      later.command = if results = [] then none else some results.tail := by
  have busy : (if pqIsBusy libpq then libpq.blocked + 1 else libpq.blocked) =
      libpq.blocked + (1 - libpq.ready) := by
    simp only [pqIsBusy, command, Option.isSome_some, Bool.true_and, beq_iff_eq]
    split_ifs with nothing
    · omega
    · omega
  cases results with
  | nil | cons result later =>
      simp only [EStateM.run, pqGetResult, command, busy]
      exact ⟨_, rfl, rfl, rfl, rfl⟩

/-- One `PQgetResult`: the results of the command get fewer, or the loop ends. -/
theorem fetchTurn_run (out : Result) (fetching : Fetching start results libpq) :
    Turn.Meets (fun _ libpq' => Fetching start results libpq' ∧
        (libpq'.command.getD []).length < (libpq.command.getD []).length)
      (Fetched start results) ((fetchTurn out).run libpq) := by
  rcases fetching with ⟨fetched, later, rfl, fine, command, calls⟩
  rcases pqGetResult_run command with ⟨next, fetch, blocked, ready, rest⟩
  simp only [fetchTurn, run_bind, fetch]
  cases later with
  | nil =>
      have last : fetches [] = 1 := rfl
      refine Fetched.mk (.returned (by simpa using fine) rest) ?_
      rw [← calls, last]
      exact blocked
  | cons result later =>
      have still : next.command = some later := by simpa using rest
      cases passes : result.isOk with
      | true =>
          have more : fetches (result :: later) = fetches later + 1 := by simp [fetches, passes]
          rcases parseResult_run_ok passes out next with ⟨_, parsed⟩
          simp only [List.head?_cons, run_bind, parsed]
          refine ⟨⟨fetched ++ [result], later, by simp, ?_, still, by omega⟩, ?_⟩
          · rw [List.forall_mem_append, List.forall_mem_singleton]
            exact ⟨fine, passes⟩
          · simp [still, command]
      | false =>
          have last : fetches (result :: later) = 1 := by simp [fetches, passes]
          have busy : next.command ≠ none := by simp [still]
          simp only [List.head?_cons, run_bind, parseResult_run_error passes]
          refine Fetched.mk (.reported (by simp) passes busy) ?_
          rw [← calls, last]
          exact blocked

theorem fetchLoop_run (out : Result) (command : libpq.command = some results) :
    Fetched libpq results
      ((loop .exhausted fetchTurn ((libpq.command.getD []).length + 1) out).run libpq) := by
  apply loop_total (fun _ => Fetching libpq results)
    (fun _ libpq => (libpq.command.getD []).length)
  · intro out _ fetching
    exact fetchTurn_run out fetching
  · exact ⟨[], results, rfl, by simp, command, rfl⟩
  · exact Nat.lt_succ_self _

theorem pqConsumeInput_run (libpq : Libpq) :
    ∃ good later, pqConsumeInput.run libpq = .ok good later ∧ later.command = libpq.command := by
  simp only [EStateM.run, pqConsumeInput]
  split
  · exact ⟨_, _, rfl, rfl⟩
  · exact ⟨_, _, rfl, rfl⟩
  · exact ⟨_, _, rfl, rfl⟩

section ResultLoop

variable {read : Libpq} (turns : ℕ) (out : Result)

/-- The outer loop over the results is left in its first turn. -/
theorem resultLoop_run_read (consumes : pqConsumeInput.run libpq = .ok true read)
    (command : read.command = some results) :
    Fetched read results ((loop .exhausted resultTurn (turns + 1) out).run libpq) := by
  have fetched := fetchLoop_run out command
  cases fetches : (loop .exhausted fetchTurn
    ((read.command.getD []).length + 1) out).run read with
  | error error later =>
      have turn : (resultTurn out).run libpq = .error error later := by
        simp [resultTurn, run_bind, consumes, run_get, fetches]
      rw [loop_run_error turns turn, ← fetches]
      exact fetched
  | ok out' later =>
      rw [fetches] at fetched
      rcases fetched with ⟨⟨fine, idle⟩, blocked⟩
      have notBusy : pqIsBusy later = false := by
        simp [pqIsBusy, idle]
      have turn : (resultTurn out).run libpq = .ok (.done out') later := by
        simp [resultTurn, run_bind, consumes, run_get, fetches, notBusy, run_pure]
      rw [loop_run_done turns turn]
      exact ⟨.returned fine idle, blocked⟩

theorem resultLoop_run_failed (consumes : pqConsumeInput.run libpq = .ok false read) :
    (loop .exhausted resultTurn (turns + 1) out).run libpq = .error (.error .connection (-1)
      (connectionErrorMessage "pgsql consume input failed" read)) read := by
  apply loop_run_error
  simp only [resultTurn, run_bind, consumes]
  rfl

theorem resultLoop_run (command : libpq.command = some results) :
    QueryOutcome results ((loop .exhausted resultTurn (turns + 1) out).run libpq) := by
  rcases pqConsumeInput_run libpq with ⟨good, read, consumes, same⟩
  cases good with
  | false =>
      rw [resultLoop_run_failed turns out consumes]
      exact .disconnected
  | true => exact (resultLoop_run_read turns out consumes (same.trans command)).outcome

end ResultLoop

/-- `PQflush` gets everything out; while it does not, the socket can be polled. -/
def flushed (socket : ℤ) : List ℤ → Bool
  | [] => true
  | code :: later =>
      if code = 0 then true
      else if code = 1 then decide (0 ≤ socket) && flushed socket later
      else false

/-- What flushing leads to: everything is out, or the socket has failed. -/
inductive Flushed (start : Libpq) : EStateM.Result PgError Libpq Unit → Prop
  | sent {left : List ℤ} (out : flushed start.socket start.flushes = true) :
      Flushed start (.ok () { start with flushes := left })
  | failed {code : ℤ} {message : Bytes} {left : List ℤ}
      (stuck : flushed start.socket start.flushes = false) :
      Flushed start (.error (.error .connection code message) { start with flushes := left })

/-- The codes that are left decide. -/
def Flushing (start libpq : Libpq) : Prop :=
  libpq = { start with flushes := libpq.flushes } ∧
    flushed start.socket start.flushes = flushed start.socket libpq.flushes

theorem flushTurn_run (flushing : Flushing start libpq) :
    Turn.Meets (fun _ libpq' => Flushing start libpq' ∧
        libpq'.flushes.length < libpq.flushes.length)
      (Flushed start) ((flushTurn ()).run libpq) := by
  rcases flushing with ⟨same, decides⟩
  generalize libpq.flushes = codes at same decides
  subst same
  cases codes with
  | nil => exact Flushed.sent decides
  | cons code later =>
      have flush : pqFlush.run { start with flushes := code :: later } =
          .ok code { start with flushes := later } := rfl
      rw [flushed] at decides
      simp only [flushTurn, run_bind, flush]
      split_ifs with done again
      · exact Flushed.sent (by simpa [done] using decides)
      · simp only [run_bind, run_get]
        split_ifs with invalid
        · exact Flushed.failed (by simpa [again, not_le.mpr invalid] using decides)
        · exact ⟨⟨rfl, by simpa [again, not_lt.mp invalid] using decides⟩, by simp⟩
      · exact Flushed.failed (by simpa [done, again] using decides)

theorem flushLoop_run (libpq : Libpq) :
    Flushed libpq ((loop .exhausted flushTurn (libpq.flushes.length + 1) ()).run libpq) := by
  apply loop_total (fun _ => Flushing libpq) (fun _ later => later.flushes.length)
  · intro _ _ flushing
    exact flushTurn_run flushing
  · exact ⟨rfl, rfl⟩
  · exact Nat.lt_succ_self _

theorem pqSendQueryParams_run_idle (idle : libpq.command = none) (answer : Answer) (sql : Bytes)
    (values : List (Option Bytes)) :
    ∃ sent, (pqSendQueryParams answer sql values).run libpq = .ok true sent ∧
      sent.command = some answer.results ∧ sent.flushes = answer.flushes ∧
      sent.inputs = answer.inputs ∧ sent.socket = answer.socket ∧ sent.ready = 0 ∧
      sent.blocked = libpq.blocked := by
  simp only [EStateM.run, pqSendQueryParams, idle]
  exact ⟨_, rfl, rfl, rfl, rfl, rfl, rfl, rfl⟩

theorem execute_run_idle (idle : libpq.command = none) (answer : Answer) (sql : Bytes)
    (params : List Value) :
    QueryOutcome answer.results ((execute answer sql params).run libpq) := by
  rcases pqSendQueryParams_run_idle idle answer sql (renderParams params) with
    ⟨sent, sends, command, flushes, -⟩
  have flushed := flushLoop_run sent
  simp only [execute, run_bind, sends, if_true, ← flushes]
  generalize (loop .exhausted flushTurn (sent.flushes.length + 1) ()).run sent = ran at flushed
  cases flushed with
  | sent out => exact resultLoop_run answer.inputs.length {} command
  | failed stuck => exact .disconnected

theorem execute_run_busy {rest : List PgResult} (busy : libpq.command = some rest) (answer : Answer)
    (sql : Bytes) (params : List Value) :
    ∃ message later, (execute answer sql params).run libpq =
      .error (.error .refused (-1) message) later ∧ later.command = some rest ∧
        later.blocked = libpq.blocked := by
  have refuses : ∃ later, (pqSendQueryParams answer sql (renderParams params)).run libpq =
      .ok false later ∧ later.command = some rest ∧ later.blocked = libpq.blocked := by
    simp only [EStateM.run, pqSendQueryParams, busy]
    exact ⟨_, rfl, rfl, rfl⟩
  rcases refuses with ⟨later, refuses, same⟩
  refine ⟨connectionErrorMessage "pgsql send query failed" later, later, ?_, same⟩
  simp only [execute, run_bind, refuses, Bool.false_eq_true, if_false]
  rfl

namespace PgSession

/-- libpq is connected and has no command. -/
def Idle (session : PgSession) : Prop :=
  ∃ libpq, session.driver.conn = some libpq ∧ libpq.command = none

/-- The last call has returned, or it has thrown because of an error the server reported. -/
def Settled (session : PgSession) : Prop :=
  match session.outcome with
  | none | some (.ok _) | some (.error (.error .server _ _)) => True
  | _ => False

/-- The next statement is not refused. -/
def Accepts (session : PgSession) : Prop :=
  ∀ query next code message, session.step query = some next →
    next.outcome ≠ some (.error (.error .refused code message))

/-- The connection has survived the last call. -/
def Survives (session : PgSession) : Prop :=
  session.Settled → session.Idle ∧ session.Accepts

variable {session : PgSession}

theorem step_eq {next : PgSession} {query : Query} {libpq : Libpq}
    (connected : session.driver.conn = some libpq) (taken : session.step query = some next) :
    (∃ out later, (execute query.answer query.sql query.params).run libpq = .ok out later ∧
      next = { driver := { conn := some later }, outcome := some (.ok out) }) ∨
    (∃ error later, (execute query.answer query.sql query.params).run libpq = .error error later ∧
      next = { driver := { conn := some later }, outcome := some (.error error) }) := by
  simp only [step, EStateM.run, queryAsync, connected] at taken
  cases ran : (execute query.answer query.sql query.params).run libpq with
  | ok out later =>
      left
      simp only [EStateM.run] at ran
      simp only [ran, Option.some.injEq] at taken
      exact ⟨out, later, rfl, taken.symm⟩
  | error error later =>
      right
      simp only [EStateM.run] at ran
      simp only [ran, Option.some.injEq] at taken
      exact ⟨error, later, rfl, taken.symm⟩

theorem Idle.accepts (idle : session.Idle) : session.Accepts := by
  rcases idle with ⟨_, connected, none⟩
  intro query _ _ _ taken refused
  have ends := execute_run_idle none query.answer query.sql query.params
  rcases step_eq connected taken with ⟨_, _, ran, rfl⟩ | ⟨_, _, ran, rfl⟩
  · cases refused
  · rw [ran] at ends
    cases refused
    cases ends

/-- Every result of the statement is a success. -/
def Succeeds (_ : PgSession) (query : Query) : Prop :=
  ∀ result ∈ query.answer.results, result.isOk = true

instance (session : PgSession) (query : Query) : Decidable (session.Succeeds query) :=
  inferInstanceAs (Decidable (∀ result ∈ query.answer.results, result.isOk = true))

/-- The invariant of a run: the connection is there, and idle unless the last call failed
with the socket or was refused. -/
def Sound (session : PgSession) : Prop :=
  session.driver.conn.isSome = true ∧ (session.Settled → session.Idle)

/-- A query that succeeds leaves the session free for the next one. -/
theorem Sound.step {next : PgSession} {query : Query} (sound : session.Sound)
    (succeeds : session.Succeeds query) (taken : session.step query = some next) : next.Sound := by
  rcases Option.isSome_iff_exists.mp sound.1 with ⟨libpq, connected⟩
  cases command : libpq.command with
  | some _ =>
      rcases execute_run_busy command query.answer query.sql query.params with
        ⟨_, later, refused, -⟩
      rcases step_eq connected taken with ⟨_, later, ran, rfl⟩ | ⟨_, later, ran, rfl⟩
      · rw [refused] at ran
        cases ran
      · rw [refused] at ran
        cases ran
        exact ⟨rfl, fun settled => settled.elim⟩
  | none =>
      have ends := execute_run_idle command query.answer query.sql query.params
      rcases step_eq connected taken with ⟨_, later, ran, rfl⟩ | ⟨_, later, ran, rfl⟩
      · rw [ran] at ends
        rcases ends with ⟨-, idle⟩
        exact ⟨rfl, fun _ => ⟨later, rfl, idle⟩⟩
      · rw [ran] at ends
        cases ends with
        | reported member fails _ =>
            rw [succeeds _ member] at fails
            cases fails
        | disconnected => exact ⟨rfl, fun settled => settled.elim⟩

end PgSession

/-- On a connection that is idle at first, as long as the server reports no error. -/
theorem session_survives (start session : PgSession) (idle : start.Idle)
    (reached : Reached PgSession.step PgSession.Succeeds start session) : session.Survives := by
  have sound : session.Sound := by
    apply reached.invariant
    · rcases idle with ⟨libpq, connected, none⟩
      exact ⟨by simp [connected], fun _ => ⟨libpq, connected, none⟩⟩
    · intro _ _ _ sound succeeds taken
      exact sound.step succeeds taken
  intro settled
  have nowIdle := sound.2 settled
  exact ⟨nowIdle, nowIdle.accepts⟩

/-- A statement with two results, and one that is not flushed at once. -/
def plainStatements : List Query :=
  [{ sql := ascii "SELECT", answer :=
      { results := [{ status := 2, rows := [[none]] }, { status := 1, cmdTuples := ascii "3" }] } },
    { sql := ascii "UPDATE", answer := { results := [{ status := 1 }], flushes := [1, 0] } }]

theorem session_survives_plain :
    ∃ session, follow PgSession.step PgSession.Succeeds { driver := { conn := some {} } }
        plainStatements = some session ∧
      session.outcome = some (.ok {}) ∧ session.Idle ∧ session.Accepts := by
  have followed : (follow PgSession.step PgSession.Succeeds { driver := { conn := some {} } }
      plainStatements).map PgSession.outcome = some (some (.ok {})) := by
    decide +kernel
  rcases exists_of_follow followed with ⟨session, ran, reached, outcome⟩
  have survives := session_survives { driver := { conn := some {} } } session ⟨{}, rfl, rfl⟩
    reached
  have settled : session.Settled := by
    simp [PgSession.Settled, outcome]
  exact ⟨session, ran, outcome, survives settled⟩

/-- A statement the server rejects. -/
def rejectedStatement : Query :=
  { sql := ascii "SELEC", answer := { results := [{ status := 7, message := ascii "error\n" }] } }

def plainStatement : Query :=
  { sql := ascii "SELECT", answer := { results := [{ status := 2 }] } }

/-- The first call throws because of the server's error and leaves libpq busy; the second
is refused. -/
theorem statement_after_error_refused :
    ∃ first second,
      PgSession.step { driver := { conn := some {} } } rejectedStatement = some first ∧
      first.outcome = some (.error (.error .server 7 (ascii "error"))) ∧
      first.Settled ∧ ¬first.Idle ∧
      PgSession.step first plainStatement = some second ∧
      second.outcome = some (.error (.error .refused (-1)
        (ascii "another command is already in progress"))) := by
  have fails : (PgSession.step { driver := { conn := some {} } } rejectedStatement).map
      (fun session => (session.outcome, session.driver.conn.map (·.command.isSome))) =
        some (some (.error (.error .server 7 (ascii "error"))), some true) := by
    decide +kernel
  have refused : ((PgSession.step { driver := { conn := some {} } } rejectedStatement).bind
      (PgSession.step · plainStatement)).map PgSession.outcome =
        some (some (.error (.error .refused (-1)
          (ascii "another command is already in progress")))) := by
    decide +kernel
  rcases Option.map_eq_some_iff.mp fails with ⟨first, one, seen⟩
  rcases Prod.mk.inj seen with ⟨outcome, busy⟩
  rw [one, Option.bind_some] at refused
  rcases Option.map_eq_some_iff.mp refused with ⟨second, two, outcome'⟩
  refine ⟨first, second, one, outcome, by simp [PgSession.Settled, outcome], ?_, two, outcome'⟩
  rintro ⟨_, connected, idle⟩
  simp [connected, idle] at busy

end Corouv.Sql
