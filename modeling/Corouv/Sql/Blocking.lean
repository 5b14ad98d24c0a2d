import Corouv.Sql.CommandState

/-!
# Results that have not arrived

After each `PQconsumeInput`, `query_async` calls `PQgetResult` without asking `PQisBusy`
first.  The call blocks the loop whenever a result has not arrived completely.  Only if the
first `PQconsumeInput` finds everything that is going to be fetched, the loop is not blocked;
and `poll::readable` is never awaited, since `PQisBusy` is asked only after the last result.
-/

namespace Corouv.Sql

open Library
open EStateM (run_bind run_get run_pure)

def PostgresDriver.blocked (driver : PostgresDriver) : ℕ :=
  (driver.conn.map Libpq.blocked).getD 0

variable {libpq : Libpq}

/-- What the first `PQconsumeInput` finds is enough, or it fails. -/
def Answer.Complete (answer : Answer) : Prop :=
  match answer.inputs with
  | [] => False
  | none :: _ => True
  | some complete :: _ => fetches answer.results ≤ complete

theorem resultLoop_blocked_iff {answer : Answer} (out : Result) (turns : ℕ)
    (command : libpq.command = some answer.results) (inputs : libpq.inputs = answer.inputs)
    (ready : libpq.ready = 0) :
    (endState ((loop .exhausted resultTurn (turns + 1) out).run libpq)).blocked = libpq.blocked ↔
      answer.Complete := by
  simp only [Answer.Complete]
  cases schedule : answer.inputs with
  | nil =>
      -- nothing has arrived, and the first fetch blocks
      have consumes : pqConsumeInput.run libpq = .ok true libpq := by
        simp only [EStateM.run, pqConsumeInput, inputs.trans schedule]
      rw [(resultLoop_run_read turns out consumes command).blocked, ready]
      refine iff_of_false ?_ id
      simp only [fetches]
      omega
  | cons input later =>
      cases input with
      | none =>
          have consumes : pqConsumeInput.run libpq = .ok false { libpq with inputs := later } := by
            simp only [EStateM.run, pqConsumeInput, inputs.trans schedule]
          rw [resultLoop_run_failed turns out consumes]
          exact iff_of_true rfl trivial
      | some complete =>
          have consumes : pqConsumeInput.run libpq =
              .ok true { libpq with inputs := later, ready := libpq.ready + complete } := by
            simp only [EStateM.run, pqConsumeInput, inputs.trans schedule]
          rw [(resultLoop_run_read turns out consumes command).blocked, ready]
          simp only
          omega

/-- If the statement is accepted and can be flushed, the results arrive before they are
asked for. -/
def PostgresDriver.InTime (driver : PostgresDriver) (answer : Answer) : Prop :=
  driver.Accepts → flushed answer.socket answer.flushes = true → answer.Complete

theorem execute_blocked_iff (idle : libpq.command = none) (answer : Answer) (sql : Bytes)
    (params : List Value) :
    (endState ((execute answer sql params).run libpq)).blocked = libpq.blocked ↔
      (flushed answer.socket answer.flushes = true → answer.Complete) := by
  rcases pqSendQueryParams_run_idle idle answer sql (renderParams params) with
    ⟨sent, sends, command, flushes, inputs, socket, ready, same⟩
  have flushed := flushLoop_run sent
  rw [← socket, ← same]
  simp only [execute, run_bind, sends, if_true, ← flushes]
  generalize (loop .exhausted flushTurn (sent.flushes.length + 1) ()).run sent = ran at flushed
  cases flushed with
  | sent out =>
      rw [forall_prop_of_true out]
      exact resultLoop_blocked_iff {} answer.inputs.length command inputs ready
  | failed stuck => exact iff_of_true rfl (by simp [stuck])

/-- The loop is not blocked in a call exactly if the results arrive before they are asked
for. -/
theorem never_blocks_iff (driver : PostgresDriver) (answer : Answer) (sql : Bytes)
    (params : List Value) :
    (endState ((queryAsync answer sql params).run driver)).blocked = driver.blocked ↔
      driver.InTime answer := by
  cases connected : driver.conn with
  | none =>
      have refused : (queryAsync answer sql params).run driver =
          .error (.logic "corouv::sql pgsql driver is not connected") driver := by
        simp only [EStateM.run, queryAsync, connected]
      rw [refused]
      refine iff_of_true rfl ?_
      rintro ⟨libpq, found, -⟩
      rw [connected] at found
      cases found
  | some libpq =>
      simp only [PostgresDriver.blocked, conn_queryAsync connected, connected, Option.map_some,
        Option.getD_some]
      cases command : libpq.command with
      | none =>
          rw [execute_blocked_iff command]
          constructor
          · intro inTime _
            exact inTime
          · intro inTime
            exact inTime ⟨libpq, connected, command⟩
      | some _ =>
          rcases execute_run_busy command answer sql params with ⟨_, _, refused, -, same⟩
          rw [refused]
          refine iff_of_true same ?_
          rintro ⟨_, found, none⟩
          cases connected.symm.trans found
          cases command.symm.trans none

/-- The response arrives after the first `PQconsumeInput`. -/
theorem slow_response_blocks :
    0 < (endState ((queryAsync
      { results := [{ status := kPgCommandOk }], inputs := [some 0, some 2] }
      (ascii "DELETE FROM users") []).run { conn := some {} })).blocked := by
  decide +kernel

end Corouv.Sql
