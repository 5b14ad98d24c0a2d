import Corouv.Library.Commands
import Corouv.Sql.Postgres

/-!
# The parameters of a PostgreSQL statement

`query_async` passes every parameter as text, with neither a length nor a format, so libpq
reads a text up to its first NUL byte.  Booleans and integers are told apart, and a null is
told apart from everything else.  Two strings are told apart if they differ before the first
NUL byte, and two blobs only if they differ in size.
-/

namespace Corouv.Sql

open Library

/-- The alternatives of `Value`. -/
inductive Alternative where
  | null
  | bool
  | int64
  | double
  | string
  | blob
  deriving DecidableEq

def Value.alternative : Value → Alternative
  | .null => .null
  | .bool _ => .bool
  | .int64 _ => .int64
  | .double _ => .double
  | .string _ => .string
  | .blob _ => .blob

/-- One parameter as libpq reads it. -/
def wireParam : Value → Option Bytes
  | .null => none
  | value => some (cString (valueToString value))

theorem map_cString_renderParams (params : List Value) :
    (renderParams params).map (Option.map cString) = params.map wireParam := by
  simp only [renderParams, List.map_map]
  apply List.map_congr_left
  intro value _
  cases value with
  | _ => rfl

theorem cString_of_notMem {text : Bytes} (plain : 0 ∉ text) : cString text = text := by
  apply List.takeWhile_eq_self_iff.mpr
  intro _ member
  simp only [bne_iff_ne]
  rintro rfl
  exact plain member

theorem notMem_intToString (number : ℤ) : 0 ∉ intToString number := by
  have plain : 0 ∉ Numeral.digits 10 number.natAbs :=
    Numeral.notMem_digits 10 _ (by norm_num) (by norm_num) (by decide)
  rw [intToString]
  split
  · simp only [List.mem_append, not_or]
    exact ⟨by decide, plain⟩
  · exact plain

theorem digits_injective {first second : ℕ}
    (same : Numeral.digits 10 first = Numeral.digits 10 second) : first = second := by
  have read := congrArg (Numeral.value 10) same
  rwa [Numeral.value_digits (by norm_num) (by norm_num),
    Numeral.value_digits (by norm_num) (by norm_num)] at read

theorem digits_ne_signed (first second : ℕ) :
    Numeral.digits 10 first ≠ ascii "-" ++ Numeral.digits 10 second := by
  intro same
  have sign : (45 : UInt8) ∈ Numeral.digits 10 first := by
    rw [same]
    exact List.mem_append_left _ (by decide)
  exact Numeral.notMem_digits 10 first (by norm_num) (by norm_num) (by decide) sign

theorem intToString_injective {first second : ℤ}
    (same : intToString first = intToString second) : first = second := by
  simp only [intToString] at same
  split at same
  · split at same
    · have sizes := digits_injective (List.append_cancel_left same)
      omega
    · exact absurd same.symm (digits_ne_signed _ _)
  · split at same
    · exact absurd same (digits_ne_signed _ _)
    · have sizes := digits_injective same
      omega

theorem wireParam_int64 (number : ℤ) : wireParam (.int64 number) = some (intToString number) :=
  congrArg some (cString_of_notMem (notMem_intToString number))

theorem wireParam_blob (bytes : Bytes) : wireParam (.blob bytes) =
    some (ascii "<blob:" ++ intToString bytes.length ++ ascii ">") := by
  have plain : 0 ∉ ascii "<blob:" ++ intToString bytes.length ++ ascii ">" := by
    simp only [List.mem_append, not_or]
    exact ⟨⟨by decide, notMem_intToString _⟩, by decide⟩
  exact congrArg some (cString_of_notMem plain)

/-- The values are of the same alternative, and not doubles, or one of them is a null. -/
def Value.Comparable (value other : Value) : Prop :=
  (value.alternative = other.alternative ∧ value.alternative ≠ .double) ∨
    value = .null ∨ other = .null

/-- Strings that differ before the first NUL byte, blobs of different sizes, and all other
values. -/
def Value.ToldApart : Value → Value → Prop
  | .string text, .string other => cString text ≠ cString other
  | .blob bytes, .blob other => bytes.length ≠ other.length
  | _, _ => True

/-- Two different values are sent differently exactly if they can be told apart. -/
theorem wireParam_ne_iff {value other : Value} (differ : value ≠ other)
    (comparable : value.Comparable other) :
    wireParam value ≠ wireParam other ↔ value.ToldApart other := by
  rcases comparable with ⟨same, notDouble⟩ | rfl | rfl
  · cases value with
    | null =>
        cases other with
        | null => exact absurd rfl differ
        | _ => cases same
    | bool value =>
        cases other with
        | bool other =>
            refine iff_of_true ?_ trivial
            have printed : wireParam (.bool false) ≠ wireParam (.bool true) := by decide
            cases value with
            | false =>
                cases other with
                | false => exact absurd rfl differ
                | true => exact printed
            | true =>
                cases other with
                | false => exact printed.symm
                | true => exact absurd rfl differ
        | _ => cases same
    | int64 value =>
        cases other with
        | int64 other =>
            rw [wireParam_int64, wireParam_int64]
            refine iff_of_true ?_ trivial
            intro printed
            exact differ (congrArg Value.int64 (intToString_injective (Option.some.inj printed)))
        | _ => cases same
    | double printed => exact absurd rfl notDouble
    | string _ =>
        cases other with
        | string other => exact not_congr Option.some_inj
        | _ => cases same
    | blob _ =>
        cases other with
        | blob other =>
            rw [wireParam_blob, wireParam_blob]
            refine not_congr ⟨?_, ?_⟩
            · intro printed
              have sizes := List.append_cancel_left
                (List.append_cancel_right (Option.some.inj printed))
              exact_mod_cast intToString_injective sizes
            · intro sizes
              rw [sizes]
        | _ => cases same
  · cases other with
    | null => exact absurd rfl differ
    | _ => exact iff_of_true (by simp [wireParam]) trivial
  · cases value with
    | null => exact absurd rfl differ
    | _ => exact iff_of_true (by simp [wireParam]) trivial

section Sent

variable (log : List (Bytes × List (Option Bytes)))

/-- No further statement is sent. -/
def SendsNothing {α : Type} (task : PgTask α) : Prop :=
  Preserves (fun libpq : Libpq => libpq.sent = log) task

theorem sendsNothing_throwPgError {α : Type} (cause : Cause) (code : ℤ) (fallback : String) :
    SendsNothing log (throwPgError cause code fallback : PgTask α) :=
  preserves_get_bind fun _ => preserves_throw _

theorem sendsNothing_pqFlush : SendsNothing log pqFlush := by
  intro _ same
  simp only [EStateM.run, pqFlush]
  split
  · exact same
  · exact same

theorem sendsNothing_pqConsumeInput : SendsNothing log pqConsumeInput := by
  intro _ same
  simp only [EStateM.run, pqConsumeInput]
  split
  · exact same
  · exact same
  · exact same

theorem sendsNothing_pqGetResult : SendsNothing log pqGetResult := by
  intro _ same
  simp only [EStateM.run, pqGetResult]
  split
  · exact same
  · exact same
  · exact same

theorem sendsNothing_flushTurn (entry : Unit) : SendsNothing log (flushTurn entry) := by
  apply preserves_bind (sendsNothing_pqFlush log)
  intro _
  split
  · exact preserves_pure _
  · split
    · apply preserves_get_bind
      intro _
      split
      · exact preserves_throw _
      · exact preserves_pure _
    · exact sendsNothing_throwPgError log _ _ _

theorem sendsNothing_fetchTurn (out : Result) : SendsNothing log (fetchTurn out) := by
  apply preserves_bind (sendsNothing_pqGetResult log)
  intro fetched
  cases fetched with
  | none => exact preserves_pure _
  | some _ =>
      refine preserves_bind ?_ fun _ => preserves_pure _
      simp only [parseResult]
      split
      · split
        · exact preserves_pure _
        · exact preserves_pure _
      · exact sendsNothing_throwPgError log _ _ _

theorem sendsNothing_resultTurn (out : Result) : SendsNothing log (resultTurn out) := by
  apply preserves_bind (sendsNothing_pqConsumeInput log)
  intro _
  split
  · apply preserves_get_bind
    intro _
    apply preserves_bind (preserves_loop (sendsNothing_fetchTurn log) _ out)
    intro _
    apply preserves_get_bind
    intro _
    split
    · split
      · exact preserves_throw _
      · exact preserves_pure _
    · exact preserves_pure _
  · exact sendsNothing_throwPgError log _ _ _

end Sent

/-- The parameters with which a call has reached the server, as libpq reads them; none if
the call was refused. -/
def passedParams (driver : PostgresDriver) (answer : Answer) (sql : Bytes) (params : List Value) :
    Option (List (Option Bytes)) :=
  match driver.conn, (endState ((queryAsync answer sql params).run driver)).conn with
  | some before, some after => (after.sent[before.sent.length]?).map Prod.snd
  | _, _ => none

theorem sent_of_idle {libpq : Libpq} (idle : libpq.command = none) (answer : Answer) (sql : Bytes)
    (params : List Value) : (endState ((execute answer sql params).run libpq)).sent =
      libpq.sent ++ [(cString sql, params.map wireParam)] := by
  have sends : ∃ later, (pqSendQueryParams answer sql (renderParams params)).run libpq =
      .ok true later ∧ later.sent = libpq.sent ++ [(cString sql, params.map wireParam)] := by
    simp only [EStateM.run, pqSendQueryParams, idle, ← map_cString_renderParams]
    exact ⟨_, rfl, rfl⟩
  rcases sends with ⟨_, sends, logged⟩
  simp only [execute, EStateM.run_bind, sends, if_true]
  apply preserves_bind (preserves_loop (sendsNothing_flushTurn _) _ ())
  · intro _
    exact preserves_loop (sendsNothing_resultTurn _) _ _
  · exact logged

theorem sent_of_busy {libpq : Libpq} {rest : List PgResult} (busy : libpq.command = some rest)
    (answer : Answer) (sql : Bytes) (params : List Value) :
    (endState ((execute answer sql params).run libpq)).sent = libpq.sent := by
  have refuses : ∃ later, (pqSendQueryParams answer sql (renderParams params)).run libpq =
      .ok false later ∧ later.sent = libpq.sent := by
    simp only [EStateM.run, pqSendQueryParams, busy]
    exact ⟨_, rfl, rfl⟩
  rcases refuses with ⟨later, refuses, same⟩
  simp only [execute, EStateM.run_bind, refuses, Bool.false_eq_true, if_false]
  exact sendsNothing_throwPgError libpq.sent _ _ _ later same

theorem passedParams_of_accepts {driver : PostgresDriver} (accepts : driver.Accepts)
    (answer : Answer) (sql : Bytes) (params : List Value) :
    passedParams driver answer sql params = some (params.map wireParam) := by
  rcases accepts with ⟨_, connected, idle⟩
  have sent := sent_of_idle idle answer sql params
  simp only [passedParams, connected, conn_queryAsync connected, sent]
  simp

theorem passedParams_of_refuses {driver : PostgresDriver} (refuses : ¬driver.Accepts)
    (answer : Answer) (sql : Bytes) (params : List Value) :
    passedParams driver answer sql params = none := by
  cases connected : driver.conn with
  | none => simp only [passedParams, connected]
  | some libpq =>
      cases command : libpq.command with
      | none => exact absurd ⟨libpq, connected, command⟩ refuses
      | some _ =>
          have sent := sent_of_busy command answer sql params
          simp only [passedParams, connected, conn_queryAsync connected, sent]
          simp

def passedParam (driver : PostgresDriver) (answer : Answer) (sql : Bytes) (params : List Value)
    (index : ℕ) : Option (Option Bytes) :=
  (passedParams driver answer sql params).bind fun passed => passed[index]?

/-- Two different values of one alternative, or a null and another value, are passed
differently, or the call is refused, exactly if libpq can tell their texts apart or the
driver accepts no statement. -/
theorem parameters_lossless_iff {first second : List Value} {index : ℕ} {value other : Value}
    (driver : PostgresDriver) (answer answer' : Answer) (sql sql' : Bytes)
    (one : first[index]? = some value) (two : second[index]? = some other)
    (differ : value ≠ other) (comparable : value.Comparable other) :
    (passedParams driver answer sql first = none ∨
        passedParam driver answer sql first index ≠ passedParam driver answer' sql' second index) ↔
      (¬driver.Accepts ∨ value.ToldApart other) := by
  by_cases accepts : driver.Accepts
  · have here : ∀ params answer sql, passedParam driver answer sql params index =
        (params[index]?).map wireParam := by
      intro _ answer sql
      simp [passedParam, passedParams_of_accepts accepts]
    rw [here, here, one, two, passedParams_of_accepts accepts]
    simp only [Option.map_some, reduceCtorEq, false_or, not_true_eq_false, accepts]
    rw [← wireParam_ne_iff differ comparable]
    exact not_congr Option.some_inj
  · exact iff_of_true (.inl (passedParams_of_refuses accepts answer sql first)) (.inl accepts)

def idleDriver : PostgresDriver :=
  { conn := some {} }

def emptyAnswer : Answer :=
  { results := [] }

theorem parameters_lossless_iff_integers :
    passedParam idleDriver emptyAnswer (ascii "SELECT $1, $2") [.null, .int64 (-1)] 1 ≠
      passedParam idleDriver emptyAnswer (ascii "SELECT $1, $2") [.null, .int64 1] 1 := by
  have accepts : idleDriver.Accepts := ⟨{}, rfl, rfl⟩
  have comparable : (Value.int64 (-1)).Comparable (.int64 1) := .inl ⟨rfl, by decide⟩
  have one : [Value.null, .int64 (-1)][1]? = some (.int64 (-1)) := rfl
  have two : [Value.null, .int64 1][1]? = some (.int64 1) := rfl
  have lossless := (parameters_lossless_iff idleDriver emptyAnswer emptyAnswer
    (ascii "SELECT $1, $2") (ascii "SELECT $1, $2") one two (by simp) comparable).mpr (.inr trivial)
  rw [passedParams_of_accepts accepts] at lossless
  exact lossless.resolve_left (by simp)

/-- Strings that differ behind a NUL byte, and blobs of the same size. -/
theorem different_parameters_passed_alike :
    passedParam idleDriver emptyAnswer (ascii "SELECT $1") [.string [97, 0, 98]] 0 =
        some (some [97]) ∧
      passedParam idleDriver emptyAnswer (ascii "SELECT $1") [.string [97, 0, 99]] 0 =
        some (some [97]) ∧
      passedParam idleDriver emptyAnswer (ascii "SELECT $1") [.blob [1]] 0 =
        passedParam idleDriver emptyAnswer (ascii "SELECT $1") [.blob [2]] 0 ∧
      passedParam idleDriver emptyAnswer (ascii "SELECT $1") [.blob [1]] 0 =
        some (some (ascii "<blob:1>")) := by
  decide +kernel

end Corouv.Sql
