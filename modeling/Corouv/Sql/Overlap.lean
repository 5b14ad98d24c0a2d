import Corouv.Sql.Lifecycle

/-!
# Operations of one driver at a time

Nothing in `Connection` keeps a call from handing an operation to a driver that is still busy
with another.  The operations of a driver do not overlap if the callers see to it: a query, a
close and the replacement at the end of a connect come only when every operation on the current
driver has ended.  Wherever a caller does not, two operations can be under way at once.
-/

namespace Corouv.Sql

open Library

/-- An operation on the driver that has not ended. -/
def Phase.unfinished (id : ℕ) : Phase → Bool
  | .posted _ driver | .running _ driver => driver == id
  | _ => false

def Phase.executing (id : ℕ) : Phase → Bool
  | .running _ driver => driver == id
  | _ => false

namespace Connection

/-- At most one operation is in progress on each driver. -/
def Exclusive (state : Connection) : Prop :=
  ∀ id, state.calls.countP (Phase.executing id) ≤ 1

/-- No operation on the current driver is left when a call uses or replaces it. -/
def Free (state : Connection) : ConnectionEvent → Prop
  | .query | .close | .goesOn _ =>
      ∀ id, state.driver = some id → state.calls.countP (Phase.unfinished id) = 0
  | _ => True

instance (state : Connection) : DecidablePred state.Free
  | .query | .close | .goesOn _ => inferInstanceAs (Decidable (∀ id ∈ state.driver,
      state.calls.countP (Phase.unfinished id) = 0))
  | .connect _ _ | .connectEnds _ _ | .begins _ | .ends _ _ => isTrue trivial

/-- At most one operation on each driver has been handed over and has not ended. -/
def Single (state : Connection) : Prop :=
  ∀ id, state.calls.countP (Phase.unfinished id) ≤ 1

variable {state next : Connection} {id : ℕ} {phase : Phase}

theorem Single.exclusive (single : state.Single) : state.Exclusive := by
  intro id
  apply Nat.le_trans _ (single id)
  apply List.countP_mono_left
  intro phase _ executing
  cases phase with
  | running _ _ => exact executing
  | _ => cases executing

variable {operation : Operation} {call first : ℕ} {event : ConnectionEvent} {base : Connection}
  {driver : Driver}

theorem unfinished_hand (handed : state.hand operation id = some (next, phase)) (other : ℕ) :
    phase.unfinished other = (id == other) := by
  rcases hand_cases handed with ⟨_, -, ⟨-, rfl⟩ | ⟨-, rfl⟩⟩
  · rfl
  · rfl

theorem Single.add
    (room : ∀ id, state.calls.countP (Phase.unfinished id) + (phase.unfinished id).toNat ≤ 1) :
    (state.add phase).Single := by
  intro id
  have counted : (state.calls ++ [phase]).countP (Phase.unfinished id) =
      state.calls.countP (Phase.unfinished id) + (phase.unfinished id).toNat := by
    rw [List.countP_append, List.countP_singleton]
    cases phase.unfinished id <;> rfl
  exact counted ▸ room id

theorem Single.put {before : Phase} (found : state.calls[call]? = some before)
    (room : ∀ id, state.calls.countP (Phase.unfinished id) + (phase.unfinished id).toNat ≤
      1 + (before.unfinished id).toNat) : (state.put call phase).Single := by
  intro id
  have counted := countP_set_add found phase (Phase.unfinished id)
  have bound := room id
  simp only [Connection.put]
  omega

theorem Single.room (single : state.Single) (free : state.calls.countP (Phase.unfinished id) = 0)
    (other : ℕ) : state.calls.countP (Phase.unfinished other) + (id == other).toNat ≤ 1 := by
  by_cases here : id = other
  · subst here
    rw [free, beq_self_eq_true]
    exact Nat.le_refl 1
  · rw [beq_false_of_ne here]
    exact single other

theorem Single.step (single : state.Single) (free : state.Free event)
    (taken : state.step event = some next) : next.Single := by
  cases move_of_step taken with
  | refused bad | creates good | unconnected vacant
  | closesNothing _ => exact Single.add single
  | @connects call id driver waits found | @fails call id driver error waits found
  | @installs _ id _ waits _ _ =>
      apply Single.put waits
      intro other
      exact single other
  | @replaces _ id old _ after _ waits _ current handed =>
      rcases hand_same handed with ⟨-, -, calls⟩
      apply Single.put (calls ▸ waits)
      intro other
      rw [calls, unfinished_hand handed]
      exact single.room (free old current) other
  | @queries id after _ current handed =>
      rcases hand_same handed with ⟨-, -, calls⟩
      apply Single.add
      intro other
      rw [calls, unfinished_hand handed]
      exact single.room (free id current) other
  | @closes id after _ current handed =>
      rcases hand_same handed with ⟨-, -, calls⟩
      apply Single.add
      intro other
      rw [calls, unfinished_hand handed]
      exact single.room (free id current) other
  | @begins _ _ _ _ waits _ =>
      apply Single.put (by rw [start_calls]; exact waits)
      intro other
      rw [start_calls]
      exact Nat.add_le_add_right (single other) _
  | @ends _ _ _ error waits =>
      apply Single.put waits
      intro other
      have bound := single other
      have ends : (ended error).unfinished other = false := by
        cases error <;> rfl
      rw [ends, Bool.toNat_false]
      omega

theorem executing_reached (reached : Reached step (fun _ _ => True) base state)
    (waits : state.calls[call]? = some phase) (unfinished : phase.unfinished id = true)
    (found : state.drivers[id]? = some driver) :
    ∃ next, Reached step (fun _ _ => True) base next ∧
      (∃ operation, next.calls[call]? = some (.running operation id)) ∧
      (∀ other, other ≠ call → next.calls[other]? = state.calls[other]?) ∧
      ∃ driver', next.drivers[id]? = some driver' := by
  cases phase with
  | running operation _ =>
      cases beq_iff_eq.mp unfinished
      exact ⟨state, reached, ⟨operation, waits⟩, fun _ _ => rfl, driver, found⟩
  | posted operation _ =>
      cases beq_iff_eq.mp unfinished
      have taken : state.step (.begins call) =
          some ((state.start operation id driver).put call (.running operation id)) := by
        simp [step, waits, found]
      rcases (retains_start operation found).2 id driver found with ⟨after, here, -⟩
      refine ⟨_, reached.step trivial taken, ⟨operation, ?_⟩, ?_, after, here⟩
      · rw [put, start_calls]
        exact getElem?_set_of_eq_some waits _
      · intro _ differ
        rw [put, start_calls, List.getElem?_set_ne (Ne.symm differ)]
  | _ => cases unfinished

theorem overlap_reached {second : ℕ} {phase' : Phase} (found : state.drivers[id]? = some driver)
    (differ : first ≠ second) (waits : state.calls[first]? = some phase)
    (unfinished : phase.unfinished id = true) (waits' : state.calls[second]? = some phase')
    (unfinished' : phase'.unfinished id = true) :
    ∃ final, Reached step (fun _ _ => True) state final ∧ ¬final.Exclusive := by
  rcases executing_reached .start waits unfinished found with
    ⟨_, reached, ⟨_, runs⟩, others, _, found'⟩
  rcases executing_reached reached ((others second differ.symm).trans waits') unfinished' found'
    with ⟨final, reached, ⟨_, runs'⟩, others', -⟩
  refine ⟨final, reached, ?_⟩
  intro exclusive
  apply differ
  exact eq_of_countP_le_one (exclusive id) ((others' first differ).trans runs)
    (beq_self_eq_true id) runs' (beq_self_eq_true id)

theorem busy_call (current : state.driver = some id)
    (busy : ¬∀ other, state.driver = some other → state.calls.countP (Phase.unfinished other) = 0) :
    ∃ (call : ℕ) (phase : Phase), state.calls[call]? = some phase ∧
      phase.unfinished id = true := by
  have some : state.calls.countP (Phase.unfinished id) ≠ 0 := by
    intro none
    apply busy
    intro _ same
    cases current.symm.trans same
    exact none
  rcases List.countP_pos_iff.mp (Nat.pos_of_ne_zero some) with ⟨phase, mem, unfinished⟩
  rcases List.getElem?_of_mem mem with ⟨call, found⟩
  exact ⟨call, phase, found, unfinished⟩

theorem overlap_of_hand {new : Phase} (handed : base.hand operation id = some (next, new))
    (waits : base.calls[first]? = some phase) (unfinished : phase.unfinished id = true) :
    ∃ final, Reached step (fun _ _ => True) (next.add new) final ∧ ¬final.Exclusive := by
  rcases hand_cases handed with ⟨driver, found, -⟩
  rcases (retains_hand handed).2 id driver found with ⟨after, here, -⟩
  have calls := (hand_same handed).2.2
  have before : next.calls[first]? = some phase := calls ▸ waits
  have bound : first < next.calls.length := (List.getElem?_eq_some_iff.mp before).1
  have found' : (next.add new).drivers[id]? = some after := here
  apply overlap_reached found' (Nat.ne_of_lt bound) (getElem?_append_of_eq_some before _)
    unfinished List.getElem?_concat_length
  rw [unfinished_hand handed, beq_self_eq_true]

/-- A call that starts on a busy driver leads to two commands at once. -/
theorem overlap_of_not_free (taken : state.step event = some next) (busy : ¬state.Free event) :
    ∃ final, Reached step (fun _ _ => True) next final ∧ ¬final.Exclusive := by
  have occupied : state.driver = none →
      ∀ id, state.driver = some id → state.calls.countP (Phase.unfinished id) = 0 := by
    intro vacant _ current
    rw [vacant] at current
    cases current
  cases move_of_step taken with
  | refused bad | creates good | connects waits found
  | fails waits found | begins waits found | ends waits => exact absurd trivial busy
  | installs waits found vacant | unconnected vacant
  | closesNothing vacant => exact absurd (occupied vacant) busy
  | @replaces call _ old _ after new waits _ current handed =>
      rcases busy_call current busy with ⟨first, _, here, unfinished⟩
      rcases hand_cases handed with ⟨driver', found', -⟩
      rcases (retains_hand handed).2 old driver' found' with ⟨driver'', kept, -⟩
      have found'' : (after.put call new).drivers[old]? = some driver'' := kept
      have calls : after.calls = state.calls := (hand_same handed).2.2
      have differ : first ≠ call := by
        rintro rfl
        cases here.symm.trans waits
        cases unfinished
      apply overlap_reached found'' differ
        ((List.getElem?_set_ne differ.symm).trans (calls ▸ here)) unfinished
        (getElem?_set_of_eq_some (calls ▸ waits) new)
      rw [unfinished_hand handed, beq_self_eq_true]
  | queries current handed | closes current handed =>
      rcases busy_call current busy with ⟨_, _, here, unfinished⟩
      exact overlap_of_hand handed here unfinished

/-- The operations of a driver do not overlap while every caller waits for those before; after a
step of one that does not, they can. -/
theorem operations_exclusive (state : Connection) (reached : Reached step Free {} state) :
    state.Exclusive ∧ ∀ event next, state.step event = some next → ¬state.Free event →
      ∃ final, Reached step (fun _ _ => True) next final ∧ ¬final.Exclusive := by
  have single : state.Single := by
    apply reached.invariant
    · intro _
      exact Nat.zero_le 1
    · intro _ _ _ single free taken
      exact single.step free taken
  refine ⟨single.exclusive, ?_⟩
  intro _ _ taken busy
  exact overlap_of_not_free taken busy

/-- A connection to a synchronous driver. -/
def opened : List ConnectionEvent :=
  [.connect { scheme := ascii "sqlite" } (fun _ => some (.driver false)), .connectEnds 0 none,
    .goesOn 0]

theorem operations_exclusive_in_turn :
    ∃ state, Reached step Free {} state ∧ state.Exclusive ∧
      state.calls.countP (Phase.executing 0) = 1 := by
  have ran : ((follow step Free {}
      (opened ++ [.query, .begins 1, .ends 1 none, .close, .begins 2])).map fun state =>
        state.calls.countP (Phase.executing 0)) = some 1 := by
    decide +kernel
  rcases exists_of_follow ran with ⟨state, -, reached, counted⟩
  exact ⟨state, reached, (operations_exclusive state reached).1, counted⟩

/-- Two queries are executed by one driver at once, and so are a query and a close. -/
theorem operations_overlap :
    ((follow step (fun _ _ => True) {}
      (opened ++ [.query, .query, .begins 1, .begins 2])).map fun state =>
        state.calls.countP (Phase.executing 0)) = some 2 ∧
    ((follow step (fun _ _ => True) {}
      (opened ++ [.query, .close, .begins 1, .begins 2])).map fun state =>
        state.calls.countP (Phase.executing 0)) = some 2 := by
  decide +kernel

end Connection

end Corouv.Sql
