import Corouv.Library.Count
import Corouv.Library.Places
import Corouv.Sql.Connection

/-!
# The lifecycle of the drivers

Every driver is in exactly one place: it is the current one, or a call has it that waits for it
to connect or has still to put it in place or to close it, or it has been closed, or it has
failed to connect.  A step of a call moves it from one place to another.
-/

namespace Corouv.Sql

open Library

/-- The call has the driver and has not passed it on. -/
def Phase.holds (id : ℕ) : Phase → Bool
  | .connecting driver | .connected driver | .posted .close driver => driver == id
  | _ => false

/-- The call is a connect or a close that has not ended. -/
def Phase.changing : Phase → Bool
  | .connecting _ | .connected _ | .posted .close _ | .running .close _ => true
  | _ => false

/-- How often a driver has ended up closed or failed. -/
def Driver.spent (driver : Driver) : ℕ :=
  driver.closes + (driver.status == .failed).toNat

namespace Connection

def spent (drivers : List Driver) (id : ℕ) : ℕ :=
  ((drivers[id]?).map Driver.spent).getD 0

/-- In how many places a driver is. -/
def places (state : Connection) (id : ℕ) : ℕ :=
  (state.driver == some id).toNat + state.calls.countP (Phase.holds id) + spent state.drivers id

def Has (state : Connection) (id : ℕ) (status : Status) : Prop :=
  ∃ driver, state.drivers[id]? = some driver ∧ driver.status = status

/-- The driver of a call is as far as the call. -/
def Fits (state : Connection) : Phase → Prop
  | .connecting id => state.Has id .connecting
  | .connected id | .posted _ id | .running _ id => state.Has id .connected
  | _ => True

/-- The driver and the parameters are those of one connect that succeeded. -/
def Matches (state : Connection) : Prop :=
  match state.driver with
  | none => state.info = {}
  | some id =>
      ∃ driver, state.drivers[id]? = some driver ∧ driver.status = .connected ∧
        state.info = driver.info

structure Sound (state : Connection) : Prop where
  once : ∀ id < state.drivers.length, state.places id = 1
  fits : ∀ phase ∈ state.calls, state.Fits phase
  same : state.Matches

theorem places_add (state : Connection) (phase : Phase) (id : ℕ) :
    (state.add phase).places id = state.places id + (phase.holds id).toNat := by
  have counted : (state.calls ++ [phase]).countP (Phase.holds id) =
      state.calls.countP (Phase.holds id) + (phase.holds id).toNat := by
    rw [List.countP_append, List.countP_singleton]
    cases phase.holds id <;> rfl
  simp only [places, add, counted]
  omega

variable {state next : Connection} {id call : ℕ} {driver new : Driver} {phase : Phase}
  {event : ConnectionEvent} {drivers : List Driver} {operation : Operation}

theorem places_put {before : Phase} (found : state.calls[call]? = some before) (phase : Phase)
    (id : ℕ) :
    (state.put call phase).places id + (before.holds id).toNat =
      state.places id + (phase.holds id).toNat := by
  have counted := countP_set_add found phase (Phase.holds id)
  simp only [places, put]
  omega

theorem places_setCurrent (state : Connection) (driver : Option ℕ) (info : ConnectionInfo)
    (id : ℕ) :
    (state.setCurrent driver info).places id + (state.driver == some id).toNat =
      state.places id + (driver == some id).toNat := by
  simp only [places, setCurrent]
  omega

theorem spent_of_found (found : drivers[id]? = some driver) : spent drivers id = driver.spent := by
  rw [spent, found]
  rfl

theorem spent_set_self (found : drivers[id]? = some driver) (new : Driver) :
    spent (drivers.set id new) id = new.spent :=
  spent_of_found (getElem?_set_of_eq_some found new)

theorem spent_set_of_ne {other : ℕ} (differ : id ≠ other) (new : Driver) :
    spent (drivers.set id new) other = spent drivers other := by
  rw [spent, List.getElem?_set_ne differ, spent]

section

variable (found : state.drivers[id]? = some driver)
include found

theorem places_setDriver_of_eq (same : new.spent = driver.spent) (other : ℕ) :
    (state.setDriver id new).places other = state.places other := by
  by_cases here : id = other
  · subst here
    simp only [places, setDriver, spent_set_self found, spent_of_found found, same]
  · simp only [places, setDriver, spent_set_of_ne here]

theorem places_setDriver_of_succ (more : new.spent = driver.spent + 1) (other : ℕ) :
    (state.setDriver id new).places other = state.places other + (id == other).toNat := by
  by_cases here : id = other
  · subst here
    simp only [places, setDriver, spent_set_self found, spent_of_found found, more,
      beq_self_eq_true, Bool.toNat_true]
    omega
  · simp [places, setDriver, spent_set_of_ne here, beq_false_of_ne here]

theorem places_start (other : ℕ) : (state.start operation id driver).places other =
      state.places other + ((Phase.posted operation id).holds other).toNat := by
  cases operation with
  | query => rfl
  | close =>
      have grows : { driver with closes := driver.closes + 1 }.spent = driver.spent + 1 := by
        simp only [Driver.spent]
        omega
      exact places_setDriver_of_succ found grows other

end

theorem places_hand (handed : state.hand operation id = some (next, phase)) (other : ℕ) :
    next.places other + (phase.holds other).toNat =
      state.places other + ((Phase.posted operation id).holds other).toNat := by
  rcases hand_cases handed with ⟨_, found, ⟨rfl, rfl⟩ | ⟨rfl, rfl⟩⟩
  · exact places_start found other
  · rfl

/-- The drivers keep their status and their parameters. -/
def Retains (state next : Connection) : Prop :=
  state.drivers.length = next.drivers.length ∧
    ∀ (id : ℕ) (driver : Driver), state.drivers[id]? = some driver →
      ∃ after, next.drivers[id]? = some after ∧ after.status = driver.status ∧
        after.info = driver.info

theorem retains_start (operation : Operation) (found : state.drivers[id]? = some driver) :
    state.Retains (state.start operation id driver) := by
  cases operation with
  | query => exact ⟨rfl, fun other before here => ⟨before, here, rfl, rfl⟩⟩
  | close =>
      refine ⟨List.length_set.symm, ?_⟩
      intro other before here
      by_cases same : id = other
      · subst same
        cases found.symm.trans here
        exact ⟨_, getElem?_set_of_eq_some found _, rfl, rfl⟩
      · exact ⟨before, (List.getElem?_set_ne same).trans here, rfl, rfl⟩

theorem retains_hand (handed : state.hand operation id = some (next, phase)) :
    state.Retains next := by
  rcases hand_cases handed with ⟨_, found, ⟨rfl, rfl⟩ | ⟨rfl, rfl⟩⟩
  · exact retains_start operation found
  · exact ⟨rfl, fun other before here => ⟨before, here, rfl, rfl⟩⟩

theorem Has.retained {status : Status} (has : state.Has id status) (retains : state.Retains next) :
    next.Has id status := by
  rcases has with ⟨driver, found, rfl⟩
  rcases retains.2 id driver found with ⟨after, here, same, -⟩
  exact ⟨after, here, same⟩

theorem Fits.retained (fits : state.Fits phase) (retains : state.Retains next) :
    next.Fits phase := by
  cases phase with
  | connecting id | connected id | posted operation id
  | running _ _ => exact Has.retained fits retains
  | returned | threw error => trivial

theorem Fits.found (fits : state.Fits phase) (holds : phase.holds id = true) :
    ∃ driver, state.drivers[id]? = some driver := by
  cases phase with
  | connecting other | connected other =>
      cases beq_iff_eq.mp holds
      rcases fits with ⟨driver, found, -⟩
      exact ⟨driver, found⟩
  | posted operation other =>
      cases operation with
      | query => cases holds
      | close =>
          cases beq_iff_eq.mp holds
          rcases fits with ⟨driver, found, -⟩
          exact ⟨driver, found⟩
  | running operation other | returned | threw error => cases holds

theorem Sound.place_lt (sound : state.Sound) (here : state.places id ≠ 0) :
    id < state.drivers.length := by
  by_contra beyond
  have missing : state.drivers[id]? = none := List.getElem?_eq_none (Nat.le_of_not_lt beyond)
  have notCurrent : (state.driver == some id) = false := by
    cases current : state.driver with
    | none => rfl
    | some _ =>
        have same := sound.same
        simp only [Matches, current] at same
        rcases same with ⟨_, found, -⟩
        rw [beq_eq_false_iff_ne]
        intro equal
        cases equal
        cases found.symm.trans missing
  have unheld : state.calls.countP (Phase.holds id) = 0 := by
    rw [List.countP_eq_zero]
    intro phase mem holds
    rcases (sound.fits phase mem).found holds with ⟨_, found⟩
    cases found.symm.trans missing
  apply here
  rw [places, notCurrent, unheld, spent, missing]
  rfl

theorem spent_concat (unused : new.spent = 0) (id : ℕ) :
    spent (drivers ++ [new]) id = spent drivers id := by
  rcases Nat.lt_trichotomy id drivers.length with before | rfl | behind
  · rw [spent, List.getElem?_append_left before, spent]
  · simp [spent, unused]
  · have missing : drivers[id]? = none := List.getElem?_eq_none (Nat.le_of_lt behind)
    have still : (drivers ++ [new])[id]? = none :=
      List.getElem?_eq_none (by simpa using Nat.succ_le_of_lt behind)
    rw [spent, still, spent, missing]

theorem once_put {before : Phase} (found : state.calls[call]? = some before)
    (balanced : state.places id + (phase.holds id).toNat = 1 + (before.holds id).toNat) :
    (state.put call phase).places id = 1 := by
  have moved := places_put found phase id
  omega

/-- A driver is in exactly one place: the connection, a call or among the closed ones. -/
theorem once_move (sound : state.Sound) (move : Move state event next) :
    ∀ id < next.drivers.length, next.places id = 1 := by
  intro other bound
  cases move with
  | refused _ | unconnected vacant =>
      rw [places_add]
      exact sound.once other bound
  | @creates info prepared _ async _ =>
      have created : places { state with drivers := state.drivers ++ [{ async, info := prepared }] }
          other = state.places other := by
        rw [places, spent_concat rfl, places]
      rw [places_add, created]
      by_cases new : other = state.drivers.length
      · have fresh : state.places other = 0 := by
          by_contra here
          exact absurd (sound.place_lt here) (by omega)
        rw [fresh, new]
        simp [Phase.holds]
      · have old : other < state.drivers.length := by
          simp only [add, List.length_append, List.length_singleton] at bound
          omega
        simp [sound.once other old, Phase.holds, Ne.symm new]
  | @connects _ id driver waits found =>
      rcases sound.fits _ (List.mem_of_getElem? waits) with ⟨_, same, status⟩
      cases found.symm.trans same
      have before := sound.once other (by simpa [put, setDriver] using bound)
      have unspent : { driver with status := .connected }.spent = driver.spent := by
        rw [Driver.spent, Driver.spent, status]
        rfl
      apply once_put (by exact waits)
      rw [places_setDriver_of_eq found unspent, before]
      rfl
  | @fails _ id driver error waits found =>
      rcases sound.fits _ (List.mem_of_getElem? waits) with ⟨_, same, status⟩
      cases found.symm.trans same
      have before := sound.once other (by simpa [put, setDriver] using bound)
      have spends : { driver with status := .failed }.spent = driver.spent + 1 := by
        rw [Driver.spent, Driver.spent, status]
        rfl
      apply once_put (by exact waits)
      rw [places_setDriver_of_succ found spends, before]
      rfl
  | @installs _ id driver waits found vacant =>
      have swapped := places_setCurrent state (some id) driver.info other
      have before := sound.once other bound
      apply once_put (by exact waits)
      simp only [vacant, Phase.holds, Option.some_beq_some, Option.none_beq_some,
        Bool.toNat_false] at swapped ⊢
      omega
  | @replaces _ id _ driver after _ waits found current handed =>
      have swapped := places_setCurrent state (some id) driver.info other
      have handing := places_hand handed other
      rcases hand_same handed with ⟨-, -, calls⟩
      have length : state.drivers.length = after.drivers.length := (retains_hand handed).1
      have before := sound.once other (length ▸ bound)
      apply once_put (by rw [calls]; exact waits)
      simp only [current, Phase.holds, Option.some_beq_some] at swapped handing ⊢
      omega
  | @queries _ after _ current handed =>
      have length : state.drivers.length = after.drivers.length := (retains_hand handed).1
      rw [places_add, places_hand handed]
      exact sound.once other (length ▸ bound)
  | closesNothing vacant =>
      have cleared := places_setCurrent state none {} other
      rw [vacant] at cleared
      rw [places_add, Nat.add_right_cancel cleared]
      exact sound.once other bound
  | @closes _ after _ current handed =>
      have cleared := places_setCurrent state none {} other
      have length : state.drivers.length = after.drivers.length := (retains_hand handed).1
      have before := sound.once other (length ▸ bound)
      rw [places_add, places_hand handed]
      simp only [current, Phase.holds, Option.some_beq_some, Option.none_beq_some,
        Bool.toNat_false] at cleared ⊢
      omega
  | @begins _ _ operation _ waits found =>
      have length := (retains_start operation found).1
      have before := sound.once other (length ▸ bound)
      apply once_put (by rw [start_calls]; exact waits)
      rw [places_start found, before]
      rfl
  | @ends _ _ _ error waits =>
      apply once_put waits
      rw [sound.once other bound]
      cases error <;> rfl

theorem fits_add {new : Phase} (old : ∀ phase ∈ state.calls, state.Fits phase)
    (here : state.Fits new) : ∀ phase ∈ (state.add new).calls, (state.add new).Fits phase := by
  intro phase mem
  rcases List.mem_append.mp mem with mem | mem
  · exact old phase mem
  · cases List.mem_singleton.mp mem
    exact here

theorem fits_put {new : Phase} (old : ∀ phase ∈ state.calls, state.Fits phase)
    (here : state.Fits new) :
    ∀ phase ∈ (state.put call new).calls, (state.put call new).Fits phase := by
  intro phase mem
  rcases List.mem_or_eq_of_mem_set mem with mem | rfl
  · exact old phase mem
  · exact here

theorem Sound.fits_hand {base : Connection} (sound : state.Sound)
    (handed : base.hand operation id = some (next, phase)) (drivers : base.drivers = state.drivers)
    (calls : base.calls = state.calls) (has : state.Has id .connected) :
    (∀ other ∈ next.calls, next.Fits other) ∧ next.Fits phase := by
  have retains : state.Retains next := by
    rcases retains_hand handed with ⟨length, keeps⟩
    rw [drivers] at length keeps
    exact ⟨length, keeps⟩
  constructor
  · rw [(hand_same handed).2.2, calls]
    intro other mem
    exact (sound.fits other mem).retained retains
  · rcases hand_cases handed with ⟨_, -, ⟨-, rfl⟩ | ⟨-, rfl⟩⟩
    · exact has.retained retains
    · exact has.retained retains

theorem Sound.current_has (sound : state.Sound) (current : state.driver = some id) :
    state.Has id .connected := by
  have same := sound.same
  simp only [Matches, current] at same
  rcases same with ⟨driver, found, status, -⟩
  exact ⟨driver, found, status⟩

theorem Sound.fits_connectEnds (sound : state.Sound)
    (waits : state.calls[call]? = some (.connecting id)) (found : state.drivers[id]? = some driver)
    (here : (state.setDriver id new).Fits phase) :
    ∀ other ∈ ((state.setDriver id new).put call phase).calls,
      ((state.setDriver id new).put call phase).Fits other := by
  intro other mem
  rcases List.getElem?_of_mem mem with ⟨_, standing⟩
  rcases getElem?_set_cases standing with ⟨-, rfl⟩ | ⟨differ, before⟩
  · exact here
  · have fits := sound.fits other (List.mem_of_getElem? before)
    rcases sound.fits _ (List.mem_of_getElem? waits) with ⟨_, same, status⟩
    cases found.symm.trans same
    have elsewhere : ∀ {target : ℕ} {status' : Status}, target ≠ id → state.Has target status' →
        (state.setDriver id new).Has target status' := by
      rintro target _ apart ⟨driver', found', has⟩
      exact ⟨driver', (List.getElem?_set_ne (Ne.symm apart)).trans found', has⟩
    have connected : ∀ {target : ℕ}, state.Has target .connected →
        (state.setDriver id new).Has target .connected := by
      intro target has
      apply elsewhere _ has
      rintro rfl
      rcases has with ⟨_, found', connected⟩
      cases found.symm.trans found'
      rw [status] at connected
      cases connected
    cases other with
    | connecting target =>
        apply elsewhere _ fits
        rintro rfl
        have bound := (List.getElem?_eq_some_iff.mp found).1
        have atMost : state.calls.countP (Phase.holds target) ≤ 1 := by
          have once := sound.once target bound
          simp only [places] at once
          omega
        exact differ (eq_of_countP_le_one atMost waits (beq_self_eq_true target) before
          (beq_self_eq_true target))
    | connected _ | posted _ _ | running _ _ => exact connected fits
    | returned | threw error => trivial

theorem fits_move (sound : state.Sound) (move : Move state event next) :
    ∀ phase ∈ next.calls, next.Fits phase := by
  cases move with
  | refused _ | unconnected _ | closesNothing _ => exact fits_add sound.fits trivial
  | @creates info prepared _ async _ =>
      apply fits_add
      · intro phase mem
        have kept : ∀ {id : ℕ} {status : Status}, state.Has id status →
            Has { state with drivers := state.drivers ++ [{ async, info := prepared }] } id
              status := by
          rintro id _ ⟨driver, found, has⟩
          exact ⟨driver, getElem?_append_of_eq_some found _, has⟩
        have fits := sound.fits phase mem
        cases phase with
        | connecting id | connected id | posted operation id | running operation id =>
            exact kept fits
        | returned | threw error => trivial
      · exact ⟨_, List.getElem?_concat_length, rfl⟩
  | @connects _ id _ waits found =>
      apply sound.fits_connectEnds waits found
      exact ⟨_, getElem?_set_of_eq_some found _, rfl⟩
  | @fails _ id _ error waits found => exact sound.fits_connectEnds waits found trivial
  | installs waits found _ => exact fits_put sound.fits trivial
  | replaces waits found current handed =>
      rcases sound.fits_hand handed rfl rfl (sound.current_has current) with ⟨old, here⟩
      exact fits_put old here
  | queries current handed | closes current handed =>
      rcases sound.fits_hand handed rfl rfl (sound.current_has current) with ⟨old, here⟩
      exact fits_add old here
  | @begins _ id operation _ waits found =>
      have retains := retains_start operation found
      apply fits_put
      · rw [start_calls]
        intro phase mem
        exact (sound.fits phase mem).retained retains
      · have has : state.Has id .connected := sound.fits _ (List.mem_of_getElem? waits)
        exact has.retained retains
  | @ends _ _ _ error _ =>
      apply fits_put sound.fits
      cases error <;> trivial

theorem Matches.retained (same : state.Matches) (retains : state.Retains next)
    (driver : next.driver = state.driver) (info : next.info = state.info) : next.Matches := by
  simp only [Matches, driver, info] at same ⊢
  cases current : state.driver with
  | none =>
      rw [current] at same
      exact same
  | some id =>
      rw [current] at same
      rcases same with ⟨before, found, status, equal⟩
      rcases retains.2 id before found with ⟨after, here, statuses, infos⟩
      exact ⟨after, here, statuses.trans status, equal.trans infos.symm⟩

theorem Sound.matches_setDriver (sound : state.Sound)
    (waits : state.calls[call]? = some (.connecting id)) (new : Driver) :
    (state.setDriver id new).Matches := by
  have same := sound.same
  simp only [Matches, setDriver] at same ⊢
  cases current : state.driver with
  | none =>
      rw [current] at same
      exact same
  | some _ =>
      rw [current] at same
      rcases same with ⟨driver', found', status', equal⟩
      refine ⟨driver', ?_, status', equal⟩
      rw [List.getElem?_set_ne, found']
      rintro rfl
      rcases sound.fits _ (List.mem_of_getElem? waits) with ⟨_, same, status⟩
      cases found'.symm.trans same
      rw [status'] at status
      cases status

theorem matches_move (sound : state.Sound) (move : Move state event next) : next.Matches := by
  cases move with
  | refused _ | unconnected _ | ends waits => exact sound.same
  | @creates _ _ _ _ _ =>
      have same := sound.same
      simp only [Matches, add] at same ⊢
      cases current : state.driver with
      | none =>
          rw [current] at same
          exact same
      | some id =>
          rw [current] at same
          rcases same with ⟨driver, found, status, equal⟩
          exact ⟨driver, getElem?_append_of_eq_some found _, status, equal⟩
  | connects waits _ | fails waits _ => exact sound.matches_setDriver waits _
  | @installs _ id driver waits found _ =>
      rcases sound.fits _ (List.mem_of_getElem? waits) with ⟨_, same, status⟩
      cases found.symm.trans same
      exact ⟨driver, found, status, rfl⟩
  | @replaces _ id _ driver _ _ waits found _ handed =>
      rcases sound.fits _ (List.mem_of_getElem? waits) with ⟨_, same, status⟩
      cases found.symm.trans same
      rcases hand_same handed with ⟨drivers, infos, -⟩
      have swapped : (state.setCurrent (some id) driver.info).Matches :=
        ⟨driver, found, status, rfl⟩
      have kept := swapped.retained (retains_hand handed) drivers infos
      exact kept
  | queries _ handed =>
      rcases hand_same handed with ⟨drivers, infos, -⟩
      have kept := sound.same.retained (retains_hand handed) drivers infos
      exact kept
  | closesNothing _ => exact rfl
  | closes _ handed =>
      rcases hand_same handed with ⟨drivers, infos, -⟩
      have cleared : (state.setCurrent none {}).Matches := rfl
      have kept := cleared.retained (retains_hand handed) drivers infos
      exact kept
  | begins _ found =>
      exact sound.same.retained (retains_start _ found) (start_driver _ _ _ _) (start_info _ _ _ _)

theorem Sound.step (sound : state.Sound) (taken : state.step event = some next) : next.Sound where
  once := once_move sound (move_of_step taken)
  fits := fits_move sound (move_of_step taken)
  same := matches_move sound (move_of_step taken)

theorem sound_initial : Sound {} where
  once _ bound := absurd bound (Nat.not_lt_zero _)
  fits _ mem := absurd mem List.not_mem_nil
  same := rfl

/-- The step takes away the current driver, or puts the driver of a connect in place that has
connected. -/
def Changes (state : Connection) (event : ConnectionEvent) (next : Connection) : Prop :=
  event = .close ∨ ∃ call id, event = .goesOn call ∧
    state.calls[call]? = some (.connected id) ∧ state.Has id .connected ∧ next.driver = some id

theorem changes_of_move (sound : state.Sound) (move : Move state event next) :
    next.driver = state.driver ∧ next.info = state.info ∨ state.Changes event next := by
  cases move with
  | refused bad | creates good | connects waits found | fails waits found
  | unconnected _ | ends waits => exact .inl ⟨rfl, rfl⟩
  | @installs call id _ waits _ _ =>
      exact .inr (.inr ⟨call, id, rfl, waits, sound.fits _ (List.mem_of_getElem? waits), rfl⟩)
  | @replaces call id _ _ _ _ waits _ _ handed =>
      exact .inr (.inr ⟨call, id, rfl, waits, sound.fits _ (List.mem_of_getElem? waits),
        (hand_same handed).1⟩)
  | queries _ handed =>
      rcases hand_same handed with ⟨drivers, infos, -⟩
      exact .inl ⟨drivers, infos⟩
  | closesNothing _ | closes _ _ => exact .inr (.inl rfl)
  | begins _ _ => exact .inl ⟨start_driver _ _ _ _, start_info _ _ _ _⟩

theorem Sound.closes_le (sound : state.Sound) (found : state.drivers[id]? = some driver) :
    driver.closes ≤ 1 ∧ (0 < driver.closes → state.driver ≠ some id) := by
  have once := sound.once id (List.getElem?_eq_some_iff.mp found).1
  simp only [places, spent_of_found found, Driver.spent] at once
  constructor
  · omega
  · intro _ current
    simp only [current, beq_self_eq_true, Bool.toNat_true] at once
    omega

/-- With no connect and no close under way a connected driver is the current one or closed. -/
theorem Sound.settled (sound : state.Sound) (quiet : ∀ phase ∈ state.calls, phase.changing = false)
    (found : state.drivers[id]? = some driver) (status : driver.status = .connected) :
    state.driver = some id ∧ driver.closes = 0 ∨ state.driver ≠ some id ∧ driver.closes = 1 := by
  have once := sound.once id (List.getElem?_eq_some_iff.mp found).1
  have unheld : state.calls.countP (Phase.holds id) = 0 := by
    rw [List.countP_eq_zero]
    intro phase mem holds
    have still := quiet phase mem
    cases phase with
    | connecting target | connected target => cases still
    | posted operation target =>
        cases operation with
        | query => cases holds
        | close => cases still
    | running operation target | returned | threw error => cases holds
  have unfailed : (driver.status == Status.failed).toNat = 0 := by
    rw [status]
    rfl
  simp only [places, spent_of_found found, Driver.spent, unheld, unfailed] at once
  by_cases current : state.driver = some id
  · simp only [current, beq_self_eq_true, Bool.toNat_true] at once
    exact .inl ⟨current, by omega⟩
  · simp only [beq_false_of_ne current, Bool.toNat_false] at once
    exact .inr ⟨current, by omega⟩

/-- In every interleaving of calls only a close or a connect whose driver has connected changes
the driver or the parameters, these are of one connect, no driver is closed twice or while it is
the current one, and none that has connected is forgotten. -/
theorem driver_lifecycle (state : Connection)
    (reached : Reached step (fun _ _ => True) {} state) :
    (∀ event next, state.step event = some next →
      next.driver = state.driver ∧ next.info = state.info ∨ state.Changes event next) ∧
    state.Matches ∧
    (∀ id driver, state.drivers[id]? = some driver →
      driver.closes ≤ 1 ∧ (0 < driver.closes → state.driver ≠ some id)) ∧
    ((∀ phase ∈ state.calls, phase.changing = false) →
      ∀ id driver, state.drivers[id]? = some driver → driver.status = .connected →
        state.driver = some id ∧ driver.closes = 0 ∨
          state.driver ≠ some id ∧ driver.closes = 1) := by
  have sound : state.Sound :=
    reached.invariant sound_initial fun _ _ _ sound _ taken => sound.step taken
  refine ⟨?_, sound.same, ?_, ?_⟩
  · intro _ _ taken
    exact changes_of_move sound (move_of_step taken)
  · intro _ _ found
    exact sound.closes_le found
  · intro quiet _ _ found status
    exact sound.settled quiet found status

/-- Two connects one after the other, the driver of the first closed by the second. -/
def reconnected : List ConnectionEvent :=
  [.connect { scheme := ascii "sqlite" } (fun _ => some (.driver false)), .connectEnds 0 none,
    .goesOn 0, .connect { scheme := ascii "pg" } (fun _ => some (.driver true)),
    .connectEnds 1 none, .goesOn 1, .begins 1, .ends 1 none]

theorem driver_lifecycle_reconnected :
    ∃ state, Reached step (fun _ _ => True) {} state ∧ state.driver = some 1 ∧
      (∀ phase ∈ state.calls, phase.changing = false) ∧
      ∀ driver, state.drivers[0]? = some driver → driver.closes = 1 := by
  have ran : ((follow step (fun _ _ => True) {} reconnected).map fun state =>
      (state.driver, state.calls.all fun phase => !phase.changing,
        state.drivers.map Driver.status)) = some (some 1, true, [.connected, .connected]) := by
    decide +kernel
  rcases exists_of_follow ran with ⟨state, -, reached, facts⟩
  rcases Prod.mk.inj facts with ⟨current, facts⟩
  rcases Prod.mk.inj facts with ⟨quiet, statuses⟩
  have still : ∀ phase ∈ state.calls, phase.changing = false := by
    intro phase mem
    simpa using List.all_eq_true.mp quiet phase mem
  refine ⟨state, reached, current, still, ?_⟩
  intro driver found
  have status : driver.status = .connected := by
    have first : (state.drivers.map Driver.status)[0]? = some driver.status := by
      rw [List.getElem?_map, found]
      rfl
    rw [statuses] at first
    exact (Option.some.inj first).symm
  rcases (driver_lifecycle state reached).2.2.2 still 0 driver found status with
    ⟨isCurrent, -⟩ | ⟨-, closed⟩
  · rw [current] at isCurrent
    cases isCurrent
  · exact closed

end Connection

end Corouv.Sql
