import Corouv.Library.Loop

/-!
# Properties of stateful computations and the rules for them

`Keeps` is a triple with one assertion: started in a safe state, a computation ends in
a safe state or throws one of the allowed exceptions.  `Preserves` asks for the state to
be safe after an exception, too.  `Commutes` compares two runs: a change of the state
that a computation does not notice, other than by getting further, is still there when
it ends.  All are proved by one rule for each construct.
-/

namespace Library

variable {ε σ α β : Type}

variable {state : σ}

theorem run_bind_eq_ok {first : EStateM ε σ α} {second : α → EStateM ε σ β} {later : σ} {value : β}
    (ran : (first >>= second).run state = .ok value later) :
    ∃ begun middle, first.run state = .ok begun middle ∧
      (second begun).run middle = .ok value later := by
  rw [EStateM.run_bind] at ran
  cases begins : first.run state with
  | ok begun middle =>
      simp only [begins] at ran
      exact ⟨begun, middle, rfl, ran⟩
  | error _ _ =>
      simp only [begins] at ran
      cases ran

/-- A command on a part of a larger state. -/
def onPart {τ : Type} (part : σ → τ) (replace : τ → σ → σ) (command : EStateM ε τ α) :
    EStateM ε σ α := fun state =>
  match command.run (part state) with
  | .ok value later => .ok value (replace later state)
  | .error error later => .error error (replace later state)

variable {τ : Type}

theorem onPart_run_ok {part : σ → τ} (replace : τ → σ → σ) {command : EStateM ε τ α} {value : α}
    {later : τ} (ran : command.run (part state) = .ok value later) :
    (onPart part replace command).run state = .ok value (replace later state) := by
  simp only [EStateM.run] at ran
  simp only [EStateM.run, onPart, ran]

theorem onPart_run_error {part : σ → τ} (replace : τ → σ → σ) {command : EStateM ε τ α} {error : ε}
    {later : τ} (ran : command.run (part state) = .error error later) :
    (onPart part replace command).run state = .error error (replace later state) := by
  simp only [EStateM.run] at ran
  simp only [EStateM.run, onPart, ran]

section Keeps

variable {safe : σ → Prop} {allowed : ε → Prop}

def Keeps (safe : σ → Prop) (allowed : ε → Prop) (command : EStateM ε σ α) : Prop :=
  ∀ state, safe state →
    match command.run state with
    | .ok _ state' => safe state'
    | .error error _ => allowed error

theorem Keeps.of_run_ok {command : EStateM ε σ α} (keeps : Keeps safe allowed command)
    {state later : σ} (holds : safe state) {value : α} (ran : command.run state = .ok value later) :
    safe later := by
  have ends := keeps state holds
  simp only [ran] at ends
  exact ends

theorem keeps_any (command : EStateM ε σ α) :
    Keeps (fun _ => True) (fun _ => True) command := by
  intro state _
  cases command.run state with
  | ok _ _ | error _ _ => trivial

theorem keeps_pure (value : α) : Keeps safe allowed (pure value : EStateM ε σ α) :=
  fun _ holds => holds

theorem keeps_throw {error : ε} (fine : allowed error) :
    Keeps safe allowed (throw error : EStateM ε σ α) :=
  fun _ _ => fine

theorem keeps_modify {change : σ → σ} (kept : ∀ state, safe state → safe (change state)) :
    Keeps safe allowed (modify change : EStateM ε σ PUnit) :=
  kept

theorem keeps_bind {first : EStateM ε σ α} {second : α → EStateM ε σ β}
    (one : Keeps safe allowed first) (two : ∀ value, Keeps safe allowed (second value)) :
    Keeps safe allowed (first >>= second) := by
  intro state holds
  have begun := one state holds
  rw [EStateM.run_bind]
  cases outcome : first.run state with
  | error _ state' =>
      rw [outcome] at begun
      exact begun
  | ok value state' =>
      rw [outcome] at begun
      exact two value state' begun

theorem keeps_get_bind {next : σ → EStateM ε σ α}
    (each : ∀ state, Keeps safe allowed (next state)) :
    Keeps safe allowed (get >>= next) :=
  fun state holds => each state state holds

theorem keeps_onPart {τ : Type} {part : σ → τ} {replace : τ → σ → σ} {command : EStateM ε τ α}
    {safePart : τ → Prop} (kept : Keeps safePart allowed command)
    (inside : ∀ state, safe state → safePart (part state))
    (outside : ∀ state later, safe state → safePart later → safe (replace later state)) :
    Keeps safe allowed (onPart part replace command) := by
  intro state holds
  have ends := kept (part state) (inside state holds)
  simp only [EStateM.run] at ends
  simp only [EStateM.run, onPart]
  cases ran : command (part state) with
  | ok _ later =>
      simp only [ran] at ends ⊢
      exact outside state later holds ends
  | error _ _ =>
      simp only [ran] at ends ⊢
      exact ends

theorem keeps_forM {items : List α} {command : α → EStateM ε σ PUnit}
    (each : ∀ item ∈ items, Keeps safe allowed (command item)) :
    Keeps safe allowed (items.forM command) := by
  induction items with
  | nil => exact fun _ holds => holds
  | cons item _ ih =>
      apply keeps_bind (each item List.mem_cons_self)
      intro _
      exact ih fun item' mem => each item' (List.mem_cons_of_mem _ mem)

theorem keeps_loop {stuck : ε} {body : β → EStateM ε σ (Turn β α)} (cutOff : allowed stuck)
    (turn : ∀ entry, Keeps safe allowed (body entry)) (fuel : ℕ) :
    ∀ entry, Keeps safe allowed (loop stuck body fuel entry) := by
  induction fuel with
  | zero =>
      intro entry
      exact keeps_throw cutOff
  | succ _ ih =>
      intro entry
      apply keeps_bind (turn entry)
      intro verdict
      cases verdict with
      | done value => exact keeps_pure value
      | again next => exact ih next

end Keeps

section Preserves

variable {invariant : σ → Prop}

def Preserves (invariant : σ → Prop) (command : EStateM ε σ α) : Prop :=
  ∀ state, invariant state → invariant (endState (command.run state))

variable {first : EStateM ε σ α} {second : α → EStateM ε σ β}

theorem endState_bind {state : σ} (one : invariant (endState (first.run state)))
    (two : ∀ value, Preserves invariant (second value)) :
    invariant (endState ((first >>= second).run state)) := by
  rw [EStateM.run_bind]
  cases outcome : first.run state with
  | error _ state' =>
      rw [outcome] at one
      exact one
  | ok value state' =>
      rw [outcome] at one
      exact two value state' one

theorem preserves_bind (one : Preserves invariant first)
    (two : ∀ value, Preserves invariant (second value)) : Preserves invariant (first >>= second) :=
  fun state holds => endState_bind (one state holds) two

theorem preserves_pure (value : α) : Preserves invariant (pure value : EStateM ε σ α) :=
  fun _ holds => holds

theorem preserves_throw (error : ε) : Preserves invariant (throw error : EStateM ε σ α) :=
  fun _ holds => holds

theorem preserves_modify {change : σ → σ}
    (kept : ∀ state, invariant state → invariant (change state)) :
    Preserves invariant (modify change : EStateM ε σ PUnit) :=
  kept

theorem preserves_get_bind {next : σ → EStateM ε σ α}
    (each : ∀ state, Preserves invariant (next state)) : Preserves invariant (get >>= next) :=
  fun state => each state state

theorem preserves_onPart {τ : Type} {part : σ → τ} {replace : τ → σ → σ} {command : EStateM ε τ α}
    (kept : ∀ state, invariant state →
      invariant (replace (endState (command.run (part state))) state)) :
    Preserves invariant (onPart part replace command) := by
  intro state holds
  have later := kept state holds
  simp only [EStateM.run] at later
  simp only [EStateM.run, onPart]
  cases ran : command (part state) with
  | ok _ _ | error _ _ =>
      rw [ran] at later
      exact later

theorem preserves_loop {stuck : ε} {body : β → EStateM ε σ (Turn β α)}
    (turn : ∀ entry, Preserves invariant (body entry)) (fuel : ℕ) :
    ∀ entry, Preserves invariant (loop stuck body fuel entry) := by
  induction fuel with
  | zero =>
      intro entry
      exact preserves_throw stuck
  | succ _ ih =>
      intro entry
      apply preserves_bind (turn entry)
      intro verdict
      cases verdict with
      | done value => exact preserves_pure value
      | again next => exact ih next

theorem preserves_forM {items : List α} {command : α → EStateM ε σ PUnit}
    (each : ∀ item ∈ items, Preserves invariant (command item)) :
    Preserves invariant (items.forM command) := by
  induction items with
  | nil => exact fun _ holds => holds
  | cons item _ ih =>
      apply preserves_bind (each item List.mem_cons_self)
      intro _
      exact ih fun item' mem => each item' (List.mem_cons_of_mem _ mem)

end Preserves

section Commutes

variable {shift : σ → σ} {unfinished : ε → Prop}

/-- The second run ends as the first does, in the changed state, if the first has
come to an end. -/
def Follows (shift : σ → σ) (unfinished : ε → Prop) (second : EStateM.Result ε σ α) :
    EStateM.Result ε σ α → Prop
  | .ok value state => second = .ok value (shift state)
  | .error error state => unfinished error ∨ second = .error error (shift state)

def Commutes (shift : σ → σ) (unfinished : ε → Prop) (command : EStateM ε σ α) : Prop :=
  ∀ state, Follows shift unfinished (command.run (shift state)) (command.run state)

theorem commutes_pure (value : α) : Commutes shift unfinished (pure value : EStateM ε σ α) :=
  fun _ => rfl

theorem commutes_throw (error : ε) : Commutes shift unfinished (throw error : EStateM ε σ α) :=
  fun _ => .inr rfl

theorem commutes_modify {change : σ → σ}
    (same : ∀ state, change (shift state) = shift (change state)) :
    Commutes shift unfinished (modify change : EStateM ε σ PUnit) := by
  intro state
  show EStateM.Result.ok PUnit.unit (change (shift state)) = _
  rw [same]

variable {first : EStateM ε σ α} {second : α → EStateM ε σ β}

/-- The rule for a sequence, for a first command whose two runs are known. -/
theorem Follows.bind {first' : EStateM ε σ α} {state : σ}
    (one : Follows shift unfinished (first'.run (shift state)) (first.run state))
    (two : ∀ value, Commutes shift unfinished (second value)) :
    Follows shift unfinished ((first' >>= second).run (shift state))
      ((first >>= second).run state) := by
  rw [EStateM.run_bind, EStateM.run_bind]
  cases outcome : first.run state with
  | error _ state' =>
      rw [outcome] at one
      rcases one with more | same
      · exact .inl more
      · rw [same]
        exact .inr rfl
  | ok value state' =>
      rw [outcome] at one
      have same : first'.run (shift state) = .ok value (shift state') := one
      rw [same]
      exact two value state'

theorem commutes_bind (one : Commutes shift unfinished first)
    (two : ∀ value, Commutes shift unfinished (second value)) :
    Commutes shift unfinished (first >>= second) :=
  fun state => (one state).bind two

theorem commutes_get_bind {next : σ → EStateM ε σ α}
    (blind : ∀ state, next (shift state) = next state)
    (each : ∀ state, Commutes shift unfinished (next state)) :
    Commutes shift unfinished (get >>= next) := by
  intro state
  show Follows shift unfinished ((next (shift state)).run (shift state)) ((next state).run state)
  rw [blind]
  exact each state state

variable {stuck : ε} {body : β → EStateM ε σ (Turn β α)}
  (turn : ∀ entry, Commutes shift unfinished (body entry))
include turn

/-- A loop may have more fuel in the second run, if to be cut off is not to be finished. -/
theorem follows_loop (fuel : ℕ) :
    ∀ (more : ℕ) (entry : β) (state : σ), fuel ≤ more → unfinished stuck ∨ fuel = more →
      Follows shift unfinished ((loop stuck body more entry).run (shift state))
        ((loop stuck body fuel entry).run state) := by
  induction fuel with
  | zero =>
      rintro _ entry state _ (cutOff | rfl)
      · exact .inl cutOff
      · exact .inr rfl
  | succ fuel ih =>
      intro _ entry state enough cutOff
      rcases Nat.exists_eq_add_of_lt enough with ⟨extra, rfl⟩
      have begun := turn entry state
      cases outcome : (body entry).run state with
      | error _ state' =>
          rw [outcome] at begun
          rw [loop_run_error fuel outcome]
          rcases begun with unfinished | same
          · exact .inl unfinished
          · right
            exact loop_run_error _ same
      | ok verdict state' =>
          rw [outcome] at begun
          cases verdict with
          | done _ =>
              rw [loop_run_done fuel outcome]
              exact loop_run_done _ begun
          | again next =>
              rw [loop_run_again fuel outcome, loop_run_again _ begun]
              exact ih (fuel + extra) next state' (by omega) (cutOff.imp_right (by omega))

theorem commutes_fuelled_loop {fuel : σ → ℕ} (grows : ∀ state, fuel state ≤ fuel (shift state))
    (cutOff : ∀ state, unfinished stuck ∨ fuel state = fuel (shift state)) (entry : β) :
    Commutes shift unfinished (get >>= fun state => loop stuck body (fuel state) entry) :=
  fun state => follows_loop turn (fuel state) (fuel (shift state)) entry state (grows state)
    (cutOff state)

end Commutes

end Library
