import Corouv.Library.Places
import Corouv.Library.Transition

/-!
# Calls that wait for a shared resource

A call that finds nothing to take registers itself with the resource and is suspended.  A
callback of the resource can schedule the resumption of calls; a call that is resumed takes
what it finds by then.  A call that is made on the loop thread registers itself at once and
goes on at once if it need not wait; otherwise both steps are scheduled.

A call whose caller has given up stays where it is and goes on as before; only its result
reaches nobody.
-/

namespace Library

variable {ρ κ ε ω : Type}

/-- How the registration of a call ends. -/
inductive Entry (ω : Type) where
  | waits
  | passes
  | refused (outcome : ω)

structure Resource (ρ κ ε ω : Type) where
  /-- The outcome of a call that does not come to the registration. -/
  screen : ρ → κ → Option ω
  enter : ρ → κ → ℕ → Entry ω × ρ
  take : ρ → κ → ω × ρ
  /-- A callback, with the calls whose resumption it schedules. -/
  occur : ρ → ε → Option (ρ × List ℕ)

inductive Stage (ω : Type) where
  /-- The registration is scheduled. -/
  | posted
  | suspended
  /-- The resumption is scheduled; the outcome may be settled. -/
  | woken (settled : Option ω)
  | finished
  deriving DecidableEq

structure Call (κ ω : Type) where
  request : κ
  stage : Stage ω := .posted
  abandoned : Bool := false

structure Result (κ ω : Type) where
  call : ℕ
  request : κ
  /-- The caller had not given up. -/
  kept : Bool
  outcome : ω
  deriving DecidableEq

/-- A resource with its calls, and what the calls have come to so far. -/
structure Service (ρ κ ω : Type) where
  resource : ρ
  calls : List (Call κ ω) := []
  results : List (Result κ ω) := []

inductive ServiceEvent (κ ε : Type) where
  | call (request : κ) (onLoop : Bool)
  | register (call : ℕ)
  | resume (call : ℕ)
  | abandon (call : ℕ)
  | occur (event : ε)

namespace Service

def put (state : Service ρ κ ω) (index : ℕ) (call : Call κ ω) : Service ρ κ ω :=
  { state with calls := state.calls.set index call }

def add (state : Service ρ κ ω) (call : Call κ ω) : Service ρ κ ω :=
  { state with calls := state.calls ++ [call] }

def setResource (state : Service ρ κ ω) (resource : ρ) : Service ρ κ ω :=
  { state with resource }

def finish (state : Service ρ κ ω) (index : ℕ) (call : Call κ ω) (outcome : ω) :
    Service ρ κ ω :=
  { state.put index { call with stage := .finished } with
    results := state.results ++ [⟨index, call.request, !call.abandoned, outcome⟩] }

def wake (state : Service ρ κ ω) (woken : List ℕ) : Service ρ κ ω :=
  { state with
    calls := state.calls.mapIdx fun index call =>
      if index ∈ woken then { call with stage := .woken none } else call }

theorem add_put (state : Service ρ κ ω) (call new : Call κ ω) :
    (state.add call).put state.calls.length new = state.add new := by
  simp [add, put]

theorem wake_nil (state : Service ρ κ ω) : state.wake [] = state := by
  simp [wake, List.mapIdx_eq_zipIdx_map]

end Service

namespace Resource

variable (R : Resource ρ κ ε ω)

/-- The call takes what it finds. -/
def serve (state : Service ρ κ ω) (index : ℕ) (call : Call κ ω) : Service ρ κ ω :=
  let taken := R.take state.resource call.request
  (state.setResource taken.2).finish index call taken.1

def register (state : Service ρ κ ω) (index : ℕ) (call : Call κ ω) (onLoop : Bool) :
    Service ρ κ ω :=
  match R.enter state.resource call.request index with
  | (.waits, resource) => (state.setResource resource).put index { call with stage := .suspended }
  | (.passes, resource) =>
      if onLoop then R.serve (state.setResource resource) index call
      else (state.setResource resource).put index { call with stage := .woken none }
  | (.refused outcome, resource) =>
      if onLoop then (state.setResource resource).finish index call outcome
      else (state.setResource resource).put index { call with stage := .woken (some outcome) }

def step (state : Service ρ κ ω) : ServiceEvent κ ε → Option (Service ρ κ ω)
  | .call request onLoop =>
      let posted := state.add { request }
      match R.screen state.resource request with
      | some outcome => some (posted.finish state.calls.length { request } outcome)
      | none =>
          if onLoop then some (R.register posted state.calls.length { request } true)
          else some posted
  | .register index =>
      match state.calls[index]? with
      | some call =>
          match call.stage with
          | .posted => some (R.register state index call false)
          | _ => none
      | none => none
  | .resume index =>
      match state.calls[index]? with
      | some call =>
          match call.stage with
          | .woken none => some (R.serve state index call)
          | .woken (some outcome) => some (state.finish index call outcome)
          | _ => none
      | none => none
  | .abandon index =>
      match state.calls[index]? with
      | some call =>
          match call.stage with
          | .finished => none
          | _ =>
              if call.abandoned then none
              else some (state.put index { call with abandoned := true })
      | none => none
  | .occur event =>
      (R.occur state.resource event).map fun changed =>
        (state.setResource changed.1).wake changed.2

inductive Move (state : Service ρ κ ω) : ServiceEvent κ ε → Service ρ κ ω → Prop
  | screened {request : κ} {onLoop : Bool} {outcome : ω}
      (known : R.screen state.resource request = some outcome) :
      Move state (.call request onLoop)
        ((state.add { request }).finish state.calls.length { request } outcome)
  | posts {request : κ} (unknown : R.screen state.resource request = none) :
      Move state (.call request false) (state.add { request })
  | enters {request : κ} (unknown : R.screen state.resource request = none) :
      Move state (.call request true)
        (R.register (state.add { request }) state.calls.length { request } true)
  | registers {index : ℕ} {call : Call κ ω} (found : state.calls[index]? = some call)
      (stage : call.stage = .posted) :
      Move state (.register index) (R.register state index call false)
  | takes {index : ℕ} {call : Call κ ω} (found : state.calls[index]? = some call)
      (stage : call.stage = .woken none) : Move state (.resume index) (R.serve state index call)
  | learns {index : ℕ} {call : Call κ ω} {outcome : ω}
      (found : state.calls[index]? = some call) (stage : call.stage = .woken (some outcome)) :
      Move state (.resume index) (state.finish index call outcome)
  | abandons {index : ℕ} {call : Call κ ω} (found : state.calls[index]? = some call)
      (unfinished : call.stage ≠ .finished) (kept : call.abandoned = false) :
      Move state (.abandon index) (state.put index { call with abandoned := true })
  | occurs {event : ε} {resource : ρ} {woken : List ℕ}
      (changed : R.occur state.resource event = some (resource, woken)) :
      Move state (.occur event) ((state.setResource resource).wake woken)

variable {R} {state state' : Service ρ κ ω}

/-- Everything a step of the service can do. -/
theorem move_of_step {event : ServiceEvent κ ε} (taken : R.step state event = some state') :
    R.Move state event state' := by
  cases event with
  | call _ onLoop =>
      simp only [step] at taken
      split at taken
      next outcome known =>
        cases taken
        exact .screened known
      next unknown =>
        cases onLoop with
        | true =>
            cases taken
            exact .enters unknown
        | false =>
            cases taken
            exact .posts unknown
  | register _ =>
      simp only [step] at taken
      split at taken
      next call found =>
        split at taken
        next stage =>
          cases taken
          exact .registers found stage
        · cases taken
      · cases taken
  | resume _ =>
      simp only [step] at taken
      split at taken
      next call found =>
        split at taken
        next stage =>
          cases taken
          exact .takes found stage
        next outcome stage =>
          cases taken
          exact .learns found stage
        · cases taken
      · cases taken
  | abandon _ =>
      simp only [step] at taken
      split at taken
      next call found =>
        split at taken
        · cases taken
        next unfinished =>
          split at taken
          · cases taken
          next kept =>
            cases taken
            exact .abandons found unfinished (Bool.eq_false_iff.mpr kept)
      · cases taken
  | occur _ =>
      simp only [step] at taken
      rcases Option.map_eq_some_iff.mp taken with ⟨⟨_, _⟩, changed, rfl⟩
      exact .occurs changed

/-- What holds of each way a registration can end holds of the registration. -/
theorem register_cases {motive : Service ρ κ ω → Prop} {index : ℕ} {call : Call κ ω}
    {onLoop : Bool}
    (waits : ∀ resource, R.enter state.resource call.request index = (.waits, resource) →
      motive ((state.setResource resource).put index { call with stage := .suspended }))
    (serves : ∀ resource, R.enter state.resource call.request index = (.passes, resource) →
      onLoop = true → motive (R.serve (state.setResource resource) index call))
    (passes : ∀ resource, R.enter state.resource call.request index = (.passes, resource) →
      onLoop = false →
      motive ((state.setResource resource).put index { call with stage := .woken none }))
    (finishes : ∀ outcome resource,
      R.enter state.resource call.request index = (.refused outcome, resource) →
      onLoop = true → motive ((state.setResource resource).finish index call outcome))
    (refused : ∀ outcome resource,
      R.enter state.resource call.request index = (.refused outcome, resource) →
      onLoop = false →
      motive
        ((state.setResource resource).put index { call with stage := .woken (some outcome) })) :
    motive (R.register state index call onLoop) := by
  unfold register
  split
  next resource entered => exact waits resource entered
  next resource entered =>
    cases onLoop with
    | true => exact serves resource entered rfl
    | false => exact passes resource entered rfl
  next outcome resource entered =>
    cases onLoop with
    | true => exact finishes outcome resource entered rfl
    | false => exact refused outcome resource entered rfl

end Resource

end Library
