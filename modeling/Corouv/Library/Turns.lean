import Corouv.Library.Waiter

/-!
# Calls that do not get in each other's way

A resource has room for one call that waits.  As long as no call is made between the moment
another one is woken and the moment it is resumed, a woken call finds what it was woken for,
and a call that is made while another one waits is turned away.
-/

namespace Library

variable {ρ κ ε ω : Type}

/-- How the state of a resource bears on its calls. -/
structure Protocol (ρ κ ω : Type) where
  /-- No call is registered. -/
  idle : ρ → Prop
  /-- This call is registered, and there is nothing for it. -/
  holds : ρ → ℕ → κ → Prop
  /-- There is something for the call. -/
  ready : ρ → κ → Prop
  /-- The state accounts for the outcome. -/
  excused : ρ → κ → ω → Prop
  /-- The second call is in the way of the first, and the first is turned away. -/
  notices : κ → κ → Prop
  rejection : ω

/-- How the registration of a call leaves a resource that was idle. -/
def Protocol.Admits (protocol : Protocol ρ κ ω) (request : κ) (index : ℕ) (resource : ρ) :
    Entry ω → Prop
  | .waits => protocol.holds resource index request
  | .passes => protocol.idle resource ∧ protocol.ready resource request
  | .refused outcome =>
      protocol.idle resource ∧ protocol.excused resource request outcome ∧
        outcome ≠ protocol.rejection

namespace Resource

structure Lawful (R : Resource ρ κ ε ω) (protocol : Protocol ρ κ ω) : Prop where
  screen : ∀ {resource request outcome},
    protocol.idle resource ∨ (∃ index other, protocol.holds resource index other) →
    R.screen resource request = some outcome → protocol.excused resource request outcome
  waits : ∀ {resource resource' request index}, protocol.idle resource →
    R.enter resource request index = (.waits, resource') →
    protocol.holds resource' index request
  passes : ∀ {resource resource' request index}, protocol.idle resource →
    R.enter resource request index = (.passes, resource') →
    protocol.idle resource' ∧ protocol.ready resource' request
  refused : ∀ {resource resource' request index outcome}, protocol.idle resource →
    R.enter resource request index = (.refused outcome, resource') →
    protocol.idle resource' ∧ protocol.excused resource' request outcome ∧
      outcome ≠ protocol.rejection
  rejected : ∀ {resource request request' index index'},
    protocol.holds resource index' request' → protocol.notices request request' →
    R.enter resource request index = (.refused protocol.rejection, resource)
  overlooked : ∀ {resource resource' request request' index index' entry},
    protocol.holds resource index' request' → ¬protocol.notices request request' →
    R.enter resource request index = (entry, resource') →
    entry ≠ .passes ∧ entry ≠ .refused protocol.rejection
  take : ∀ {resource request}, protocol.idle resource → protocol.ready resource request →
    protocol.idle (R.take resource request).2 ∧
      protocol.excused (R.take resource request).2 request (R.take resource request).1
  takes : ∀ {resource request}, (R.take resource request).1 ≠ protocol.rejection
  occurs : ∀ {resource resource' event woken}, protocol.idle resource →
    R.occur resource event = some (resource', woken) →
    protocol.idle resource' ∧ woken = [] ∧
      ∀ {request}, protocol.ready resource request → protocol.ready resource' request
  wakes : ∀ {resource resource' event woken index request},
    protocol.holds resource index request → R.occur resource event = some (resource', woken) →
    protocol.holds resource' index request ∧ woken = [] ∨
      protocol.idle resource' ∧ protocol.ready resource' request ∧ woken = [index]
  rejection : ∀ {resource request}, protocol.excused resource request protocol.rejection
  enter_excused : ∀ {resource resource' request index entry request' outcome},
    R.enter resource request index = (entry, resource') →
    protocol.excused resource request' outcome → protocol.excused resource' request' outcome
  take_excused : ∀ {resource request request' outcome},
    protocol.excused resource request' outcome →
    protocol.excused (R.take resource request).2 request' outcome
  occur_excused : ∀ {resource resource' event woken request outcome},
    R.occur resource event = some (resource', woken) →
    protocol.excused resource request outcome → protocol.excused resource' request outcome

/-- Calls are made on the loop thread.  One that comes to registering finds no call in
progress but those it notices waiting. -/
def Apart (R : Resource ρ κ ε ω) (notices : κ → κ → Prop) (state : Service ρ κ ω) :
    ServiceEvent κ ε → Prop
  | .call request onLoop =>
      onLoop = true ∧ (R.screen state.resource request = none →
        ∀ call ∈ state.calls, call.stage = .finished ∨
          call.stage = .suspended ∧ notices request call.request)
  | _ => True

instance [DecidableEq ω] (R : Resource ρ κ ε ω) (notices : κ → κ → Prop)
    [∀ request other, Decidable (notices request other)] (state : Service ρ κ ω) :
    DecidablePred (R.Apart notices state)
  | .call _ _ => inferInstanceAs (Decidable (_ = true ∧ (_ → ∀ call ∈ state.calls, _)))
  | .register _ | .resume _ | .abandon _ | .occur _ => isTrue trivial

end Resource

/-- Every call but the one has finished. -/
def Alone (calls : List (Call κ ω)) (index : ℕ) : Prop :=
  ∀ other call, calls[other]? = some call → other ≠ index → call.stage = .finished

/-- At most one call is in progress: it waits, or it has been woken. -/
inductive Standing (protocol : Protocol ρ κ ω) (state : Service ρ κ ω) : Prop
  | quiet (idle : protocol.idle state.resource)
      (finished : ∀ call ∈ state.calls, call.stage = .finished)
  | waiting {index : ℕ} {call : Call κ ω} (found : state.calls[index]? = some call)
      (stage : call.stage = .suspended)
      (holds : protocol.holds state.resource index call.request)
      (alone : Alone state.calls index)
  | woken {index : ℕ} {call : Call κ ω} (found : state.calls[index]? = some call)
      (stage : call.stage = .woken none) (idle : protocol.idle state.resource)
      (ready : protocol.ready state.resource call.request) (alone : Alone state.calls index)

/-- The resource accounts for what the calls have come to. -/
def Accounted (protocol : Protocol ρ κ ω) (state : Service ρ κ ω) : Prop :=
  ∀ result ∈ state.results, protocol.excused state.resource result.request result.outcome

structure Orderly (protocol : Protocol ρ κ ω) (state : Service ρ κ ω) : Prop where
  standing : Standing protocol state
  accounted : Accounted protocol state

variable {protocol : Protocol ρ κ ω} {state : Service ρ κ ω} {index : ℕ} {call : Call κ ω}
  {outcome : ω}

theorem Accounted.of_resource {resource : ρ} (accounted : Accounted protocol state)
    (kept : ∀ {request outcome}, protocol.excused state.resource request outcome →
      protocol.excused resource request outcome) :
    Accounted protocol (state.setResource resource) := by
  intro result member
  exact kept (accounted result member)

theorem Accounted.finish (accounted : Accounted protocol state)
    (excused : protocol.excused state.resource call.request outcome) :
    Accounted protocol (state.finish index call outcome) := by
  intro result member
  rcases List.mem_append.mp member with earlier | new
  · exact accounted result earlier
  · rw [List.mem_singleton.mp new]
    exact excused

theorem alone_concat (finished : ∀ call ∈ state.calls, call.stage = .finished)
    (new : Call κ ω) : Alone (state.calls ++ [new]) state.calls.length := by
  intro other call found _
  have bound : other < state.calls.length := by
    have bound := (List.getElem?_eq_some_iff.mp found).1
    rw [List.length_append, List.length_singleton] at bound
    omega
  rw [List.getElem?_append_left bound] at found
  exact finished call (List.mem_of_getElem? found)

variable {calls : List (Call κ ω)} {new : Call κ ω}

theorem Alone.concat (alone : Alone calls index) (finished : new.stage = .finished) :
    Alone (calls ++ [new]) index := by
  intro other call found different
  rcases getElem?_concat_cases found with old | rfl
  · exact alone other call old different
  · exact finished

theorem Alone.set (alone : Alone calls index) (new : Call κ ω) :
    Alone (calls.set index new) index := by
  intro other call found different
  rcases getElem?_set_cases found with ⟨rfl, -⟩ | ⟨-, old⟩
  · exact absurd rfl different
  · exact alone other call old different

theorem Alone.finished (alone : Alone calls index) (finished : new.stage = .finished) :
    ∀ call ∈ calls.set index new, call.stage = .finished := by
  intro call member
  rcases List.getElem?_of_mem member with ⟨other, found⟩
  rcases getElem?_set_cases found with ⟨-, rfl⟩ | ⟨different, old⟩
  · exact finished
  · exact alone other call old (Ne.symm different)

section

variable (standing : Standing protocol state)
include standing

theorem Standing.concat (isDone : new.stage = .finished) : Standing protocol (state.add new) := by
  cases standing with
  | quiet idle finished =>
      refine .quiet idle ?_
      intro call member
      rcases List.mem_append.mp member with old | last
      · exact finished call old
      · rw [List.mem_singleton.mp last]
        exact isDone
  | waiting found stage holds alone =>
      exact .waiting (getElem?_append_of_eq_some found _) stage holds (alone.concat isDone)
  | woken found stage idle ready alone =>
      exact .woken (getElem?_append_of_eq_some found _) stage idle ready (alone.concat isDone)

section

variable (found : state.calls[index]? = some call)
include found

theorem Standing.of_found : call.stage = .finished ∨
      (call.stage = .suspended ∧ protocol.holds state.resource index call.request ∨
        call.stage = .woken none ∧ protocol.idle state.resource ∧
          protocol.ready state.resource call.request) ∧ Alone state.calls index := by
  cases standing with
  | quiet idle finished => exact .inl (finished call (List.mem_of_getElem? found))
  | @waiting here _ foundOwn stage holds alone =>
      by_cases same : index = here
      · subst same
        cases foundOwn.symm.trans found
        exact .inr ⟨.inl ⟨stage, holds⟩, alone⟩
      · exact .inl (alone index call found same)
  | @woken here _ foundOwn stage idle ready alone =>
      by_cases same : index = here
      · subst same
        cases foundOwn.symm.trans found
        exact .inr ⟨.inr ⟨stage, idle, ready⟩, alone⟩
      · exact .inl (alone index call found same)

theorem Standing.of_woken {settled : Option ω} (stage : call.stage = .woken settled) :
    settled = none ∧ protocol.idle state.resource ∧
      protocol.ready state.resource call.request ∧ Alone state.calls index := by
  rcases standing.of_found found with isDone | ⟨⟨waits, -⟩ | ⟨woken, idle, ready⟩, alone⟩
  · cases isDone.symm.trans stage
  · cases waits.symm.trans stage
  · cases woken.symm.trans stage
    exact ⟨rfl, idle, ready, alone⟩

theorem Standing.abandon (unfinished : call.stage ≠ .finished) :
    Standing protocol (state.put index { call with abandoned := true }) := by
  have here : (state.calls.set index { call with abandoned := true })[index]? =
      some { call with abandoned := true } := getElem?_set_of_eq_some found _
  rcases standing.of_found found with isDone | ⟨⟨stage, holds⟩ | ⟨stage, idle, ready⟩, alone⟩
  · exact absurd isDone unfinished
  · exact .waiting here stage holds (alone.set _)
  · exact .woken here stage idle ready (alone.set _)

end

end

namespace Resource

variable {R : Resource ρ κ ε ω} {state' : Service ρ κ ω}

theorem Lawful.serve (lawful : R.Lawful protocol) (accounted : Accounted protocol state)
    (idle : protocol.idle state.resource) (ready : protocol.ready state.resource call.request)
    (alone : Alone state.calls index) : Orderly protocol (R.serve state index call) := by
  rcases lawful.take idle ready with ⟨idleAfter, excused⟩
  constructor
  · exact .quiet idleAfter (alone.finished rfl)
  · apply Accounted.finish
    · exact accounted.of_resource lawful.take_excused
    · exact excused

theorem Orderly.finish_new (orderly : Orderly protocol state) {request : κ}
    (excused : protocol.excused state.resource request outcome) :
    Orderly protocol
      ((state.add { request }).finish state.calls.length { request } outcome) := by
  have accounted : Accounted protocol (state.add { request }) := orderly.accounted
  have isDone : Standing protocol (state.add { request, stage := .finished }) :=
    orderly.standing.concat rfl
  rw [← state.add_put { request }] at isDone
  constructor
  · cases isDone with
    | quiet idle finished => exact .quiet idle finished
    | waiting found stage holds alone => exact .waiting found stage holds alone
    | woken found stage idle ready alone => exact .woken found stage idle ready alone
  · exact accounted.finish excused

variable (lawful : R.Lawful protocol)
include lawful

theorem Lawful.register_quiet (accounted : Accounted protocol state)
    (idle : protocol.idle state.resource) (finished : ∀ call ∈ state.calls, call.stage = .finished)
    (request : κ) :
    Orderly protocol
      (R.register (state.add { request }) state.calls.length { request } true) := by
  have alone : Alone (state.add { request }).calls state.calls.length := alone_concat finished _
  have entered : ∀ {entry : Entry ω} {resource : ρ},
      R.enter state.resource request state.calls.length = (entry, resource) →
      Accounted protocol ((state.add { request }).setResource resource) := by
    intro _ _ enters
    have added : Accounted protocol (state.add { request }) := accounted
    exact added.of_resource (lawful.enter_excused enters)
  apply register_cases
  · intro _ enters
    constructor
    · have here : ((state.add { request }).calls.set state.calls.length
          { request, stage := .suspended })[state.calls.length]? =
            some { request, stage := .suspended } := by
        simp [Service.add]
      exact .waiting here rfl (lawful.waits idle enters) (alone.set _)
    · exact entered enters
  · intro _ enters _
    rcases lawful.passes idle enters with ⟨idleAfter, ready⟩
    exact lawful.serve (entered enters) idleAfter ready alone
  · intro _ _ offLoop
    cases offLoop
  · intro _ _ enters _
    rcases lawful.refused idle enters with ⟨idleAfter, excused, -⟩
    constructor
    · exact .quiet idleAfter (alone.finished rfl)
    · exact (entered enters).finish excused
  · intro _ _ _ offLoop
    cases offLoop

theorem Lawful.occur (standing : Standing protocol state) {event : ε} {resource : ρ}
    {woken : List ℕ} (changed : R.occur state.resource event = some (resource, woken)) :
    Standing protocol ((state.setResource resource).wake woken) := by
  cases standing with
  | quiet idle finished =>
      rcases lawful.occurs idle changed with ⟨idleAfter, rfl, -⟩
      rw [Service.wake_nil]
      exact .quiet idleAfter finished
  | @waiting index call found stage holds alone =>
      rcases lawful.wakes holds changed with ⟨holdsAfter, rfl⟩ | ⟨idleAfter, ready, rfl⟩
      · rw [Service.wake_nil]
        exact .waiting found stage holdsAfter alone
      · have here : ((state.setResource resource).wake [index]).calls[index]? =
            some { call with stage := .woken none } := by
          simp [Service.wake, Service.setResource, found]
        refine .woken here rfl idleAfter ready ?_
        intro other _ found' different
        simp only [Service.wake, Service.setResource, List.getElem?_mapIdx,
          Option.map_eq_some_iff, List.mem_singleton, if_neg different] at found'
        rcases found' with ⟨old, foundOld, rfl⟩
        exact alone other old foundOld different
  | woken found stage idle ready alone =>
      rcases lawful.occurs idle changed with ⟨idleAfter, rfl, readyAfter⟩
      rw [Service.wake_nil]
      exact .woken found stage idleAfter (readyAfter ready) alone

/-- A step of calls that take turns leaves them taking turns. -/
theorem Lawful.step {event : ServiceEvent κ ε} (orderly : Orderly protocol state)
    (apart : R.Apart protocol.notices state event) (taken : R.step state event = some state') :
    Orderly protocol state' := by
  rcases orderly with ⟨standing, accounted⟩
  cases move_of_step taken with
  | screened known =>
      apply Orderly.finish_new ⟨standing, accounted⟩
      refine lawful.screen ?_ known
      cases standing with
      | quiet idle _ | woken _ _ idle _ _ => exact .inl idle
      | waiting _ _ holds _ => exact .inr ⟨_, _, holds⟩
  | posts _ => exact absurd apart.1 Bool.false_ne_true
  | @enters request unknown =>
      have others := apart.2 unknown
      cases standing with
      | quiet idle finished => exact lawful.register_quiet accounted idle finished request
      | waiting found stage holds alone =>
          -- The call that waits is in the way, and it stays where it is.
          rcases others _ (List.mem_of_getElem? found) with isDone | ⟨-, noticed⟩
          · cases isDone.symm.trans stage
          · have enters : R.enter (state.add { request }).resource request
                state.calls.length = (.refused protocol.rejection, state.resource) :=
              lawful.rejected holds noticed
            simp only [register, enters, if_true]
            exact Orderly.finish_new ⟨.waiting found stage holds alone, accounted⟩ lawful.rejection
      | woken found stage idle ready alone =>
          rcases others _ (List.mem_of_getElem? found) with isDone | ⟨waits, -⟩
          · cases isDone.symm.trans stage
          · cases waits.symm.trans stage
  | registers found stage =>
      rcases standing.of_found found with isDone | ⟨⟨waits, -⟩ | ⟨woken, -⟩, -⟩
      · cases isDone.symm.trans stage
      · cases waits.symm.trans stage
      · cases woken.symm.trans stage
  | takes found stage =>
      rcases standing.of_woken found stage with ⟨-, idle, ready, alone⟩
      exact lawful.serve accounted idle ready alone
  | learns found stage => cases (standing.of_woken found stage).1
  | abandons found unfinished _ => exact ⟨standing.abandon found unfinished, accounted⟩
  | occurs changed =>
      constructor
      · exact lawful.occur standing changed
      · exact accounted.of_resource (lawful.occur_excused changed)

theorem Lawful.reached {resource : ρ} (idle : protocol.idle resource)
    (reached : Reached R.step (R.Apart protocol.notices) { resource } state) :
    Orderly protocol state := by
  apply reached.invariant
  · constructor
    · exact .quiet idle (by simp)
    · intro _ member
      cases member
  · intro _ _ _ orderly apart taken
    exact lawful.step orderly apart taken

theorem Lawful.register_rejects_iff (request : κ) :
    (R.register (state.add { request }) state.calls.length { request } true).results =
        state.results ++ [⟨state.calls.length, request, true, protocol.rejection⟩] ↔
      (R.enter state.resource request state.calls.length).1 = .refused protocol.rejection := by
  rcases enters : R.enter state.resource request state.calls.length with ⟨entry, _⟩
  cases entry with
  | waits => simp [register, enters, Service.put, Service.setResource, Service.add]
  | passes =>
      simp [register, enters, Resource.serve, Service.finish, Service.setResource, Service.add,
        lawful.takes]
  | refused _ => simp [register, enters, Service.finish, Service.setResource, Service.add]

/-- While another call is in progress, a call is turned away if and only if it keeps apart
from the other. -/
theorem Lawful.rejected_iff (standing : Standing protocol state)
    (busy : ∃ call ∈ state.calls, call.stage ≠ .finished) {request : κ}
    (unknown : R.screen state.resource request = none)
    (taken : R.step state (.call request true) = some state') :
    state'.results =
        state.results ++ [⟨state.calls.length, request, true, protocol.rejection⟩] ↔
      R.Apart protocol.notices state (.call request true) := by
  simp only [Resource.step, unknown, if_true, Option.some.injEq] at taken
  subst taken
  rw [lawful.register_rejects_iff]
  rcases busy with ⟨call, member, unfinished⟩
  rcases List.getElem?_of_mem member with ⟨index, found⟩
  rcases standing.of_found found with isDone | ⟨⟨stage, holds⟩ | ⟨stage, idle, _⟩, alone⟩
  · exact absurd isDone unfinished
  · constructor
    · intro rejected
      refine ⟨rfl, fun _ other memberOther => ?_⟩
      rcases List.getElem?_of_mem memberOther with ⟨place, foundOther⟩
      by_cases same : place = index
      · subst same
        cases found.symm.trans foundOther
        by_cases noticed : protocol.notices request call.request
        · exact .inr ⟨stage, noticed⟩
        · exact absurd rejected (lawful.overlooked holds noticed rfl).2
      · exact .inl (alone place other foundOther same)
    · intro apart
      rcases apart.2 unknown call member with isDone | ⟨-, noticed⟩
      · exact absurd isDone unfinished
      · rw [lawful.rejected holds noticed]
  · constructor
    · intro rejected
      exact absurd rfl (lawful.refused idle (Prod.ext rejected rfl)).2.2
    · intro apart
      rcases apart.2 unknown call member with isDone | ⟨waits, -⟩
      · exact absurd isDone unfinished
      · cases waits.symm.trans stage

end Resource

end Library
