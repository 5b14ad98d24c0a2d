import Corouv.Library.Waiter

/-!
# The call in the slot

A resource that keeps one waiting call in a slot: the call it keeps is suspended, only that
call is woken, and calls go on one stage after the other.
-/

namespace Library

variable {ρ κ ε ω : Type}

/-- Registrations and callbacks go by the slot.  What a call is refused with is of a kind. -/
structure Resource.Slotted (R : Resource ρ κ ε ω) (slot : ρ → Option ℕ) (refusal : ω → Prop) :
    Prop where
  enter : ∀ {resource resource' request index entry},
    R.enter resource request index = (entry, resource') →
    slot resource' = none ∨ slot resource' = slot resource ∨
      entry = .waits ∧ slot resource' = some index
  refused : ∀ {resource resource' request index outcome},
    R.enter resource request index = (.refused outcome, resource') → refusal outcome
  take : ∀ {resource request}, slot (R.take resource request).2 = slot resource
  occur : ∀ {resource resource' event woken},
    R.occur resource event = some (resource', woken) →
    woken = [] ∧ slot resource' = slot resource ∨
      woken = (slot resource).toList ∧ slot resource' = none

structure Seated (slot : ρ → Option ℕ) (refusal : ω → Prop) (state : Service ρ κ ω) : Prop where
  waiter : ∀ place, slot state.resource = some place →
    ∃ call, state.calls[place]? = some call ∧ call.stage = .suspended
  settled : ∀ call ∈ state.calls, ∀ outcome, call.stage = .woken (some outcome) → refusal outcome
  recorded : ∀ result ∈ state.results, result.call < state.calls.length

variable {R : Resource ρ κ ε ω} {slot : ρ → Option ℕ} {refusal : ω → Prop}
  {state state' : Service ρ κ ω} {index : ℕ} {call new : Call κ ω}

theorem getElem?_add (state : Service ρ κ ω) (new : Call κ ω) :
    (state.add new).calls[state.calls.length]? = some new := by
  simp [Service.add]

variable {resource : ρ}

theorem Seated.start (empty : slot resource = none) :
    Seated slot refusal ({ resource } : Service ρ κ ω) := by
  constructor
  · intro _ waiting
    cases empty.symm.trans waiting
  · intro _ member
    cases member
  · intro _ member
    cases member

theorem Seated.waiter_ne (seated : Seated slot refusal state)
    (found : state.calls[index]? = some call) (stage : call.stage ≠ .suspended) {place : ℕ}
    (waiting : slot state.resource = some place) : place ≠ index := by
  rintro rfl
  rcases seated.waiter place waiting with ⟨_, foundOther, waits⟩
  cases found.symm.trans foundOther
  exact stage waits

theorem Seated.add (seated : Seated slot refusal state)
    (settled : ∀ outcome, new.stage = .woken (some outcome) → refusal outcome) :
    Seated slot refusal (state.add new) := by
  constructor
  · intro place waiting
    rcases seated.waiter place waiting with ⟨call, found, stage⟩
    exact ⟨call, getElem?_append_of_eq_some found _, stage⟩
  · intro call member
    rcases List.mem_append.mp member with old | last
    · exact seated.settled call old
    · rw [List.mem_singleton.mp last]
      exact settled
  · intro result member
    have bound := seated.recorded result member
    simp only [Service.add, List.length_append, List.length_singleton]
    omega

theorem Seated.update (seated : Seated slot refusal state) (found : state.calls[index]? = some call)
    (settled : ∀ outcome, new.stage = .woken (some outcome) → refusal outcome)
    (waiter : ∀ place, slot resource = some place →
      place = index ∧ new.stage = .suspended ∨
        place ≠ index ∧ slot state.resource = some place) :
    Seated slot refusal ((state.setResource resource).put index new) := by
  constructor
  · intro place waiting
    rcases waiter place waiting with ⟨rfl, stage⟩ | ⟨different, before⟩
    · exact ⟨new, getElem?_set_of_eq_some found new, stage⟩
    · rcases seated.waiter place before with ⟨other, foundOther, stage⟩
      exact ⟨other, (List.getElem?_set_ne (Ne.symm different)).trans foundOther, stage⟩
  · intro other member
    rcases List.mem_or_eq_of_mem_set member with old | rfl
    · exact seated.settled other old
    · exact settled
  · intro result member
    exact Nat.lt_of_lt_of_eq (seated.recorded result member) List.length_set.symm

theorem Seated.finish {outcome : ω} (bound : index < state.calls.length)
    (seated : Seated slot refusal (state.put index { call with stage := .finished })) :
    Seated slot refusal (state.finish index call outcome) := by
  refine ⟨seated.waiter, seated.settled, ?_⟩
  intro result member
  rcases List.mem_append.mp member with earlier | last
  · exact seated.recorded result earlier
  · rw [List.mem_singleton.mp last]
    exact Nat.lt_of_lt_of_eq bound List.length_set.symm

theorem Seated.update_finish (seated : Seated slot refusal state)
    (found : state.calls[index]? = some call) {outcome : ω}
    (waiter : ∀ place, slot resource = some place →
      place ≠ index ∧ slot state.resource = some place) :
    Seated slot refusal ((state.setResource resource).finish index call outcome) := by
  apply Seated.finish
  · exact (List.getElem?_eq_some_iff.mp found).1
  · apply seated.update found
    · intro _ settled
      cases settled
    · intro place waiting
      exact .inr (waiter place waiting)

namespace Resource

theorem register_calls (R : Resource ρ κ ε ω) (state : Service ρ κ ω) (index : ℕ)
    (call : Call κ ω) (onLoop : Bool) :
    ∃ stage, (R.register state index call onLoop).calls =
      state.calls.set index { call with stage } := by
  apply register_cases
    (motive := fun after => ∃ stage, after.calls = state.calls.set index { call with stage })
  · intro _ _
    exact ⟨.suspended, rfl⟩
  · intro _ _ _
    exact ⟨.finished, rfl⟩
  · intro _ _ _
    exact ⟨.woken none, rfl⟩
  · intro outcome _ _ _
    exact ⟨.finished, rfl⟩
  · intro outcome _ _ _
    exact ⟨.woken (some outcome), rfl⟩

theorem Slotted.serve (slotted : R.Slotted slot refusal) (seated : Seated slot refusal state)
    (found : state.calls[index]? = some call) (stage : call.stage ≠ .suspended) :
    Seated slot refusal (R.serve state index call) := by
  apply seated.update_finish found
  intro _ waiting
  have before := slotted.take.symm.trans waiting
  exact ⟨seated.waiter_ne found stage before, before⟩

theorem Slotted.register (slotted : R.Slotted slot refusal) (seated : Seated slot refusal state)
    (found : state.calls[index]? = some call) (posted : call.stage = .posted) (onLoop : Bool) :
    Seated slot refusal (R.register state index call onLoop) := by
  have away : call.stage ≠ .suspended := by simp [posted]
  have entered : ∀ {entry : Entry ω} {resource : ρ},
      R.enter state.resource call.request index = (entry, resource) →
      ∀ place, slot resource = some place → place = index ∧ entry = .waits ∨
        place ≠ index ∧ slot state.resource = some place := by
    intro entry resource enters place waiting
    rcases slotted.enter enters with none | same | ⟨waits, here⟩
    · cases none.symm.trans waiting
    · have before := same.symm.trans waiting
      exact .inr ⟨seated.waiter_ne found away before, before⟩
    · exact .inl ⟨Option.some.inj (waiting.symm.trans here), waits⟩
  -- Only a call that waits is in the slot.
  have elsewhere : ∀ {entry : Entry ω} {resource : ρ},
      R.enter state.resource call.request index = (entry, resource) → entry ≠ .waits →
      ∀ place, slot resource = some place → place ≠ index ∧ slot state.resource = some place := by
    intro _ resource enters goesOn place waiting
    exact (entered enters place waiting).resolve_left fun here => goesOn here.2
  apply register_cases
  · intro resource enters
    apply seated.update found
    · intro _ settled
      cases settled
    · intro place waiting
      exact (entered enters place waiting).imp_left fun here => ⟨here.1, rfl⟩
  · intro resource enters _
    have kept : Seated slot refusal (state.setResource resource) := by
      refine ⟨?_, seated.settled, seated.recorded⟩
      intro place waiting
      exact seated.waiter place (elsewhere enters (by simp) place waiting).2
    exact slotted.serve kept found away
  · intro _ enters _
    apply seated.update found
    · intro _ settled
      cases settled
    · intro place waiting
      exact .inr (elsewhere enters (by simp) place waiting)
  · intro _ _ enters _
    exact seated.update_finish found (elsewhere enters (by simp))
  · intro _ _ enters _
    apply seated.update found
    · rintro _ ⟨⟩
      exact slotted.refused enters
    · intro place waiting
      exact .inr (elsewhere enters (by simp) place waiting)

variable {event : ServiceEvent κ ε}

/-- The slot names a suspended call after every step. -/
theorem Slotted.step (slotted : R.Slotted slot refusal) (seated : Seated slot refusal state)
    (taken : R.step state event = some state') : Seated slot refusal state' := by
  have posted : ∀ {request : κ}, Seated slot refusal (state.add { request }) := by
    intro _
    apply seated.add
    intro outcome settled
    cases settled
  cases move_of_step taken with
  | screened _ =>
      apply Seated.finish
      · simp [Service.add]
      · rw [Service.add_put]
        apply seated.add
        intro outcome settled
        cases settled
  | posts _ => exact posted
  | enters _ => exact slotted.register posted (getElem?_add state _) rfl true
  | registers found stage => exact slotted.register seated found stage false
  | takes found stage => exact slotted.serve seated found (by simp [stage])
  | learns found stage =>
      apply seated.update_finish found
      intro place waiting
      exact ⟨seated.waiter_ne found (by simp [stage]) waiting, waiting⟩
  | @abandons index call found _ _ =>
      apply seated.update found
      · exact seated.settled call (List.mem_of_getElem? found)
      · intro place waiting
        by_cases here : place = index
        · subst here
          rcases seated.waiter place waiting with ⟨_, foundOther, stage⟩
          cases found.symm.trans foundOther
          exact .inl ⟨rfl, stage⟩
        · exact .inr ⟨here, waiting⟩
  | @occurs _ _ _ changed =>
      rcases slotted.occur changed with ⟨rfl, same⟩ | ⟨rfl, none⟩
      · rw [Service.wake_nil]
        refine ⟨?_, seated.settled, seated.recorded⟩
        intro place waiting
        exact seated.waiter place (same.symm.trans waiting)
      · constructor
        · intro _ waiting
          cases none.symm.trans waiting
        · intro _ member outcome stage
          rcases List.mem_mapIdx.mp member with ⟨_, bound, rfl⟩
          split at stage
          · cases stage
          · exact seated.settled _ (List.getElem_mem bound) outcome stage
        · intro result member
          exact Nat.lt_of_lt_of_eq (seated.recorded result member) List.length_mapIdx.symm

/-- A call keeps its request.  It does not come back from its end, and neither does its
caller. -/
structure GoesOn (before after : Call κ ω) : Prop where
  request : after.request = before.request
  finished : before.stage = .finished → after.stage = .finished
  abandoned : before.abandoned = true → after.abandoned = true

theorem Slotted.step_call (slotted : R.Slotted slot refusal) (seated : Seated slot refusal state)
    (taken : R.step state event = some state') {place : ℕ}
    (found : state'.calls[place]? = some new) :
    (∃ before, state.calls[place]? = some before ∧ GoesOn before new) ∨
      place = state.calls.length ∧ (new.stage = .finished ∨
        R.screen state.resource new.request = none) := by
  have goesOn : ∀ {index : ℕ} {call call' : Call κ ω}, state.calls[index]? = some call →
      GoesOn call call' → (state.calls.set index call')[place]? = some new →
      ∃ before, state.calls[place]? = some before ∧ GoesOn before new := by
    intro index call _ here further foundNew
    rcases getElem?_set_cases foundNew with ⟨rfl, rfl⟩ | ⟨-, old⟩
    · exact ⟨call, here, further⟩
    · exact ⟨new, old, rfl, id, id⟩
  have further : ∀ {call : Call κ ω} {stage : Stage ω}, call.stage ≠ .finished →
      GoesOn call { call with stage } := by
    intro call stage unfinished
    exact ⟨rfl, fun finished => absurd finished unfinished, id⟩
  have appended : ∀ {call : Call κ ω}, (state.calls ++ [call])[place]? = some new →
      (∃ before, state.calls[place]? = some before ∧ GoesOn before new) ∨
        place = state.calls.length ∧ new = call := by
    intro call foundNew
    by_cases old : place < state.calls.length
    · rw [List.getElem?_append_left old] at foundNew
      exact .inl ⟨new, foundNew, rfl, id, id⟩
    · rw [List.getElem?_append_right (Nat.le_of_not_lt old), List.getElem?_singleton] at foundNew
      split at foundNew
      · cases foundNew
        exact .inr ⟨by omega, rfl⟩
      · cases foundNew
  cases move_of_step taken with
  | @screened request _ _ _ =>
      rw [Service.finish, Service.add_put] at found
      rcases appended found with old | ⟨last, rfl⟩
      · exact .inl old
      · exact .inr ⟨last, .inl rfl⟩
  | @posts request unknown =>
      rcases appended found with old | ⟨last, rfl⟩
      · exact .inl old
      · exact .inr ⟨last, .inr unknown⟩
  | @enters request unknown =>
      rcases R.register_calls (state.add { request }) state.calls.length { request } true with
        ⟨stage, calls⟩
      have replaced := state.add_put { request } { request, stage }
      rw [calls] at found
      rcases appended ((congrArg (·.calls[place]?) replaced).symm.trans found) with
        old | ⟨last, rfl⟩
      · exact .inl old
      · exact .inr ⟨last, .inr unknown⟩
  | @registers index call here stage =>
      rcases R.register_calls state index call false with ⟨_, calls⟩
      rw [calls] at found
      exact .inl (goesOn here (further (by simp [stage])) found)
  | takes here stage
  | learns here stage => exact .inl (goesOn here (further (by simp [stage])) found)
  | @abandons _ call here _ _ =>
      have onward : GoesOn call { call with abandoned := true } := ⟨rfl, id, fun _ => rfl⟩
      exact .inl (goesOn here onward found)
  | @occurs _ _ woken changed =>
      simp only [Service.wake, Service.setResource, List.getElem?_mapIdx,
        Option.map_eq_some_iff] at found
      rcases found with ⟨before, here, rfl⟩
      refine .inl ⟨before, here, ?_⟩
      split
      next member =>
        apply further
        -- Only the call in the slot is woken, and it is suspended.
        rcases slotted.occur changed with ⟨rfl, -⟩ | ⟨rfl, -⟩
        · cases member
        · rcases seated.waiter place (Option.mem_toList.mp member) with ⟨_, foundOther, waits⟩
          cases here.symm.trans foundOther
          simp [waits]
      · exact ⟨rfl, id, id⟩

theorem step_length (taken : R.step state event = some state') :
    state'.calls.length = state.calls.length ∨
      state'.calls.length = state.calls.length + 1 ∧
        ∃ request onLoop, event = .call request onLoop := by
  cases move_of_step taken with
  | screened _ =>
      refine .inr ⟨?_, _, _, rfl⟩
      simp [Service.finish, Service.put, Service.add]
  | posts _ =>
      refine .inr ⟨?_, _, _, rfl⟩
      simp [Service.add]
  | @enters request _ =>
      refine .inr ⟨?_, _, _, rfl⟩
      rcases R.register_calls (state.add { request }) state.calls.length { request } true with
        ⟨_, calls⟩
      rw [calls]
      simp [Service.add]
  | @registers index call _ _ =>
      rcases R.register_calls state index call false with ⟨_, calls⟩
      rw [calls]
      exact .inl List.length_set
  | takes _ _ | learns _ _ | abandons _ _ _ => exact .inl List.length_set
  | occurs _ => exact .inl List.length_mapIdx

/-- A property of the resource that nothing breaks. -/
structure Keeps (R : Resource ρ κ ε ω) (invariant : ρ → Prop) : Prop where
  enter : ∀ {resource resource' request index entry}, invariant resource →
    R.enter resource request index = (entry, resource') → invariant resource'
  take : ∀ {resource request}, invariant resource → invariant (R.take resource request).2
  occur : ∀ {resource resource' event woken}, invariant resource →
    R.occur resource event = some (resource', woken) → invariant resource'

theorem Keeps.step {invariant : ρ → Prop} (keeps : R.Keeps invariant)
    (before : invariant state.resource) (taken : R.step state event = some state') :
    invariant state'.resource := by
  have registered : ∀ {between : Service ρ κ ω} {index : ℕ} {call : Call κ ω} {onLoop : Bool},
      invariant between.resource → invariant (R.register between index call onLoop).resource := by
    intro _ _ _ _ here
    apply register_cases (motive := fun after => invariant after.resource)
    · intro _ enters
      exact keeps.enter here enters
    · intro _ enters _
      exact keeps.take (keeps.enter here enters)
    · intro _ enters _
      exact keeps.enter here enters
    · intro _ _ enters _
      exact keeps.enter here enters
    · intro _ _ enters _
      exact keeps.enter here enters
  cases move_of_step taken with
  | screened _ | posts _ | learns _ _ | abandons _ _ _ => exact before
  | enters _ | registers _ _ => exact registered before
  | takes _ _ => exact keeps.take before
  | occurs changed => exact keeps.occur before changed

end Resource

end Library
