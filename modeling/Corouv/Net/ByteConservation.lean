import Corouv.Library.Seats
import Corouv.Net.TcpStream

/-!
# Reads whose callers have given up

One consumer reads from a stream, one read after the other, and may give up a read that takes
too long.  Such a read stays registered.  It takes the bytes it is woken for, and as long as it
waits the next read is turned away.  Where it finds no bytes and is in nobody's way, the
consumer gets all the bytes libuv has delivered, in order.
-/

namespace Corouv.Net

open Library StreamState

def bytesOf : Except Exn Bytes → Bytes
  | .ok bytes => bytes
  | .error _ => []

namespace StreamRun

abbrev Event := ServiceEvent ReadRequest (SocketEvent ReadReport)

def step (run : StreamRun) (event : Event) : Option StreamRun :=
  tcpStream.resource.step run event

/-- The bytes that have reached the consumer. -/
def received (run : StreamRun) : Bytes :=
  run.results.flatMap fun result => if result.kept then bytesOf result.outcome else []

def delivered (run : StreamRun) : Bytes :=
  run.resource.state.delivered.flatMap ReadReport.bytes

/-- The read is turned away, or is about to be. -/
def Rejected (run : StreamRun) (place : ℕ) : Prop :=
  (∃ read, run.calls[place]? = some read ∧ read.stage = .woken (some concurrentRead)) ∨
    ∃ result ∈ run.results, result.call = place ∧ result.outcome = concurrentRead

def GivenUp (run : StreamRun) (place : ℕ) : Prop :=
  ∃ read, run.calls[place]? = some read ∧ read.abandoned = true

/-- No read before this one has been given up. -/
def NoneGivenUp (run : StreamRun) (place : ℕ) : Prop :=
  ∀ earlier < place, ¬run.GivenUp earlier

structure Conserved (run : StreamRun) : Prop where
  bytes : run.received ++ run.resource.state.readBuffer = run.delivered
  served : ∀ place, run.Rejected place → run.NoneGivenUp place

/-- The consumer makes a read when the one before is over or has been given up. -/
def InTurn (run : StreamRun) : Event → Prop
  | .call _ _ => ∀ read ∈ run.calls, read.stage = .finished ∨ read.abandoned = true
  | _ => True

instance (run : StreamRun) : DecidablePred run.InTurn
  | .call _ _ => inferInstanceAs (Decidable (∀ read ∈ run.calls, _ ∨ _))
  | .register _ | .resume _ | .abandon _ | .occur _ => isTrue trivial

/-- A read that has been given up finds no bytes, and none is in the way of a later one. -/
def Considerate (run : StreamRun) : Event → Prop
  | .call request onLoop =>
      onLoop = true → tcpStream.resource.screen run.resource request = none →
        run.resource.state.readWaiter ≠ none → run.NoneGivenUp run.calls.length
  | .register place => run.resource.state.readWaiter ≠ none → run.NoneGivenUp place
  | .resume place =>
      ∀ read, run.calls[place]? = some read → read.abandoned = true →
        read.stage = .woken none → run.resource.state.readBuffer = []
  | _ => True

instance (run : StreamRun) (place : ℕ) : Decidable (run.NoneGivenUp place) :=
  inferInstanceAs (Decidable (∀ earlier < place,
    ¬∃ read ∈ run.calls[earlier]?, read.abandoned = true))

instance (run : StreamRun) : DecidablePred run.Considerate
  | .call _ _ => inferInstanceAs (Decidable (_ → _ → _ → run.NoneGivenUp _))
  | .register _ => inferInstanceAs (Decidable (_ → run.NoneGivenUp _))
  | .resume place => inferInstanceAs (Decidable (∀ read ∈ run.calls[place]?,
      read.abandoned = true → read.stage = .woken none → run.resource.state.readBuffer = []))
  | .abandon _ | .occur _ => isTrue trivial

variable {run run' : StreamRun} {place index : ℕ}
  {read new : Call ReadRequest (Except Exn Bytes)} {outcome : Except Exn Bytes}

theorem givenUp_put (found : run.calls[index]? = some read)
    (same : new.abandoned = read.abandoned) :
    GivenUp (run.put index new) place ↔ run.GivenUp place := by
  by_cases here : index = place
  · subst here
    simp [GivenUp, Service.put, getElem?_set_of_eq_some found, found, same]
  · simp [GivenUp, Service.put, List.getElem?_set_ne here]

theorem givenUp_add (kept : new.abandoned = false) :
    GivenUp (run.add new) place ↔ run.GivenUp place := by
  constructor
  · rintro ⟨read, found, abandoned⟩
    rcases getElem?_concat_cases found with old | rfl
    · exact ⟨read, old, abandoned⟩
    · cases kept.symm.trans abandoned
  · rintro ⟨read, found, abandoned⟩
    exact ⟨read, getElem?_append_of_eq_some found _, abandoned⟩

theorem givenUp_wake {woken : List ℕ} : GivenUp (run.wake woken) place ↔ run.GivenUp place := by
  have same : ∀ read : Call ReadRequest (Except Exn Bytes),
      (if place ∈ woken then { read with stage := .woken none } else read).abandoned =
        read.abandoned := by
    intro _
    split <;> rfl
  simp [GivenUp, Service.wake, List.getElem?_mapIdx, same]

theorem noneGivenUp_congr (same : ∀ place, run'.GivenUp place ↔ run.GivenUp place) :
    run'.NoneGivenUp place ↔ run.NoneGivenUp place := by
  simp only [NoneGivenUp, same]

theorem rejected_put (rejected : Rejected (run.put index new) place) :
    run.Rejected place ∨ place = index ∧ new.stage = .woken (some concurrentRead) := by
  rcases rejected with ⟨read, found, stage⟩ | result
  · rcases getElem?_set_cases found with ⟨rfl, rfl⟩ | ⟨-, old⟩
    · exact .inr ⟨rfl, stage⟩
    · exact .inl (.inl ⟨read, old, stage⟩)
  · exact .inl (.inr result)

theorem rejected_finish (rejected : Rejected (run.finish index read outcome) place) :
    run.Rejected place ∨ place = index ∧ outcome = concurrentRead := by
  rcases rejected with ⟨other, found, stage⟩ | ⟨result, member, rfl, told⟩
  · rcases getElem?_set_cases found with ⟨rfl, rfl⟩ | ⟨-, old⟩
    · cases stage
    · exact .inl (.inl ⟨other, old, stage⟩)
  · rcases List.mem_append.mp member with earlier | last
    · exact .inl (.inr ⟨result, earlier, rfl, told⟩)
    · cases List.mem_singleton.mp last
      exact .inr ⟨rfl, told⟩

theorem rejected_add (posted : new.stage = .posted) (rejected : Rejected (run.add new) place) :
    run.Rejected place := by
  rcases rejected with ⟨read, found, stage⟩ | result
  · rcases getElem?_concat_cases found with old | rfl
    · exact .inl ⟨read, old, stage⟩
    · cases posted.symm.trans stage
  · exact .inr result

theorem rejected_wake {woken : List ℕ} (rejected : Rejected (run.wake woken) place) :
    run.Rejected place := by
  rcases rejected with ⟨_, found, stage⟩ | result
  · simp only [Service.wake, List.getElem?_mapIdx, Option.map_eq_some_iff] at found
    rcases found with ⟨old, foundOld, rfl⟩
    split at stage
    · cases stage
    · exact .inl ⟨old, foundOld, stage⟩
  · exact .inr result

theorem received_finish :
    received (run.finish index read outcome) =
      run.received ++ if read.abandoned then [] else bytesOf outcome := by
  cases abandoned : read.abandoned <;> simp [received, Service.finish, abandoned]

theorem awaitResume_bytes (state : StreamState) (request : ReadRequest) :
    bytesOf (state.awaitResume request).1 ++ (state.awaitResume request).2.readBuffer =
      state.readBuffer := by
  unfold awaitResume
  split
  · exact List.take_append_drop _ _
  next empty =>
    have blank : state.readBuffer = [] := not_not.mp empty
    split <;> simp [bytesOf, blank]

variable {request : ReadRequest} {state : StreamState} {owner : Owner StreamState}

theorem awaitResume_of_not_ready (request : ReadRequest) (notReady : state.isReady = false) :
    (state.awaitResume request).2 = state := by
  have empty := (isReady_eq_false_iff.mp notReady).2.1
  simp only [awaitResume, empty, ne_eq, not_true_eq_false, if_false]
  split <;> rfl

theorem awaitResume_takes (sized : 0 < request.size)
    (same : (state.awaitResume request).2.readBuffer = state.readBuffer) :
    state.readBuffer = [] := by
  by_contra some
  have shorter := congrArg List.length same
  simp only [awaitResume, if_pos some, List.length_drop] at shorter
  have long : 0 < state.readBuffer.length := List.length_pos_of_ne_nil some
  omega

/-- A registration leaves the bytes alone.  It turns the read away if another one is
registered. -/
theorem registerWaiter_entry {state' : StreamState} {entry : Entry (Except Exn Bytes)}
    (blank : state.readWaiter ≠ none → state.isReady = false)
    (registers : state.registerWaiter request index = (entry, state')) :
    state'.readBuffer = state.readBuffer ∧ state'.delivered = state.delivered ∧
      (state.readWaiter ≠ none ↔ entry = .refused concurrentRead) ∧
      ∀ outcome, entry = .refused outcome → bytesOf outcome = [] := by
  rcases registerWaiter_cases registers with
    ⟨ready, rfl, rfl⟩ | ⟨-, waiting, rfl, rfl⟩ | ⟨-, free, ⟨rfl, -, rfl⟩ | ⟨rfl, rfl⟩⟩
  · have free : ¬state'.readWaiter ≠ none := by
      intro waiting
      cases ready.symm.trans (blank waiting)
    simp [free]
  · refine ⟨rfl, rfl, iff_of_true waiting rfl, ?_⟩
    rintro _ ⟨⟩
    rfl
  · refine ⟨rfl, rfl, iff_of_false (absurd free) (by simp [concurrentRead]), ?_⟩
    rintro _ ⟨⟩
    rfl
  · refine ⟨rfl, rfl, iff_of_false (absurd free) (by simp), ?_⟩
    rintro _ ⟨⟩

section

variable (conserved : run.Conserved)
include conserved

theorem Conserved.setResource (buffer : owner.state.readBuffer = run.resource.state.readBuffer)
    (delivered : owner.state.delivered = run.resource.state.delivered) :
    Conserved (run.setResource owner) := by
  constructor
  · show run.received ++ owner.state.readBuffer = owner.state.delivered.flatMap ReadReport.bytes
    rw [buffer, delivered]
    exact conserved.bytes
  · exact conserved.served

theorem Conserved.put_iff (found : run.calls[index]? = some read)
    (stage : Stage (Except Exn Bytes)) :
    Conserved (run.put index { read with stage }) ↔
      (stage = .woken (some concurrentRead) → run.NoneGivenUp index) := by
  have unchanged : ∀ place, NoneGivenUp (run.put index { read with stage }) place ↔
      run.NoneGivenUp place := fun place => noneGivenUp_congr fun _ => givenUp_put found rfl
  constructor
  · intro after turnedAway
    rw [← unchanged]
    exact after.served index (.inl ⟨_, getElem?_set_of_eq_some found _, turnedAway⟩)
  · intro served
    refine ⟨conserved.bytes, fun place rejected => ?_⟩
    rw [unchanged]
    rcases rejected_put rejected with before | ⟨rfl, turnedAway⟩
    · exact conserved.served place before
    · exact served turnedAway

theorem Conserved.add (posted : new.stage = .posted) (kept : new.abandoned = false) :
    Conserved (run.add new) := by
  constructor
  · exact conserved.bytes
  · intro place rejected
    rw [noneGivenUp_congr fun _ => givenUp_add kept]
    exact conserved.served place (rejected_add posted rejected)

theorem Conserved.finish_iff (found : run.calls[index]? = some read)
    (nothing : bytesOf outcome = []) :
    Conserved (run.finish index read outcome) ↔
      (outcome = concurrentRead → run.NoneGivenUp index) := by
  have unchanged : ∀ place, NoneGivenUp (run.finish index read outcome) place ↔
      run.NoneGivenUp place := fun place => noneGivenUp_congr fun _ => givenUp_put found rfl
  constructor
  · intro after told
    rw [← unchanged]
    apply after.served
    exact .inr ⟨_, List.mem_append_right _ (List.mem_singleton_self _), rfl, told⟩
  · intro served
    constructor
    · rw [received_finish, nothing, ite_self, List.append_nil]
      exact conserved.bytes
    · intro place rejected
      rw [unchanged]
      rcases rejected_finish rejected with before | ⟨rfl, told⟩
      · exact conserved.served place before
      · exact served told

/-- Serving a read loses bytes exactly if the read was given up with bytes buffered. -/
theorem Conserved.serve_iff (found : run.calls[index]? = some read)
    (sized : 0 < read.request.size) :
    Conserved (tcpStream.resource.serve run index read) ↔
      (read.abandoned = true → run.resource.state.readBuffer = []) := by
  have taken := awaitResume_bytes run.resource.state read.request
  have reported := awaitResume_delivered run.resource.state read.request
  have same : ∀ place, NoneGivenUp (tcpStream.resource.serve run index read) place ↔
      run.NoneGivenUp place := fun place => noneGivenUp_congr fun _ => givenUp_put found rfl
  have bytes : received (tcpStream.resource.serve run index read) =
      run.received ++ if read.abandoned then []
        else bytesOf (run.resource.state.awaitResume read.request).1 := received_finish
  have served : ∀ place, Rejected (tcpStream.resource.serve run index read) place →
      NoneGivenUp (tcpStream.resource.serve run index read) place := by
    intro place rejected
    rw [same]
    rcases rejected_finish rejected with before | ⟨-, told⟩
    · exact conserved.served place before
    · exact absurd told (awaitResume_ne _ _)
  have balance : delivered (tcpStream.resource.serve run index read) = run.delivered :=
    congrArg (List.flatMap ReadReport.bytes) reported
  constructor
  · intro after abandoned
    apply awaitResume_takes sized
    have left := after.bytes
    rw [bytes, if_pos abandoned, List.append_nil, balance, ← conserved.bytes] at left
    exact List.append_cancel_left left
  · intro empty
    refine ⟨?_, served⟩
    rw [bytes, balance, ← conserved.bytes, List.append_assoc]
    apply congrArg (run.received ++ ·)
    cases abandoned : read.abandoned with
    | false => exact taken
    | true =>
        rw [empty abandoned] at taken ⊢
        exact (List.append_eq_nil_iff.mp taken).2

theorem Conserved.register_iff
    (blank : run.resource.state.readWaiter ≠ none → run.resource.state.isReady = false)
    (found : run.calls[index]? = some read) (sized : 0 < read.request.size) {onLoop : Bool}
    (kept : onLoop = true → read.abandoned = false) :
    Conserved (tcpStream.resource.register run index read onLoop) ↔
      (run.resource.state.readWaiter ≠ none → run.NoneGivenUp index) := by
  have entered : ∀ {entry : Entry (Except Exn Bytes)} {owner : Owner StreamState},
      tcpStream.resource.enter run.resource read.request index = (entry, owner) →
      Conserved (run.setResource owner) ∧
        (run.resource.state.readWaiter ≠ none ↔ entry = .refused concurrentRead) ∧
        ∀ outcome, entry = .refused outcome → bytesOf outcome = [] := by
    intro _ _ enters
    rcases Socket.enter_eq enters with ⟨_, registers, rfl⟩
    rcases registerWaiter_entry blank registers with ⟨buffer, delivered, turnedAway, nothing⟩
    exact ⟨conserved.setResource buffer delivered, turnedAway, nothing⟩
  apply Resource.register_cases (motive := fun after => Conserved after ↔
      (run.resource.state.readWaiter ≠ none → run.NoneGivenUp index))
  · intro _ enters
    rcases entered enters with ⟨conservedAfter, turnedAway, -⟩
    rw [conservedAfter.put_iff found, turnedAway]
    simp
  · intro _ enters onLoop
    rcases entered enters with ⟨conservedAfter, turnedAway, -⟩
    rw [conservedAfter.serve_iff found sized, turnedAway, kept onLoop]
    simp
  · intro _ enters _
    rcases entered enters with ⟨conservedAfter, turnedAway, -⟩
    rw [conservedAfter.put_iff found, turnedAway]
    simp
  · intro outcome _ enters _
    rcases entered enters with ⟨conservedAfter, turnedAway, nothing⟩
    rw [conservedAfter.finish_iff found (nothing outcome rfl), turnedAway, Entry.refused.injEq]
    rfl
  · intro _ _ enters _
    rcases entered enters with ⟨conservedAfter, turnedAway, _⟩
    rw [conservedAfter.put_iff found, turnedAway, Entry.refused.injEq, Stage.woken.injEq,
      Option.some.injEq]
    rfl

end

/-- A read that is registered finds nothing there. -/
def Blank (owner : Owner StreamState) : Prop :=
  owner.state.readWaiter ≠ none → owner.state.isReady = false

theorem slotted :
    tcpStream.resource.Slotted (fun owner => owner.state.readWaiter)
      fun outcome => bytesOf outcome = [] where
  enter := by
    intro _ _ _ _ _ enters
    rcases Socket.enter_eq enters with ⟨_, registers, rfl⟩
    rcases registerWaiter_cases registers with
      ⟨-, -, rfl⟩ | ⟨-, -, -, rfl⟩ | ⟨-, -, ⟨-, -, rfl⟩ | ⟨waits, rfl⟩⟩
    · exact .inr (.inl rfl)
    · exact .inr (.inl rfl)
    · exact .inl rfl
    · exact .inr (.inr ⟨waits, rfl⟩)
  refused := by
    intro _ _ _ _ _ enters
    rcases Socket.enter_eq enters with ⟨_, registers, rfl⟩
    rcases registerWaiter_cases registers with
      ⟨-, passes, -⟩ | ⟨-, -, refused, -⟩ | ⟨-, -, ⟨refused, -⟩ | ⟨waits, -⟩⟩
    · cases passes
    · cases refused
      rfl
    · cases refused
      rfl
    · cases waits
  take := awaitResume_waiter _ _
  occur := by
    intro _ _ _ woken happens
    rcases (Socket.occurrence happens).change.1 with ⟨same, none⟩ | change
    · exact .inl ⟨none, congrArg readWaiter same⟩
    · exact ((reaction change).waiter).imp (fun kept => ⟨kept.1, kept.2.1⟩)
        (fun woken => ⟨woken.1, woken.2.1⟩)

theorem keeps_blank : tcpStream.resource.Keeps Blank where
  enter := by
    intro owner _ request _ _ blank enters
    rcases Socket.enter_eq enters with ⟨_, registers, rfl⟩
    rcases registerWaiter_cases registers with
      ⟨-, -, rfl⟩ | ⟨-, -, -, rfl⟩ | ⟨notReady, -, ⟨-, -, rfl⟩ | ⟨-, rfl⟩⟩
    · exact blank
    · exact blank
    · intro waiting
      exact absurd rfl waiting
    · intro _
      exact notReady
  take := by
    intro owner request blank waiting
    have notReady := blank (awaitResume_waiter owner.state request ▸ waiting)
    exact (congrArg isReady (awaitResume_of_not_ready request notReady)).trans notReady
  occur := by
    intro _ _ _ _ blank happens waiting
    rcases (Socket.occurrence happens).change.1 with ⟨same, -⟩ | change
    · exact (congrArg isReady same).trans (blank (congrArg readWaiter same ▸ waiting))
    · rcases (reaction change).waiter with ⟨-, waiter, ready⟩ | ⟨-, none, -⟩
      · exact ready.trans (blank (waiter ▸ waiting))
      · exact absurd none waiting

structure Sound (run : StreamRun) : Prop where
  blank : Blank run.resource
  seated : Seated (fun owner => owner.state.readWaiter) (fun outcome => bytesOf outcome = []) run
  turn : ∀ {place : ℕ} {read : Call ReadRequest (Except Exn Bytes)},
    run.calls[place]? = some read → place + 1 < run.calls.length →
    read.stage = .finished ∨ read.abandoned = true
  sized : ∀ {place : ℕ} {read : Call ReadRequest (Except Exn Bytes)},
    run.calls[place]? = some read → read.stage ≠ .finished → 0 < read.request.size

theorem screen_eq (owner : Owner StreamState) (request : ReadRequest) :
    tcpStream.resource.screen owner request =
      if owner.held && owner.state.isOpen then
        if request.size = 0 then some (.ok []) else none
      else some (.error (.logic "corouv::net::TcpStream is closed")) := rfl

theorem size_pos_of_screen (unknown : tcpStream.resource.screen owner request = none) :
    0 < request.size := by
  rw [screen_eq] at unknown
  split at unknown
  · split at unknown
    · cases unknown
    · omega
  · cases unknown

theorem screen_outcome (known : tcpStream.resource.screen owner request = some outcome) :
    bytesOf outcome = [] ∧ outcome ≠ concurrentRead := by
  rw [screen_eq] at known
  split at known
  · split at known
    · cases known
      exact ⟨rfl, by simp [concurrentRead]⟩
    · cases known
  · cases known
    exact ⟨rfl, by simp [concurrentRead]⟩

theorem Sound.step (sound : run.Sound) {event : Event} (inTurn : run.InTurn event)
    (taken : run.step event = some run') : run'.Sound := by
  constructor
  · exact keeps_blank.step sound.blank taken
  · exact slotted.step sound.seated taken
  · intro _ _ found _
    have bound := (List.getElem?_eq_some_iff.mp found).1
    rcases slotted.step_call sound.seated taken found with ⟨before, here, onward⟩ | ⟨_, -⟩
    · apply Or.imp onward.finished onward.abandoned
      rcases Resource.step_length taken with _ | ⟨-, _, _, rfl⟩
      · exact sound.turn here (by omega)
      · exact inTurn before (List.mem_of_getElem? here)
    · have length := Resource.step_length taken
      omega
  · intro _ _ found unfinished
    rcases slotted.step_call sound.seated taken found with
      ⟨_, here, onward⟩ | ⟨-, finished | unknown⟩
    · rw [onward.request]
      exact sound.sized here fun finished => unfinished (onward.finished finished)
    · exact absurd finished unfinished
    · exact size_pos_of_screen unknown

theorem rejected_lt (sound : run.Sound) (rejected : run.Rejected place) :
    place < run.calls.length := by
  rcases rejected with ⟨_, found, -⟩ | ⟨result, member, rfl, -⟩
  · exact (List.getElem?_eq_some_iff.mp found).1
  · exact sound.seated.recorded result member

/-- A step keeps the bytes together and turns no read away for one that was given up, if and
only if it is considerate. -/
theorem Conserved.step_iff (conserved : run.Conserved) (sound : run.Sound) {event : Event}
    (inTurn : run.InTurn event) (taken : run.step event = some run') :
    run'.Conserved ↔ run.Considerate event := by
  cases Resource.move_of_step taken with
  | @screened request onLoop outcome known =>
      rcases screen_outcome known with ⟨nothing, served⟩
      refine iff_of_true ?_ fun _ unknown => by cases known.symm.trans unknown
      have added : Conserved (run.add { request }) := conserved.add rfl rfl
      rw [added.finish_iff (getElem?_add run _) nothing]
      exact fun told => absurd told served
  | posts _ =>
      refine iff_of_true (conserved.add rfl rfl) ?_
      intro onLoop
      cases onLoop
  | @enters request unknown =>
      have added : Conserved (run.add { request }) := conserved.add rfl rfl
      rw [added.register_iff sound.blank (getElem?_add run _) (size_pos_of_screen unknown)
        fun _ => rfl]
      have same : NoneGivenUp (run.add { request }) run.calls.length ↔
          run.NoneGivenUp run.calls.length := noneGivenUp_congr fun _ => givenUp_add rfl
      rw [same]
      exact ⟨fun served _ _ => served, fun served => served rfl unknown⟩
  | @registers index read found stage =>
      exact conserved.register_iff sound.blank found (sound.sized found (by simp [stage])) (by simp)
  | @takes index read found stage =>
      rw [conserved.serve_iff found (sound.sized found (by simp [stage]))]
      constructor
      · intro empty other foundOther abandoned _
        cases found.symm.trans foundOther
        exact empty abandoned
      · intro considerate abandoned
        exact considerate read found abandoned stage
  | @learns index read outcome found stage =>
      have nothing := sound.seated.settled read (List.mem_of_getElem? found) outcome stage
      rw [conserved.finish_iff found nothing]
      refine iff_of_true ?_ ?_
      · rintro rfl
        exact conserved.served index (.inl ⟨read, found, stage⟩)
      · intro other foundOther _ woken
        cases found.symm.trans foundOther
        cases stage.symm.trans woken
  | @abandons index read found unfinished kept =>
      refine iff_of_true ⟨conserved.bytes, ?_⟩ trivial
      -- The read that is given up is the last one, so no other was turned away after it.
      intro place rejected
      have before : run.Rejected place := by
        rcases rejected_put rejected with before | ⟨rfl, stage⟩
        · exact before
        · exact .inl ⟨read, found, stage⟩
      intro earlier bound givenUp
      by_cases here : earlier = index
      · subst here
        have later : earlier + 1 < run.calls.length := by
          have bounded := rejected_lt sound before
          omega
        rcases sound.turn found later with isDone | abandoned
        · exact unfinished isDone
        · cases kept.symm.trans abandoned
      · rcases givenUp with ⟨other, foundOther, abandoned⟩
        have same : run.calls[earlier]? = some other :=
          (List.getElem?_set_ne (Ne.symm here)).symm.trans foundOther
        exact conserved.served place before earlier bound ⟨other, same, abandoned⟩
  | @occurs _ owner _ changed =>
      refine iff_of_true ⟨?_, ?_⟩ trivial
      · show run.received ++ owner.state.readBuffer = owner.state.delivered.flatMap ReadReport.bytes
        rcases (Socket.occurrence changed).change.1 with ⟨same, -⟩ | change
        · rw [same]
          exact conserved.bytes
        · rcases (reaction change).bytes with ⟨bytes, buffer, delivered⟩
          rw [buffer, delivered, ← List.append_assoc]
          exact congrArg (· ++ bytes) conserved.bytes
      · intro place rejected
        have before : run.Rejected place := rejected_wake rejected
        exact (noneGivenUp_congr fun _ => givenUp_wake).mpr (conserved.served place before)

/-- A stream that has just been opened. -/
def opened : StreamRun :=
  { resource := { state := {} } }

/-- Whoever reads, gives up or closes, the waiter of a stream is a suspended call. -/
theorem waiter_seated (events : List Event) :
    Seated (fun owner => owner.state.readWaiter) (fun outcome => bytesOf outcome = [])
      (runOf step opened events) :=
  runOf_invariant (.start rfl) slotted.step events

theorem sound_opened : Sound opened := by
  constructor
  · intro waiting
    exact absurd rfl waiting
  · exact .start rfl
  · intro _ _ found
    cases found
  · intro _ _ found
    cases found

theorem conserved_opened : Conserved opened := by
  constructor
  · rfl
  · intro _ _ _ _ givenUp
    rcases givenUp with ⟨_, found, -⟩
    cases found

/-- In runs where reads are made in turn, and those that were given up find no bytes and are in no
one's way, what has come is what was received and what is in the buffer.  A step keeps this
exactly if it is of that kind. -/
theorem bytes_conserved (run : StreamRun)
    (reached : Reached step (fun run event => run.InTurn event ∧ run.Considerate event)
      opened run) :
    run.Conserved ∧ ∀ event run', run.InTurn event → run.step event = some run' →
      (run'.Conserved ↔ run.Considerate event) := by
  have kept : run.Sound ∧ run.Conserved := by
    apply reached.invariant
    · exact ⟨sound_opened, conserved_opened⟩
    · intro run event run' ⟨sound, conserved⟩ ⟨inTurn, considerate⟩ taken
      exact ⟨sound.step inTurn taken, (conserved.step_iff sound inTurn taken).mpr considerate⟩
  refine ⟨kept.2, ?_⟩
  intro _ _ inTurn taken
  exact kept.2.step_iff kept.1 inTurn taken

theorem bytes_conserved_past_end :
    ∃ run : StreamRun,
      Reached step (fun run event => run.InTurn event ∧ run.Considerate event) opened run ∧
        run.received = ascii "abcdef" ∧ run.GivenUp 2 ∧ run.Conserved := by
  have followed : (follow step (fun run event => run.InTurn event ∧ run.Considerate event)
      opened [.call ⟨4, 0, by decide⟩ true, .occur (.callback (.data (ascii "abcdef"))), .resume 0,
        .call ⟨4, 0, by decide⟩ false, .register 1, .resume 1,
        .call ⟨4, 0, by decide⟩ true, .abandon 2, .occur (.callback .eof), .resume 2]).map
        (fun run => (run.received, run.calls.map Call.abandoned)) =
      some (ascii "abcdef", [false, false, true]) := by
    decide +kernel
  rcases exists_of_follow followed with ⟨run, -, reached, seen⟩
  rcases Prod.mk.inj seen with ⟨received, flags⟩
  refine ⟨run, reached, received, ?_, (bytes_conserved run reached).1⟩
  have flag : (run.calls.map Call.abandoned)[2]? = some true := by rw [flags]; rfl
  rw [List.getElem?_map, Option.map_eq_some_iff] at flag
  exact flag

/-- Three bytes go to a read that was given up; and while it is in place, no other can be made. -/
theorem given_up_read_loses_bytes :
    (follow step InTurn opened
      [.call ⟨8, 0, by decide⟩ true, .abandon 0, .occur (.callback (.data (ascii "abc"))),
        .resume 0]).map
        (fun run => (run.received, run.resource.state.readBuffer, run.delivered)) =
      some ([], [], ascii "abc") ∧
    (follow step InTurn opened
      [.call ⟨8, 0, by decide⟩ true, .abandon 0, .call ⟨8, 0, by decide⟩ true]).map
        (fun run => run.results.map fun result => (result.call, result.kept, result.outcome)) =
      some [(1, true,
        .error (.logic "corouv::net::TcpStream does not support concurrent reads"))] := by
  decide +kernel

end StreamRun

end Corouv.Net
