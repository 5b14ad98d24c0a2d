import Corouv.Sync.Queue

/-!
# The queue is a bounded FIFO

Elements and permits are out of step while an operation is between its acquisition and its
critical section, or between its critical section and its release.  The operations are
therefore counted by how far they have come: those that have an item permit have completed
an acquisition of `_items`, at most as many as have been released, and each release comes
after the critical section of a producer.  The slots are counted the same way.
-/

namespace Corouv.Sync

open Library

namespace Parties

variable {π : Type} {parties : Parties π} {id other : PartyId} {party party' : π}

theorem count_set (found : parties.get id = some party) (party' : π) (p : π → Bool) :
    (parties.set id party').count p + (p party).toNat =
      parties.count p + (p party').toNat := by
  cases id with
  | waiting _ | immediate _ =>
      have counts := countP_set_add found party' p
      simp only [count, set]
      omega

variable {p : π → Bool}

theorem count_set_of_eq (found : parties.get id = some party) (same : p party' = p party) :
    (parties.set id party').count p = parties.count p := by
  have counts := count_set found party' p
  rw [same] at counts
  exact Nat.add_right_cancel counts

theorem count_set_of_new (found : parties.get id = some party) (before : p party = false)
    (after : p party' = true) : (parties.set id party').count p = parties.count p + 1 := by
  have counts := count_set found party' p
  simpa [before, after] using counts

theorem count_addWaiting (party : π) (p : π → Bool) :
    (parties.addWaiting party).count p = parties.count p + (p party).toNat := by
  simp only [count, addWaiting, List.countP_append, List.countP_singleton]
  cases p party with
  | false => rfl
  | true =>
      simp only [if_true, Bool.toNat_true]
      omega

theorem count_addImmediate (party : π) (p : π → Bool) :
    (parties.addImmediate party).count p = parties.count p + (p party).toNat := by
  simp only [count, addImmediate, List.countP_append, List.countP_singleton]
  cases p party <;> rfl

theorem count_add_le {q r : π → Bool}
    (pointwise : ∀ party, (p party).toNat + (q party).toNat ≤ (r party).toNat) :
    parties.count p + parties.count q ≤ parties.count r := by
  have waiting : parties.waiting.countP p + parties.waiting.countP q ≤
      parties.waiting.countP r := countP_add_le pointwise
  have immediate : parties.immediate.countP p + parties.immediate.countP q ≤
      parties.immediate.countP r := countP_add_le pointwise
  simp only [count]
  omega

theorem count_mono {q : π → Bool} (implied : ∀ party, p party = true → q party = true) :
    parties.count p ≤ parties.count q :=
  Nat.add_le_add (List.countP_mono_left fun party _ => implied party)
    (List.countP_mono_left fun party _ => implied party)

theorem count_pos (found : parties.get id = some party) (holds : p party = true) :
    0 < parties.count p := by
  cases id with
  | waiting _ | immediate _ =>
      have positive := List.countP_pos_iff.mpr ⟨party, List.mem_of_getElem? found, holds⟩
      simp only [count]
      omega

theorem get_set_self (found : parties.get id = some party) (party' : π) :
    (parties.set id party').get id = some party' := by
  cases id with
  | waiting _ | immediate _ => exact getElem?_set_of_eq_some found party'

theorem get_set_of_ne (different : id ≠ other) (party' : π) :
    (parties.set id party').get other = parties.get other := by
  cases id <;> cases other <;> simp_all [set, get, List.getElem?_set_ne]

theorem get_addWaiting (found : parties.get id = some party) (new : π) :
    (parties.addWaiting new).get id = some party := by
  cases id with
  | waiting _ => exact getElem?_append_of_eq_some found _
  | immediate _ => exact found

theorem get_addImmediate (found : parties.get id = some party) (new : π) :
    (parties.addImmediate new).get id = some party := by
  cases id with
  | waiting _ => exact found
  | immediate _ => exact getElem?_append_of_eq_some found _

/-- Every operation that has its permit has completed an acquisition of its own. -/
structure Linked (parties : Parties π) (has : π → Bool) (semaphore : AsyncSemaphore) : Prop where
  waiting : ∀ {index : ℕ} {party : π}, parties.waiting[index]? = some party →
    has party = true → ∃ call, semaphore.calls[index]? = some call ∧ call.isReturned = true
  immediate : parties.immediate.length ≤ semaphore.tried

namespace Linked

variable {has : π → Bool} {semaphore semaphore' : AsyncSemaphore} {event : Event}

variable (linked : parties.Linked has semaphore)
include linked

theorem count_le : parties.count has ≤ semaphore.completed := by
  have waiting := countP_le_of_getElem? fun _ _ => linked.waiting
  have immediate : parties.immediate.countP has ≤ parties.immediate.length := List.countP_le_length
  have tried := linked.immediate
  simp only [count, Lock.completed]
  omega

theorem step (taken : semaphore.step event = some semaphore') : parties.Linked has semaphore' := by
  constructor
  · intro _ _ found holds
    rcases linked.waiting found holds with ⟨_, called, returned⟩
    exact Lock.returned_step called returned taken
  · exact linked.immediate.trans (Lock.tried_le_step taken)

theorem set (found : parties.get id = some party) (same : has party' = true → has party = true) :
    (parties.set id party').Linked has semaphore := by
  cases id with
  | waiting _ =>
      refine ⟨fun {index other} found' holds => ?_, linked.immediate⟩
      rcases getElem?_set_cases found' with ⟨rfl, rfl⟩ | ⟨-, before⟩
      · exact linked.waiting found (same holds)
      · exact linked.waiting before holds
  | immediate _ =>
      refine ⟨linked.waiting, ?_⟩
      simpa [Parties.set] using linked.immediate

theorem set_waiting {index : ℕ} {call : Call} (called : semaphore.calls[index]? = some call)
    (returned : call.isReturned = true) :
    (parties.set (.waiting index) party').Linked has semaphore := by
  refine ⟨fun {place other} found' holds => ?_, linked.immediate⟩
  rcases getElem?_set_cases found' with ⟨rfl, -⟩ | ⟨-, before⟩
  · exact ⟨call, called, returned⟩
  · exact linked.waiting before holds

theorem addWaiting (without : has party = false) :
    (parties.addWaiting party).Linked has semaphore := by
  refine ⟨fun {index other} found holds => ?_, linked.immediate⟩
  rcases getElem?_concat_cases found with before | rfl
  · exact linked.waiting before holds
  · exact absurd holds (by simp [without])

theorem addImmediate (more : parties.immediate.length < semaphore.tried) (party : π) :
    (parties.addImmediate party).Linked has semaphore := by
  refine ⟨linked.waiting, ?_⟩
  simp only [Parties.addImmediate, List.length_append, List.length_singleton]
  exact more

end Linked

end Parties

namespace ProducerStage

theorem hasInserted_of_hasAnnounced {stage : ProducerStage}
    (announced : stage.hasAnnounced = true) :
    stage.hasInserted = true := by
  cases stage <;> simp_all [hasAnnounced, hasInserted]

theorem inserted_add_restored_le (stage : ProducerStage) :
    stage.hasInserted.toNat + stage.hasRestored.toNat ≤ stage.hasSlot.toNat := by
  cases stage <;> simp [hasInserted, hasRestored, hasSlot]

end ProducerStage

namespace Consumer

variable {α : Type}

theorem hasRemoved_of_hasFreed {consumer : Consumer α} (freed : consumer.hasFreed = true) :
    consumer.hasRemoved = true := by
  cases consumer <;> simp_all [hasFreed, hasRemoved]

theorem removed_add_holding_le (consumer : Consumer α) :
    consumer.hasRemoved.toNat + consumer.isHolding.toNat ≤ consumer.hasItem.toNat := by
  cases consumer <;> simp [hasRemoved, isHolding, hasItem]

end Consumer

section Log

variable {α : Type} {producers : Parties (Producer α)} {put : List (PartyId × α)} {id : PartyId}
  {producer producer' : Producer α}

/-- The record of what has been put in: one entry for each producer whose critical section
has run. -/
structure Logged (producers : Parties (Producer α)) (put : List (PartyId × α)) : Prop where
  length : put.length = producers.count fun producer => producer.stage.hasInserted
  entries : ∀ entry ∈ put, ∃ producer, producers.get entry.1 = some producer ∧
    producer.value = entry.2 ∧ producer.stage.hasInserted = true
  nodup : (put.map Prod.fst).Nodup

namespace Logged

section

variable (logged : Logged producers put) (found : producers.get id = some producer)
include logged found

theorem set (value : producer'.value = producer.value)
    (same : producer'.stage.hasInserted = producer.stage.hasInserted) :
    Logged (producers.set id producer') put := by
  refine ⟨logged.length.trans (Parties.count_set_of_eq found same).symm, ?_, logged.nodup⟩
  intro entry member
  rcases logged.entries entry member with ⟨known, there, value_eq, inserted⟩
  by_cases here : id = entry.1
  · subst here
    cases found.symm.trans there
    exact ⟨producer', Parties.get_set_self found producer', value.trans value_eq,
      same.trans inserted⟩
  · exact ⟨known, (Parties.get_set_of_ne here producer').trans there, value_eq, inserted⟩

theorem not_mem_of_not_inserted (absent : producer.stage.hasInserted = false) :
    id ∉ put.map Prod.fst := by
  intro member
  rcases List.mem_map.mp member with ⟨entry, inside, rfl⟩
  rcases logged.entries entry inside with ⟨_, there, -, inserted⟩
  cases found.symm.trans there
  rw [absent] at inserted
  cases inserted

theorem insert (absent : producer.stage.hasInserted = false)
    (inserted : producer'.stage.hasInserted = true) :
    Logged (producers.set id producer') (put ++ [(id, producer'.value)]) := by
  have fresh := logged.not_mem_of_not_inserted found absent
  refine ⟨?_, ?_, ?_⟩
  · rw [List.length_append, logged.length]
    exact (Parties.count_set_of_new found absent inserted).symm
  · intro entry member
    rcases List.mem_append.mp member with old | new
    · have different : id ≠ entry.1 := fun same =>
        fresh (same ▸ List.mem_map_of_mem old)
      rcases logged.entries entry old with ⟨known, there, rest⟩
      exact ⟨known, (Parties.get_set_of_ne different producer').trans there, rest⟩
    · rw [List.mem_singleton.mp new]
      exact ⟨producer', Parties.get_set_self found producer', rfl, inserted⟩
  · rw [List.map_append]
    exact logged.nodup.append (List.nodup_singleton id) (List.disjoint_singleton.mpr fresh)

end

theorem addWaiting (logged : Logged producers put) (absent : producer.stage.hasInserted = false) :
    Logged (producers.addWaiting producer) put := by
  refine ⟨?_, ?_, logged.nodup⟩
  · rw [Parties.count_addWaiting, absent]
    exact logged.length
  · intro entry member
    rcases logged.entries entry member with ⟨known, there, rest⟩
    exact ⟨known, Parties.get_addWaiting there producer, rest⟩

theorem addImmediate (logged : Logged producers put)
    (absent : producer.stage.hasInserted = false) :
    Logged (producers.addImmediate producer) put := by
  refine ⟨?_, ?_, logged.nodup⟩
  · rw [Parties.count_addImmediate, absent]
    exact logged.length
  · intro entry member
    rcases logged.entries entry member with ⟨known, there, rest⟩
    exact ⟨known, Parties.get_addImmediate there producer, rest⟩

end Logged

end Log

namespace AsyncQueue

variable {α : Type} {capacity : ℕ} {queue next : AsyncQueue α}

/-- The slots of a bounded queue are with the producers that have one, or are given back by
a producer that has failed or by a consumer. -/
structure Bounded (capacity : ℕ) (slots : AsyncSemaphore) (producers : Parties (Producer α))
    (consumers : Parties (Consumer α)) : Prop where
  sound : slots.Sound semaphorePermits capacity
  linked : producers.Linked (fun producer => producer.stage.hasSlot) slots
  released : slots.released ≤ consumers.count Consumer.hasFreed +
    producers.count fun producer => producer.stage.hasRestored

structure Sound (queue : AsyncQueue α) (capacity : ℕ) : Prop where
  items : queue.items.Sound semaphorePermits 0
  linked : queue.consumers.Linked Consumer.hasItem queue.items
  released : queue.items.released ≤
    queue.producers.count fun producer => producer.stage.hasAnnounced
  logged : Logged queue.producers queue.put
  removed : queue.taken.length = queue.consumers.count Consumer.hasRemoved
  fifo : queue.put.map Prod.snd = queue.taken ++ queue.queue
  stocked : queue.consumers.count Consumer.isUnderflow = 0
  bounded : ∀ {slots : AsyncSemaphore}, queue.slots = some slots →
    Bounded capacity slots queue.producers queue.consumers

theorem Sound.queue_length (sound : queue.Sound capacity) :
    queue.put.length = queue.taken.length + queue.queue.length := by
  have lengths := congrArg List.length sound.fifo
  simpa using lengths

theorem Sound.queue_ne_nil {id : PartyId} (sound : queue.Sound capacity)
    (found : queue.consumers.get id = some .holding) : queue.queue ≠ [] := by
  intro empty
  have holding : 0 < queue.consumers.count Consumer.isHolding := Parties.count_pos found rfl
  have items : queue.consumers.count Consumer.hasRemoved +
      queue.consumers.count Consumer.isHolding ≤ queue.consumers.count Consumer.hasItem :=
    Parties.count_add_le Consumer.removed_add_holding_le
  have completed := sound.linked.count_le
  have permits := sound.items.free_add_le
  have announced := sound.released
  have inserted : (queue.producers.count fun producer => producer.stage.hasAnnounced) ≤
      queue.producers.count fun producer => producer.stage.hasInserted :=
    Parties.count_mono fun _ => ProducerStage.hasInserted_of_hasAnnounced
  have put := sound.logged.length
  have taken := sound.removed
  have lengths := sound.queue_length
  rw [empty, List.length_nil] at lengths
  omega

variable {event : Event} {slots : AsyncSemaphore}

theorem Sound.length_le (sound : queue.Sound capacity) (bounded : queue.slots = some slots) :
    queue.queue.length ≤ capacity := by
  have fits := sound.bounded bounded
  have holders : (queue.producers.count fun producer => producer.stage.hasInserted) +
      (queue.producers.count fun producer => producer.stage.hasRestored) ≤
      queue.producers.count fun producer => producer.stage.hasSlot :=
    Parties.count_add_le fun producer => producer.stage.inserted_add_restored_le
  have completed := fits.linked.count_le
  have permits := fits.sound.free_add_le
  have released := fits.released
  have freed : queue.consumers.count Consumer.hasFreed ≤
      queue.consumers.count Consumer.hasRemoved :=
    Parties.count_mono fun _ => Consumer.hasRemoved_of_hasFreed
  have put := sound.logged.length
  have taken := sound.removed
  have lengths := sound.queue_length
  omega

theorem new_sound (capacity : ℕ) : (new capacity : AsyncQueue α).Sound capacity where
  items := Lock.sound_new trivial
  linked := ⟨by simp [new], Nat.zero_le _⟩
  released := Nat.zero_le _
  logged := ⟨rfl, by simp [new], List.nodup_nil⟩
  removed := rfl
  fifo := rfl
  stocked := rfl
  bounded := by
    intro _ created
    simp only [new] at created
    split_ifs at created
    cases created
    exact ⟨Lock.sound_new trivial, ⟨by simp [new], Nat.zero_le _⟩, Nat.zero_le _⟩

variable {semaphore semaphore' : AsyncSemaphore}

theorem released_eq (other : ∀ count, event ≠ .release count)
    (taken : semaphore.step event = some semaphore') :
    semaphore'.released = semaphore.released := by
  rcases (Lock.counters_step taken).2 with same | ⟨count, here, -⟩
  · exact same
  · exact absurd here (other count)

theorem released_le {count : ℕ} (taken : semaphore.step (.release count) = some semaphore') :
    semaphore'.released ≤ semaphore.released + count := by
  rcases (Lock.counters_step taken).2 with _ | ⟨_, here, _⟩
  · omega
  · cases here
    omega

theorem Sound.itemsStep {items : AsyncSemaphore} (sound : queue.Sound capacity)
    (other : ∀ count, event ≠ .release count) (taken : queue.items.step event = some items) :
    ({ queue with items := items } : AsyncQueue α).Sound capacity :=
  { sound with
    items := sound.items.step taken
    linked := sound.linked.step taken
    released := (released_eq other taken).trans_le sound.released }

theorem Bounded.step {slots' : AsyncSemaphore} {producers : Parties (Producer α)}
    {consumers : Parties (Consumer α)} (bounded : Bounded capacity slots producers consumers)
    (other : ∀ count, event ≠ .release count) (taken : slots.step event = some slots') :
    Bounded capacity slots' producers consumers :=
  ⟨bounded.sound.step taken, bounded.linked.step taken,
    (released_eq other taken).trans_le bounded.released⟩

section

variable (sound : queue.Sound capacity)
include sound

theorem Sound.slotsStep {slots' : AsyncSemaphore} (bounded : queue.slots = some slots)
    (other : ∀ count, event ≠ .release count) (taken : slots.step event = some slots') :
    ({ queue with slots := some slots' } : AsyncQueue α).Sound capacity := by
  refine { sound with bounded := ?_ }
  intro _ same
  cases same
  exact (sound.bounded bounded).step other taken

variable {producer : Producer α} {value : α}

theorem Sound.addImmediate (holding : producer.stage = .holding)
    (room : ∀ slots, queue.slots = some slots → queue.producers.immediate.length < slots.tried) :
    ({ queue with producers := queue.producers.addImmediate producer } :
      AsyncQueue α).Sound capacity :=
  { sound with
    released := by
      rw [Parties.count_addImmediate, holding]
      exact sound.released
    logged := sound.logged.addImmediate (by rw [holding]; rfl)
    bounded := by
      intro slots bounded
      have fits := sound.bounded bounded
      refine ⟨fits.sound, fits.linked.addImmediate (room slots bounded) producer, ?_⟩
      rw [Parties.count_addImmediate, holding]
      exact fits.released }

theorem Sound.addWaiting (acquiring : producer.stage = .acquiring) :
    ({ queue with producers := queue.producers.addWaiting producer } :
      AsyncQueue α).Sound capacity :=
  { sound with
    released := by
      rw [Parties.count_addWaiting, acquiring]
      exact sound.released
    logged := sound.logged.addWaiting (by rw [acquiring]; rfl)
    bounded := by
      intro _ bounded
      have fits := sound.bounded bounded
      refine ⟨fits.sound, fits.linked.addWaiting (by rw [acquiring]; rfl), ?_⟩
      rw [Parties.count_addWaiting, acquiring]
      exact fits.released }

theorem Sound.push {hasSlot : Bool} (taken : queue.push value hasSlot = some next) :
    next.Sound capacity := by
  rw [AsyncQueue.push] at taken
  split at taken
  next unbounded =>
    cases taken
    apply sound.addImmediate rfl
    intro slots bounded
    cases unbounded.symm.trans bounded
  next slots bounded =>
    rcases Option.bind_eq_some_iff.mp taken with ⟨_, called, rest⟩
    cases rest
    exact (sound.slotsStep bounded (by simp) called).addWaiting rfl

theorem Sound.tryPush (taken : queue.tryPush value = some next) : next.Sound capacity := by
  rw [AsyncQueue.tryPush] at taken
  split at taken
  next unbounded =>
    cases taken
    apply sound.addImmediate rfl
    intro slots bounded
    cases unbounded.symm.trans bounded
  next slots bounded =>
    rcases Option.bind_eq_some_iff.mp taken with ⟨_, tried, rest⟩
    have later := sound.slotsStep bounded (by simp) tried
    split_ifs at rest with same
    · cases rest
      exact later
    · cases rest
      apply later.addImmediate rfl
      intro _ here
      cases here
      have fewer := (sound.bounded bounded).linked.immediate
      have more := Lock.tried_le_step tried
      simp only
      omega

end

section Producers

variable {id : PartyId} {producer : Producer α} {stage : ProducerStage}

variable (sound : queue.Sound capacity)
include sound

theorem Sound.setProducer (inserted : stage.hasInserted = producer.stage.hasInserted)
    (announced : stage.hasAnnounced = producer.stage.hasAnnounced)
    (restored : stage.hasRestored = producer.stage.hasRestored)
    (found : queue.producers.get id = some producer)
    (linked : ∀ slots, queue.slots = some slots →
      (queue.producers.set id { producer with stage := stage }).Linked
        (fun producer => producer.stage.hasSlot) slots) :
    (queue.setProducer id { producer with stage := stage }).Sound capacity :=
  { sound with
    released := (sound.released).trans_eq (Parties.count_set_of_eq found announced).symm
    logged := sound.logged.set found rfl inserted
    bounded := by
      intro slots bounded
      have fits := sound.bounded bounded
      refine ⟨fits.sound, linked slots bounded, ?_⟩
      simp only [AsyncQueue.setProducer]
      rw [Parties.count_set_of_eq found restored]
      exact fits.released }

theorem Sound.slotAcquired {index : ℕ} (taken : queue.slotAcquired index = some next) :
    next.Sound capacity := by
  rcases Option.bind_eq_some_iff.mp taken with ⟨_, found, rest⟩
  rcases Option.bind_eq_some_iff.mp rest with ⟨_, bounded, rest⟩
  rcases Option.bind_eq_some_iff.mp rest with ⟨_, called, rest⟩
  have linked := (sound.bounded bounded).linked
  split at rest
  next acquiring returned =>
    cases rest
    apply sound.setProducer _ _ _ found
    · intro _ here
      cases bounded.symm.trans here
      exact linked.set_waiting called (by rw [Call.isReturned, returned]; rfl)
    all_goals rw [acquiring]; rfl
  next acquiring _ =>
    cases rest
    apply sound.setProducer _ _ _ found
    · intro _ here
      cases bounded.symm.trans here
      apply linked.set found
      intro impossible
      cases impossible
    all_goals rw [acquiring]; rfl
  · cases rest

theorem Sound.pushBack {fails : Bool} (taken : queue.pushBack id fails = some next) :
    next.Sound capacity := by
  rcases Option.bind_eq_some_iff.mp taken with ⟨_, found, rest⟩
  split at rest
  next holding =>
    split_ifs at rest
    · cases rest
      apply sound.setProducer _ _ _ found
      · intro _ bounded
        apply (sound.bounded bounded).linked.set found
        intro _
        rw [holding]
        rfl
      all_goals rw [holding]; rfl
    · cases rest
      refine { sound with released := ?_, logged := ?_, fifo := ?_, bounded := ?_ }
      · apply sound.released.trans_eq
        exact (Parties.count_set_of_eq found (by rw [holding]; rfl)).symm
      · exact sound.logged.insert found (by rw [holding]; rfl) rfl
      · simp only [AsyncQueue.setProducer]
        rw [List.map_append, sound.fifo, List.append_assoc]
        rfl
      · intro _ bounded
        have fits := sound.bounded bounded
        refine ⟨fits.sound, fits.linked.set found fun _ => by rw [holding]; rfl, ?_⟩
        simp only [AsyncQueue.setProducer]
        rw [Parties.count_set_of_eq found (by rw [holding]; rfl)]
        exact fits.released
  · cases rest

theorem Sound.restoreSlot (taken : queue.restoreSlot id = some next) : next.Sound capacity := by
  rcases Option.bind_eq_some_iff.mp taken with ⟨_, found, rest⟩
  split at rest
  next restoring unbounded =>
    cases rest
    refine { sound with released := ?_, logged := ?_, bounded := ?_ }
    · apply sound.released.trans_eq
      exact (Parties.count_set_of_eq found (by rw [restoring]; rfl)).symm
    · exact sound.logged.set found rfl (by rw [restoring]; rfl)
    · intro slots bounded
      cases unbounded.symm.trans bounded
  next slots restoring bounded =>
    rcases Option.bind_eq_some_iff.mp rest with ⟨_, released, rest⟩
    cases rest
    have fits := sound.bounded bounded
    refine { sound with released := ?_, logged := ?_, bounded := ?_ }
    · apply sound.released.trans_eq
      exact (Parties.count_set_of_eq found (by rw [restoring]; rfl)).symm
    · exact sound.logged.set found rfl (by rw [restoring]; rfl)
    · intro _ same
      cases same
      refine ⟨fits.sound.step released, ?_, ?_⟩
      · exact (fits.linked.set found fun _ => by rw [restoring]; rfl).step released
      · have most := released_le released
        have before := fits.released
        simp only [AsyncQueue.setProducer]
        rw [Parties.count_set_of_new found (by rw [restoring]; rfl) rfl]
        omega
  · cases rest

theorem Sound.releaseItem (taken : queue.releaseItem id = some next) : next.Sound capacity := by
  rcases Option.bind_eq_some_iff.mp taken with ⟨_, found, rest⟩
  split at rest
  next inserted =>
    rcases Option.bind_eq_some_iff.mp rest with ⟨items, released, rest⟩
    cases rest
    refine { sound with items := ?_, linked := ?_, released := ?_, logged := ?_, bounded := ?_ }
    · exact sound.items.step released
    · exact sound.linked.step released
    · have most := released_le released
      have before := sound.released
      simp only [AsyncQueue.setProducer]
      split_ifs with same
      · rw [Parties.count_set_of_eq found (by rw [inserted]; rfl)]
        omega
      · rw [Parties.count_set_of_new found (by rw [inserted]; rfl) rfl]
        omega
    · exact sound.logged.set found rfl (by rw [inserted]; split_ifs <;> rfl)
    · intro _ bounded
      have fits := sound.bounded bounded
      refine ⟨fits.sound, fits.linked.set found fun _ => by rw [inserted]; rfl, ?_⟩
      simp only [AsyncQueue.setProducer]
      rw [Parties.count_set_of_eq found (by rw [inserted]; split_ifs <;> rfl)]
      exact fits.released
  · cases rest

end Producers

section Consumers

variable {id : PartyId} {consumer consumer' : Consumer α}

variable (sound : queue.Sound capacity)
include sound

theorem Sound.setConsumer (removed : consumer'.hasRemoved = consumer.hasRemoved)
    (freed : consumer'.hasFreed = consumer.hasFreed)
    (underflow : consumer'.isUnderflow = consumer.isUnderflow)
    (found : queue.consumers.get id = some consumer)
    (linked : (queue.consumers.set id consumer').Linked Consumer.hasItem queue.items) :
    (queue.setConsumer id consumer').Sound capacity :=
  { sound with
    linked := linked
    removed := sound.removed.trans (Parties.count_set_of_eq found removed).symm
    stocked := (Parties.count_set_of_eq found underflow).trans sound.stocked
    bounded := by
      intro _ bounded
      have fits := sound.bounded bounded
      refine ⟨fits.sound, fits.linked, ?_⟩
      simp only [AsyncQueue.setConsumer]
      rw [Parties.count_set_of_eq found freed]
      exact fits.released }

theorem Sound.pop {hasSlot : Bool} (taken : queue.pop hasSlot = some next) :
    next.Sound capacity := by
  rw [AsyncQueue.pop] at taken
  rcases Option.bind_eq_some_iff.mp taken with ⟨_, called, rest⟩
  cases rest
  have later := sound.itemsStep (by simp) called
  refine { later with linked := ?_, removed := ?_, stocked := ?_, bounded := ?_ }
  · exact later.linked.addWaiting rfl
  · rw [Parties.count_addWaiting]
    exact sound.removed
  · rw [Parties.count_addWaiting]
    exact sound.stocked
  · intro _ bounded
    have fits := sound.bounded bounded
    refine ⟨fits.sound, fits.linked, ?_⟩
    rw [Parties.count_addWaiting]
    exact fits.released

theorem Sound.tryPop (taken : queue.tryPop = some next) : next.Sound capacity := by
  rw [AsyncQueue.tryPop] at taken
  rcases Option.bind_eq_some_iff.mp taken with ⟨_, tried, rest⟩
  have later := sound.itemsStep (by simp) tried
  split_ifs at rest with same
  · cases rest
    exact later
  · cases rest
    refine { later with linked := ?_, removed := ?_, stocked := ?_, bounded := ?_ }
    · apply later.linked.addImmediate
      have fewer := sound.linked.immediate
      have more := Lock.tried_le_step tried
      simp only
      omega
    · rw [Parties.count_addImmediate]
      exact sound.removed
    · rw [Parties.count_addImmediate]
      exact sound.stocked
    · intro _ bounded
      have fits := sound.bounded bounded
      refine ⟨fits.sound, fits.linked, ?_⟩
      rw [Parties.count_addImmediate]
      exact fits.released

theorem Sound.itemAcquired {index : ℕ} (taken : queue.itemAcquired index = some next) :
    next.Sound capacity := by
  rcases Option.bind_eq_some_iff.mp taken with ⟨_, found, acquired⟩
  rcases Option.bind_eq_some_iff.mp acquired with ⟨_, called, rest⟩
  split at rest
  next returned =>
    cases rest
    refine sound.setConsumer (by rfl) (by rfl) (by rfl) found ?_
    exact sound.linked.set_waiting called (by rw [Call.isReturned, returned]; rfl)
  · cases rest
    refine sound.setConsumer (by rfl) (by rfl) (by rfl) found ?_
    apply sound.linked.set found
    intro impossible
    cases impossible
  · cases rest

theorem Sound.popFront (taken : queue.popFront id = some next) : next.Sound capacity := by
  rcases Option.bind_eq_some_iff.mp taken with ⟨_, found, rest⟩
  split at rest
  next empty => exact absurd empty (sound.queue_ne_nil found)
  next value elements nonempty =>
    cases rest
    refine { sound with linked := ?_, removed := ?_, fifo := ?_, stocked := ?_, bounded := ?_ }
    · exact sound.linked.set found fun _ => rfl
    · rw [List.length_append, sound.removed]
      exact (Parties.count_set_of_new found rfl (by rfl)).symm
    · rw [List.append_assoc, List.singleton_append, ← nonempty]
      exact sound.fifo
    · exact (Parties.count_set_of_eq found (by rfl)).trans sound.stocked
    · intro _ bounded
      have fits := sound.bounded bounded
      refine ⟨fits.sound, fits.linked, ?_⟩
      simp only [AsyncQueue.setConsumer]
      rw [Parties.count_set_of_eq found (by rfl)]
      exact fits.released
  · cases rest

theorem Sound.releaseSlot (taken : queue.releaseSlot id = some next) : next.Sound capacity := by
  rcases Option.bind_eq_some_iff.mp taken with ⟨_, found, rest⟩
  split at rest
  next value unbounded =>
    cases rest
    refine { sound with linked := ?_, removed := ?_, stocked := ?_, bounded := ?_ }
    · exact sound.linked.set found fun _ => rfl
    · exact sound.removed.trans (Parties.count_set_of_eq found (by rfl)).symm
    · exact (Parties.count_set_of_eq found (by rfl)).trans sound.stocked
    · intro slots bounded
      cases unbounded.symm.trans bounded
  next value slots bounded =>
    rcases Option.bind_eq_some_iff.mp rest with ⟨_, released, rest⟩
    cases rest
    have fits := sound.bounded bounded
    refine { sound with linked := ?_, removed := ?_, stocked := ?_, bounded := ?_ }
    · exact sound.linked.set found fun _ => rfl
    · exact sound.removed.trans (Parties.count_set_of_eq found (by split_ifs <;> rfl)).symm
    · exact (Parties.count_set_of_eq found (by split_ifs <;> rfl)).trans sound.stocked
    · intro _ same
      cases same
      refine ⟨fits.sound.step released, fits.linked.step released, ?_⟩
      have most := released_le released
      have before := fits.released
      simp only [AsyncQueue.setConsumer]
      split_ifs with same
      · rw [Parties.count_set_of_eq found (by rfl)]
        omega
      · rw [Parties.count_set_of_new found rfl (by rfl)]
        omega
  · cases rest

end Consumers

theorem isInternal_ne_release {event : Event} {checked : Unit}
    (internal : guard event.isInternal = some checked) (count : ℕ) : event ≠ .release count := by
  rintro rfl
  cases internal

/-- Every event keeps the items, the slots and the order of the queue sound. -/
theorem Sound.step {event : QueueEvent α} (sound : queue.Sound capacity)
    (taken : queue.step event = some next) : next.Sound capacity := by
  cases event with
  | push _ _ => exact sound.push taken
  | tryPush _ => exact sound.tryPush taken
  | slotAcquired _ => exact sound.slotAcquired taken
  | pushBack _ _ => exact sound.pushBack taken
  | restoreSlot _ => exact sound.restoreSlot taken
  | releaseItem _ => exact sound.releaseItem taken
  | pop _ => exact sound.pop taken
  | tryPop => exact sound.tryPop taken
  | itemAcquired _ => exact sound.itemAcquired taken
  | popFront _ => exact sound.popFront taken
  | releaseSlot _ => exact sound.releaseSlot taken
  | items _ =>
      rcases Option.bind_eq_some_iff.mp taken with ⟨_, internal, rest⟩
      rcases Option.bind_eq_some_iff.mp rest with ⟨_, stepped, rest⟩
      cases rest
      exact sound.itemsStep (isInternal_ne_release internal) stepped
  | slots _ =>
      rcases Option.bind_eq_some_iff.mp taken with ⟨_, internal, rest⟩
      rcases Option.bind_eq_some_iff.mp rest with ⟨_, bounded, rest⟩
      rcases Option.bind_eq_some_iff.mp rest with ⟨_, stepped, rest⟩
      cases rest
      exact sound.slotsStep bounded (isInternal_ne_release internal) stepped

def anyEvent (_ : AsyncQueue α) (_ : QueueEvent α) : Prop :=
  True

end AsyncQueue

/-- In every run the queue holds no more than its capacity and never underflows; values are taken
in the order in which they were put, each once, and none of a producer that was refused. -/
theorem queue_is_bounded_fifo {α : Type} (capacity : ℕ) (queue : AsyncQueue α)
    (reached : Reached AsyncQueue.step AsyncQueue.anyEvent (.new capacity) queue) :
    (queue.bounded = true → queue.queue.length ≤ capacity) ∧
      (∀ id, queue.consumers.get id ≠ some .underflow) ∧
      queue.taken <+: queue.put.map Prod.snd ∧
      (queue.put.map Prod.fst).Nodup ∧
      (∀ entry ∈ queue.put, ∃ producer, queue.producers.get entry.1 = some producer ∧
        producer.value = entry.2) ∧
      (∀ id producer error, queue.producers.get id = some producer →
        producer.stage = .refused error → id ∉ queue.put.map Prod.fst) := by
  have sound : queue.Sound capacity := by
    apply reached.invariant
    · exact AsyncQueue.new_sound capacity
    · intro _ _ _ sound _ taken
      exact sound.step taken
  refine ⟨?_, ?_, ?_, sound.logged.nodup, ?_, ?_⟩
  · intro bounded
    rcases Option.isSome_iff_exists.mp bounded with ⟨_, present⟩
    exact sound.length_le present
  · intro _ found
    have counted := Parties.count_pos found (p := Consumer.isUnderflow) rfl
    rw [sound.stocked] at counted
    exact absurd counted (Nat.lt_irrefl 0)
  · rw [sound.fifo]
    exact List.prefix_append _ _
  · intro entry member
    rcases sound.logged.entries entry member with ⟨producer, found, value, -⟩
    exact ⟨producer, found, value⟩
  · intro _ _ _ found refused
    exact sound.logged.not_mem_of_not_inserted found (by rw [refused]; rfl)

/-- A queue of one slot: a push, a push that waits and is cancelled, a pop, a try_push. -/
def oneSlotRun : List (QueueEvent ℕ) :=
  [.push 10 true, .slots (.awaitReady 0), .slots (.awaitResume 0), .slotAcquired 0,
    .pushBack (.waiting 0) false, .releaseItem (.waiting 0), .items .finishRelease,
    .push 20 true, .slots (.awaitReady 1), .slots (.tryEmplace 1), .slots (.enqueue 1),
    .slots (.signal 1), .slots (.handle 1), .slots (.cancelMark 1), .slots (.cancelRemove 1),
    .slots (.awaitResume 1), .slotAcquired 1,
    .pop false, .items (.awaitReady 0), .items (.awaitResume 0), .itemAcquired 0,
    .popFront (.waiting 0), .releaseSlot (.waiting 0), .slots .finishRelease,
    .tryPush 30, .pushBack (.immediate 0) false, .releaseItem (.immediate 0)]

theorem queue_is_bounded_fifo_one_slot :
    ∃ queue : AsyncQueue ℕ,
      follow AsyncQueue.step (fun _ _ => True) (.new 1) oneSlotRun = some queue ∧
      queue.put = [(.waiting 0, 10), (.immediate 0, 30)] ∧ queue.taken = [10] ∧
      (queue.producers.get (.waiting 1)).map (fun producer => producer.stage.hasSlot) =
        some false ∧
      queue.queue.length ≤ 1 ∧ queue.taken <+: queue.put.map Prod.snd := by
  have followed : (follow AsyncQueue.step (fun _ _ => True) (.new 1) oneSlotRun).map
      (fun queue : AsyncQueue ℕ => (queue.put, queue.taken,
        (queue.producers.get (.waiting 1)).map (fun producer => producer.stage.hasSlot),
        queue.bounded)) =
        some ([(.waiting 0, 10), (.immediate 0, 30)], [10], some false, true) := by
    decide +kernel
  rcases exists_of_follow followed with ⟨queue, ran, reached, seen⟩
  simp only [Prod.mk.injEq] at seen
  rcases seen with ⟨put, taken, refused, bounded⟩
  have holds := queue_is_bounded_fifo 1 queue reached
  exact ⟨queue, ran, put, taken, refused, holds.1 bounded, holds.2.2.1⟩

end Corouv.Sync
