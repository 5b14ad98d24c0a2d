import Corouv.Sync.Semaphore

/-!
# AsyncQueue

A queue holds its elements, a semaphore that counts them and, when it is bounded, one that
counts the free slots.  An operation takes its permit from one semaphore, changes the
elements in a critical section of its own and gives a permit to the other semaphore; any
other step may come between these.

The steps of the two semaphores are those of `AsyncSemaphore`, with every signal and every
destroyed coroutine.  Their calls, tries and releases are made by the operations only.
-/

namespace Corouv.Sync

open Library

/-- The operations of one kind on a queue.  Operation `i` of those that wait makes the call
with index `i` of the semaphore; the others do not wait for their permit. -/
structure Parties (π : Type) where
  waiting : List π := []
  immediate : List π := []

inductive PartyId
  | waiting (index : ℕ)
  | immediate (index : ℕ)
  deriving DecidableEq, Repr

namespace Parties

variable {π : Type}

def get (parties : Parties π) : PartyId → Option π
  | .waiting index => parties.waiting[index]?
  | .immediate index => parties.immediate[index]?

def set (parties : Parties π) (id : PartyId) (party : π) : Parties π :=
  match id with
  | .waiting index => { parties with waiting := parties.waiting.set index party }
  | .immediate index => { parties with immediate := parties.immediate.set index party }

def addWaiting (parties : Parties π) (party : π) : Parties π :=
  { parties with waiting := parties.waiting ++ [party] }

def addImmediate (parties : Parties π) (party : π) : Parties π :=
  { parties with immediate := parties.immediate ++ [party] }

def count (parties : Parties π) (p : π → Bool) : ℕ :=
  parties.waiting.countP p + parties.immediate.countP p

end Parties

/-- How far a `push` or `try_push` has come. -/
inductive ProducerStage
  /-- At `co_await _slots->acquire()`. -/
  | acquiring
  /-- The acquisition has thrown. -/
  | refused (error : Exn)
  /-- Before the critical section. -/
  | holding
  /-- `push_back` has thrown. -/
  | restoring
  /-- The slot has been given back and the exception thrown again. -/
  | aborted
  /-- The element is in the queue and `_items.release()` is to come. -/
  | inserted
  | finished
  /-- `_items.release()` has thrown. -/
  | overflowed
  deriving DecidableEq, Repr

namespace ProducerStage

def hasSlot : ProducerStage → Bool
  | .acquiring | .refused _ => false
  | _ => true

def hasInserted : ProducerStage → Bool
  | .inserted | .finished | .overflowed => true
  | _ => false

def hasAnnounced : ProducerStage → Bool
  | .finished => true
  | _ => false

def hasRestored : ProducerStage → Bool
  | .aborted => true
  | _ => false

end ProducerStage

structure Producer (α : Type) where
  value : α
  stage : ProducerStage

/-- How far a `pop` or `try_pop` has come. -/
inductive Consumer (α : Type)
  /-- At `co_await _items.acquire()`. -/
  | acquiring
  /-- The acquisition has thrown. -/
  | refused (error : Exn)
  /-- Before the critical section. -/
  | holding
  /-- The critical section has found no element. -/
  | underflow
  /-- The element is out of the queue and `_slots->release()` is to come. -/
  | removed (value : α)
  | finished (value : α)
  /-- `_slots->release()` has thrown. -/
  | overflowed (value : α)
  deriving Repr

namespace Consumer

variable {α : Type}

def hasItem : Consumer α → Bool
  | .acquiring | .refused _ => false
  | _ => true

def isHolding : Consumer α → Bool
  | .holding => true
  | _ => false

def isUnderflow : Consumer α → Bool
  | .underflow => true
  | _ => false

def hasRemoved : Consumer α → Bool
  | .removed _ | .finished _ | .overflowed _ => true
  | _ => false

def hasFreed : Consumer α → Bool
  | .finished _ => true
  | _ => false

end Consumer

/-- The members of a queue and its operations.  `put` and `taken` record the elements in the
order of the critical sections that have put them in and taken them out. -/
structure AsyncQueue (α : Type) where
  items : AsyncSemaphore := .new 0
  slots : Option AsyncSemaphore
  queue : List α := []
  producers : Parties (Producer α) := {}
  consumers : Parties (Consumer α) := {}
  put : List (PartyId × α) := []
  taken : List α := []

inductive QueueEvent (α : Type)
  | push (value : α) (hasSlot : Bool)
  | tryPush (value : α)
  /-- The acquisition of a `push` has ended. -/
  | slotAcquired (index : ℕ)
  /-- The critical section of a producer. -/
  | pushBack (id : PartyId) (fails : Bool)
  | restoreSlot (id : PartyId)
  | releaseItem (id : PartyId)
  | pop (hasSlot : Bool)
  | tryPop
  /-- The acquisition of a `pop` has ended. -/
  | itemAcquired (index : ℕ)
  /-- The critical section of a consumer. -/
  | popFront (id : PartyId)
  | releaseSlot (id : PartyId)
  | items (event : Event)
  | slots (event : Event)

/-- The steps of a semaphore that are not the start of an operation on it. -/
def Event.isInternal : Event → Bool
  | .call _ | .tryTake | .release _ => false
  | _ => true

namespace AsyncQueue

variable {α : Type}

def kUnbounded : ℕ :=
  2 ^ 64 - 1

def new (capacity : ℕ) : AsyncQueue α :=
  { slots := if capacity = kUnbounded then none else some (.new capacity) }

def bounded (queue : AsyncQueue α) : Bool :=
  queue.slots.isSome

def setProducer (queue : AsyncQueue α) (id : PartyId) (producer : Producer α) : AsyncQueue α :=
  { queue with producers := queue.producers.set id producer }

def setConsumer (queue : AsyncQueue α) (id : PartyId) (consumer : Consumer α) : AsyncQueue α :=
  { queue with consumers := queue.consumers.set id consumer }

def push (queue : AsyncQueue α) (value : α) (hasSlot : Bool) : Option (AsyncQueue α) :=
  match queue.slots with
  | none =>
      some { queue with producers := queue.producers.addImmediate ⟨value, .holding⟩ }
  | some slots => do
      let slots ← slots.step (.call hasSlot)
      some { queue with
        slots := some slots, producers := queue.producers.addWaiting ⟨value, .acquiring⟩ }

def tryPush (queue : AsyncQueue α) (value : α) : Option (AsyncQueue α) :=
  match queue.slots with
  | none =>
      some { queue with producers := queue.producers.addImmediate ⟨value, .holding⟩ }
  | some slots => do
      let slots' ← slots.step .tryTake
      if slots'.tried = slots.tried then
        some { queue with slots := some slots' }
      else
        some { queue with
          slots := some slots', producers := queue.producers.addImmediate ⟨value, .holding⟩ }

def slotAcquired (queue : AsyncQueue α) (index : ℕ) : Option (AsyncQueue α) := do
  let producer ← queue.producers.get (.waiting index)
  let slots ← queue.slots
  let call ← slots.calls[index]?
  match producer.stage, call.phase with
  | .acquiring, .returned =>
      some (queue.setProducer (.waiting index) { producer with stage := .holding })
  | .acquiring, .threw _ error =>
      some (queue.setProducer (.waiting index) { producer with stage := .refused error })
  | _, _ => none

def pushBack (queue : AsyncQueue α) (id : PartyId) (fails : Bool) : Option (AsyncQueue α) := do
  let producer ← queue.producers.get id
  match producer.stage with
  | .holding =>
      if fails then
        some (queue.setProducer id { producer with stage := .restoring })
      else
        some { queue.setProducer id { producer with stage := .inserted } with
          queue := queue.queue ++ [producer.value]
          put := queue.put ++ [(id, producer.value)] }
  | _ => none

def restoreSlot (queue : AsyncQueue α) (id : PartyId) : Option (AsyncQueue α) := do
  let producer ← queue.producers.get id
  match producer.stage, queue.slots with
  | .restoring, none => some (queue.setProducer id { producer with stage := .aborted })
  | .restoring, some slots => do
      let slots ← slots.step (.release 1)
      some { queue.setProducer id { producer with stage := .aborted } with slots := some slots }
  | _, _ => none

def releaseItem (queue : AsyncQueue α) (id : PartyId) : Option (AsyncQueue α) := do
  let producer ← queue.producers.get id
  match producer.stage with
  | .inserted => do
      let items ← queue.items.step (.release 1)
      let stage : ProducerStage :=
        if items.released = queue.items.released then .overflowed else .finished
      some { queue.setProducer id { producer with stage := stage } with items := items }
  | _ => none

def pop (queue : AsyncQueue α) (hasSlot : Bool) : Option (AsyncQueue α) := do
  let items ← queue.items.step (.call hasSlot)
  some { queue with items := items, consumers := queue.consumers.addWaiting .acquiring }

def tryPop (queue : AsyncQueue α) : Option (AsyncQueue α) := do
  let items ← queue.items.step .tryTake
  if items.tried = queue.items.tried then
    some { queue with items := items }
  else
    some { queue with items := items, consumers := queue.consumers.addImmediate .holding }

def itemAcquired (queue : AsyncQueue α) (index : ℕ) : Option (AsyncQueue α) := do
  let consumer ← queue.consumers.get (.waiting index)
  let call ← queue.items.calls[index]?
  match consumer, call.phase with
  | .acquiring, .returned => some (queue.setConsumer (.waiting index) .holding)
  | .acquiring, .threw _ error => some (queue.setConsumer (.waiting index) (.refused error))
  | _, _ => none

-- After an underflow the code gives the permit back and throws, or returns without an
-- element; the branch is never reached, and nothing follows it here.
def popFront (queue : AsyncQueue α) (id : PartyId) : Option (AsyncQueue α) := do
  let consumer ← queue.consumers.get id
  match consumer, queue.queue with
  | .holding, [] => some (queue.setConsumer id .underflow)
  | .holding, value :: rest =>
      some { queue.setConsumer id (.removed value) with
        queue := rest, taken := queue.taken ++ [value] }
  | _, _ => none

def releaseSlot (queue : AsyncQueue α) (id : PartyId) : Option (AsyncQueue α) := do
  let consumer ← queue.consumers.get id
  match consumer, queue.slots with
  | .removed value, none => some (queue.setConsumer id (.finished value))
  | .removed value, some slots => do
      let slots' ← slots.step (.release 1)
      let consumer : Consumer α :=
        if slots'.released = slots.released then .overflowed value else .finished value
      some { queue.setConsumer id consumer with slots := some slots' }
  | _, _ => none

def step (queue : AsyncQueue α) : QueueEvent α → Option (AsyncQueue α)
  | .push value hasSlot => queue.push value hasSlot
  | .tryPush value => queue.tryPush value
  | .slotAcquired index => queue.slotAcquired index
  | .pushBack id fails => queue.pushBack id fails
  | .restoreSlot id => queue.restoreSlot id
  | .releaseItem id => queue.releaseItem id
  | .pop hasSlot => queue.pop hasSlot
  | .tryPop => queue.tryPop
  | .itemAcquired index => queue.itemAcquired index
  | .popFront id => queue.popFront id
  | .releaseSlot id => queue.releaseSlot id
  | .items event => do
      guard event.isInternal
      let items ← queue.items.step event
      some { queue with items := items }
  | .slots event => do
      guard event.isInternal
      let slots ← queue.slots
      let slots ← slots.step event
      some { queue with slots := some slots }

end AsyncQueue

end Corouv.Sync
