import Corouv.Base

/-!
# Files

`io::File`: the shared `State` of a file, and the coroutines that use it.  A coroutine runs
from one critical section or file system request to the next without giving way, and between
them anything may happen, so these are the steps of a run: the critical section a call begins
with, going on until a request is issued or the lease is given back, a request coming back,
and the critical section that gives the lease back.

The list of acts is not part of the program.  It records what a run does to the position and to
the descriptor, in order: seeks, the sequential operations with what they transfer, the requests
and the closing of the file.
-/

namespace Corouv.Io

/-- The members of `State` under its mutex; `none` is `invalid_file()`.  Offsets are below
`2 ^ 63`, where signed arithmetic is that of numbers. -/
structure FileState where
  file : Option ℕ
  offset : ℕ := 0
  inflight : ℕ := 0
  sequentialBusy : Bool := false
  closing : Bool := false
  deriving DecidableEq, Repr

structure Lease where
  file : Option ℕ
  offset : ℕ
  deriving DecidableEq, Repr

def toOffset (value : UInt64) (what : String) : Except Exn ℕ :=
  if value.toNat > 2 ^ 63 - 1 then
    throw (.logic ("corouv::io::File::" ++ what ++ " offset exceeds int64_t"))
  else pure value.toNat

namespace FileState

def ensureOpen (state : FileState) (op : String) : Except Exn Unit :=
  if state.file = none ∨ state.closing = true then
    throw (.logic ("corouv::io::File cannot " ++ op ++ " on a closed file"))
  else pure ()

def acquire (state : FileState) (sequential : Bool) (op : String) :
    Except Exn (Lease × FileState) := do
  state.ensureOpen op
  if sequential && state.sequentialBusy then
    throw (.logic ("corouv::io::File does not support concurrent " ++ op ++ " operations"))
  else
    pure (⟨state.file, state.offset⟩,
      { state with
        sequentialBusy := sequential || state.sequentialBusy
        inflight := state.inflight + 1 })

/-- `release`; the offset is replaced if there is a new one. -/
def release (state : FileState) (sequential : Bool) (newOffset : Option ℕ) : FileState :=
  { state with
    offset := newOffset.getD state.offset
    sequentialBusy := if sequential then false else state.sequentialBusy
    inflight := state.inflight - 1 }

def seek (state : FileState) (offset : UInt64) : Except Exn FileState := do
  let value ← toOffset offset "seek"
  state.ensureOpen "seek"
  if state.closing || state.sequentialBusy then
    throw (.logic "corouv::io::File::seek requires no sequential operation in flight")
  else pure { state with offset := value }

/-- The critical section `close` begins with; there may be nothing to close. -/
def beginClose (state : FileState) : Except Exn (Option FileState) :=
  if state.file = none then pure none
  else if state.closing then throw (.logic "corouv::io::File::close already in progress")
  else if state.inflight ≠ 0 ∨ state.sequentialBusy = true then
    throw (.logic "corouv::io::File::close requires no operations in flight")
  else pure (some { state with closing := true })

/-- The critical section `close` ends with. -/
def endClose (state : FileState) (succeeded : Bool) : FileState :=
  if succeeded then { state with file := none, offset := 0, closing := false }
  else { state with closing := false }

end FileState

/-- What libuv reports of a request, and the text `throw_uv_error` makes of it. -/
structure FsResult where
  result : ℤ
  message : String := ""
  deriving DecidableEq, Repr

/-- `await_resume` of the requests: the result is first taken for an `int`. -/
def FsResult.awaitResume (answer : FsResult) : Except Exn ℤ :=
  if answer.result.bmod (2 ^ 32) < 0 then throw (.runtime answer.message)
  else pure answer.result

inductive Operation where
  | stat
  | sync
  | datasync
  | readAt (offset : UInt64) (size : ℕ)
  | writeAt (offset : UInt64) (size : ℕ)
  | readSome (size : ℕ)
  | writeSome (size : ℕ)
  | writeAll (size : ℕ)
  | readUntilEof (maxBytes : ℕ)
  | close
  deriving DecidableEq, Repr

namespace Operation

def name : Operation → String
  | stat => "stat"
  | sync => "sync"
  | datasync => "datasync"
  | readAt _ _ => "read_at"
  | writeAt _ _ => "write_at"
  | readSome _ => "read_some"
  | writeSome _ => "write_some"
  | writeAll _ => "write_all"
  | readUntilEof _ => "read_until_eof"
  | close => "close"

def sequential : Operation → Bool
  | readSome _ | writeSome _ | writeAll _ | readUntilEof _ => true
  | _ => false

end Operation

inductive Stage where
  /-- Behind `acquire`, or between two requests. -/
  | leased
  /-- A request is in flight. -/
  | waiting
  /-- About to give the lease back, with the new position if there is one. -/
  | releasing (newOffset : Option ℕ) (outcome : Except Exn ℕ)
  | ended (outcome : Except Exn ℕ)

/-- A call that got past its first critical section.  `offset` is where its next request goes,
and `count` is what it has transferred. -/
structure Job where
  op : Operation
  lease : Lease
  offset : ℕ
  count : ℕ := 0
  stage : Stage := .leased

inductive Act where
  | sought (offset : ℕ)
  /-- A sequential operation took the position for its start. -/
  | began (start : ℕ)
  /-- A request was issued; for a sequential operation, at the given offset. -/
  | requested (offset : Option ℕ)
  /-- A request of the sequential operation transferred so many bytes. -/
  | moved (count : ℕ)
  | succeeded
  | failed
  | closeBegan
  | closed
  | closeFailed
  deriving DecidableEq, Repr

namespace Job

/-- At most so many bytes a request is for. -/
def requestSize (job : Job) : ℕ :=
  match job.op with
  | .readAt _ size | .writeAt _ size | .readSome size | .writeSome size => min size (2 ^ 32 - 1)
  | .writeAll size => min (size - job.count) (2 ^ 32 - 1)
  | .readUntilEof _ => 4096
  | _ => 0

/-- A request transfers no more than it is for, and no file is as large as `2 ^ 63` bytes. -/
def Possible (job : Job) (answer : FsResult) : Prop :=
  answer.result ≤ job.requestSize ∧ job.offset + answer.result < 2 ^ 63

instance (job : Job) (answer : FsResult) : Decidable (job.Possible answer) :=
  inferInstanceAs (Decidable (_ ∧ _))

def request (job : Job) (offset : Option ℕ) : Job × List Act :=
  ({ job with stage := .waiting }, [.requested offset])

def finish (job : Job) (newOffset : Option ℕ) (outcome : Except Exn ℕ) : Job × List Act :=
  ({ job with stage := .releasing newOffset outcome }, [])

/-- A request at an offset of the caller, which is checked outside of the `try` block. -/
def requestAt (job : Job) (offset : UInt64) : Job × List Act :=
  match toOffset offset job.op.name with
  | .error error => ({ job with stage := .ended (.error error) }, [])
  | .ok position => { job with offset := position }.request none

/-- Going on with a lease. -/
def proceed (job : Job) : Job × List Act :=
  match job.op with
  | .stat | .sync | .datasync => job.request none
  | .readAt offset _ | .writeAt offset _ => job.requestAt offset
  | .readSome _ | .writeSome _ => job.request (some job.lease.offset)
  | .writeAll size =>
      if job.count < size then job.request (some job.offset)
      else job.finish (some job.offset) (.ok 0)
  | .readUntilEof _ => job.request (some job.offset)
  | .close => ({ job with stage := .waiting }, [])

/-- A sequential transfer of more than nothing, after which the loop goes on. -/
def advance (job : Job) (count : ℕ) : Job × List Act :=
  ({ job with offset := job.offset + count, count := job.count + count, stage := .leased },
    [.moved count])

/-- Going on when a request has come back. -/
def resume (job : Job) (answer : FsResult) : Job × List Act :=
  match answer.awaitResume with
  | .error error => job.finish none (.error error)
  | .ok n =>
      match job.op with
      | .stat | .sync | .datasync | .close => job.finish none (.ok 0)
      | .readAt _ _ | .writeAt _ _ => job.finish none (.ok n.toNat)
      | .readSome _ | .writeSome _ =>
          let advanced := if n > 0 then job.lease.offset + n.toNat else job.lease.offset
          ({ job with
              count := n.toNat
              stage := .releasing (some advanced) (.ok n.toNat) }, [.moved n.toNat])
      | .writeAll _ =>
          if n ≤ 0 then job.finish none (.error (.runtime "corouv::io::File write stalled"))
          else job.advance n.toNat
      | .readUntilEof maxBytes =>
          if n = 0 then job.finish (some job.offset) (.ok job.count)
          else if n < 0 then job.finish none (.error (.runtime "corouv::io::File read failed"))
          else if job.count + n.toNat > maxBytes then
            job.finish none
              (.error (.runtime "corouv::io::File read_until_eof exceeded max_bytes"))
          else job.advance n.toNat

end Job

structure Traffic where
  state : FileState
  jobs : List Job := []
  acts : List Act := []

inductive FileEvent where
  | call (op : Operation)
  | seek (offset : UInt64)
  | proceed (index : ℕ)
  | complete (index : ℕ) (answer : FsResult)
  | release (index : ℕ)

namespace Traffic

/-- A file that has just been opened. -/
def opened (file offset : ℕ) : Traffic :=
  { state := { file := some file, offset := offset } }

def add (traffic : Traffic) (state : FileState) (job : Job) (acts : List Act) : Traffic :=
  { state := state, jobs := traffic.jobs ++ [job], acts := traffic.acts ++ acts }

def put (traffic : Traffic) (state : FileState) (index : ℕ) (job : Job) (acts : List Act) :
    Traffic :=
  { state := state, jobs := traffic.jobs.set index job, acts := traffic.acts ++ acts }

/-- A call that is turned away throws and leaves nothing behind. -/
def call (traffic : Traffic) (op : Operation) : Traffic :=
  if op = .close then
    match traffic.state.beginClose with
    | .ok (some state) =>
        traffic.add state ⟨op, ⟨state.file, 0⟩, 0, 0, .leased⟩ [.closeBegan]
    | _ => traffic
  else
    match traffic.state.acquire op.sequential op.name with
    | .ok (lease, state) =>
        traffic.add state ⟨op, lease, lease.offset, 0, .leased⟩
          (if op.sequential then [.began lease.offset] else [])
    | .error _ => traffic

/-- The critical section at the end of a coroutine. -/
def finish (traffic : Traffic) (index : ℕ) (job : Job) (newOffset : Option ℕ)
    (outcome : Except Exn ℕ) : Traffic :=
  let ended := { job with stage := .ended outcome }
  if job.op = .close then
    traffic.put (traffic.state.endClose outcome.isOk) index ended
      [if outcome.isOk then .closed else .closeFailed]
  else
    traffic.put (traffic.state.release job.op.sequential newOffset) index ended
      (if job.op.sequential then [if newOffset.isSome then .succeeded else .failed] else [])

def step (traffic : Traffic) : FileEvent → Option Traffic
  | .call op => some (traffic.call op)
  | .seek offset =>
      match traffic.state.seek offset with
      | .ok state =>
          some { traffic with state := state, acts := traffic.acts ++ [.sought state.offset] }
      | .error _ => some traffic
  | .proceed index => do
      let job ← traffic.jobs[index]?
      match job.stage with
      | .leased => some (traffic.put traffic.state index job.proceed.1 job.proceed.2)
      | _ => none
  | .complete index answer => do
      let job ← traffic.jobs[index]?
      match job.stage with
      | .waiting =>
          if job.Possible answer then
            some (traffic.put traffic.state index (job.resume answer).1 (job.resume answer).2)
          else none
      | _ => none
  | .release index => do
      let job ← traffic.jobs[index]?
      match job.stage with
      | .releasing newOffset outcome => some (traffic.finish index job newOffset outcome)
      | _ => none

end Traffic

end Corouv.Io
