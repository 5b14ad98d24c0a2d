import Corouv.Io.FileCursor
import Corouv.Library.Count
import Corouv.Library.Fold
import Corouv.Library.Places
import Corouv.Library.Transition

/-!
# Sequential access and leases

Every run of calls on a file is a run of the cursor, and the counters of the state are the
numbers of the coroutines that have not given back what they took.

The number of operations in flight is the number of leases that are out.  An operation whose
offset does not fit into an `int64_t` throws between taking its lease and the block that would
give it back.
-/

namespace Corouv.Io

open Library

namespace FileState

variable {state next : FileState}

theorem access_eq_opened_iff :
    state.access = .opened ↔ state.file ≠ none ∧ state.closing = false := by
  rw [access]
  split
  · simp_all
  · split
    · simp_all
    · simp_all

variable {op : String}

theorem ensureOpen_eq_ok (passed : state.ensureOpen op = .ok ()) : state.access = .opened := by
  rw [ensureOpen] at passed
  split at passed
  · cases passed
  · rename_i fine
    rw [access_eq_opened_iff]
    simpa [not_or] using fine

theorem acquire_eq_ok {sequential : Bool} {lease : Lease}
    (acquired : state.acquire sequential op = .ok (lease, next)) :
    state.access = .opened ∧ (sequential = true → state.sequentialBusy = false) ∧
      lease.offset = state.offset ∧
      next = { state with
        sequentialBusy := sequential || state.sequentialBusy
        inflight := state.inflight + 1 } := by
  rcases except_bind_eq_ok.mp acquired with ⟨⟨⟩, passed, later⟩
  split at later
  · cases later
  · rename_i free
    cases later
    refine ⟨ensureOpen_eq_ok passed, ?_, rfl, rfl⟩
    intro kind
    simpa [kind] using free

theorem seek_eq_ok {offset : UInt64} (sought : state.seek offset = .ok next) :
    state.access = .opened ∧ state.sequentialBusy = false ∧
      next = { state with offset := next.offset } := by
  rcases except_bind_eq_ok.mp sought with ⟨_, -, later⟩
  rcases except_bind_eq_ok.mp later with ⟨⟨⟩, passed, last⟩
  split at last
  · cases last
  · rename_i free
    cases last
    refine ⟨ensureOpen_eq_ok passed, ?_, rfl⟩
    simp only [Bool.or_eq_true, not_or] at free
    exact Bool.eq_false_iff.mpr free.2

theorem beginClose_eq_ok (begun : state.beginClose = .ok (some next)) :
    state.access = .opened ∧ state.inflight = 0 ∧ state.sequentialBusy = false ∧
      next = { state with closing := true } := by
  rw [beginClose] at begun
  split at begun
  · cases begun
  · rename_i file
    split at begun
    · cases begun
    · rename_i closing
      split at begun
      · cases begun
      · rename_i idle
        cases begun
        simp only [not_or, not_not, Bool.not_eq_true] at idle closing
        exact ⟨access_eq_opened_iff.mpr ⟨file, closing⟩, idle.1, idle.2, rfl⟩

end FileState

/-- The counters of the state against the jobs. -/
structure Counted (traffic : Traffic) : Prop where
  leases : traffic.jobs.countP Job.holds + traffic.jobs.countP Job.leaked = traffic.state.inflight
  sequential : traffic.jobs.countP Job.inSequence = traffic.state.sequentialBusy.toNat
  closers : traffic.jobs.countP Job.closes = traffic.state.closing.toNat
  shut : traffic.state.access ≠ .opened → traffic.jobs.countP Job.holds = 0
  gone : traffic.state.file = none → traffic.state.closing = false
  bad : ∀ job ∈ traffic.jobs, job.op.badOffset = true →
    job.stage = .leased ∨ job.stage.isOpen = false
  plain : ∀ job ∈ traffic.jobs, job.op.sequential = false → ∀ newOffset outcome,
    job.stage = .releasing newOffset outcome → newOffset = none

/-- The position and the sequential operation against the cursor. -/
structure Agrees (cursor : Cursor) (traffic : Traffic) : Prop where
  access : cursor.access = traffic.state.access
  position : traffic.state.file ≠ none → traffic.state.offset = cursor.position
  busy : cursor.transferred.isSome = traffic.state.sequentialBusy
  tracks : ∀ {index : ℕ} {job : Job}, traffic.jobs[index]? = some job →
    job.inSequence = true → job.Tracks cursor

structure Sound (start : ℕ) (traffic : Traffic) : Prop where
  counted : Counted traffic
  follows : ∃ cursor, Cursor.run ⟨start, none, .opened⟩ traffic.acts = some cursor ∧
    Agrees cursor traffic

variable {start : ℕ} {traffic : Traffic}

variable {job : Job} {index : ℕ} {next : FileState}

variable {cursor : Cursor} {job' : Job} {op : Operation} {lease : Lease}

theorem Job.Tracks.busy (tracks : job.Tracks cursor) : cursor.transferred ≠ none := by
  rw [tracks.transferred]
  exact Option.some_ne_none _

theorem Agrees.idle (agrees : Agrees cursor traffic) (free : traffic.state.sequentialBusy = false) :
    cursor.transferred = none := by
  have busy := agrees.busy
  rw [free] at busy
  exact Option.isNone_iff_eq_none.mp (Option.isSome_eq_false_iff.mp busy)

theorem sound_opened (file offset : ℕ) : Sound offset (.opened file offset) := by
  have nobody : ∀ job, job ∉ (Traffic.opened file offset).jobs := fun job => List.not_mem_nil
  refine ⟨⟨rfl, rfl, rfl, fun _ => rfl, nofun, ?_, ?_⟩, ⟨offset, none, .opened⟩, rfl, rfl,
    fun _ => rfl, rfl, ?_⟩
  · intro job member
    exact absurd member (nobody job)
  · intro job member
    exact absurd member (nobody job)
  · intro _ _ found
    cases found

theorem Counted.opened_of_holds (counted : Counted traffic)
    (found : traffic.jobs[index]? = some job) (holds : job.holds = true) :
    traffic.state.access = .opened := by
  by_contra shut
  have none := counted.shut shut
  exact absurd none (List.countP_pos_iff.mpr ⟨job, List.mem_of_getElem? found, holds⟩).ne'

theorem Counted.unique (counted : Counted traffic) {other : ℕ}
    (found : traffic.jobs[index]? = some job) (here : job.inSequence = true)
    (found' : traffic.jobs[other]? = some job') (there : job'.inSequence = true) :
    index = other := by
  have atMost : traffic.jobs.countP Job.inSequence ≤ 1 := by
    rw [counted.sequential]
    exact Bool.toNat_le _
  exact eq_of_countP_le_one atMost found here found' there

theorem Counted.acquire (counted : Counted traffic) (other : op ≠ .close)
    (opened : traffic.state.access = .opened)
    (free : op.sequential = true → traffic.state.sequentialBusy = false) (acts : List Act) :
    Counted (traffic.add
      { traffic.state with
        sequentialBusy := op.sequential || traffic.state.sequentialBusy
        inflight := traffic.state.inflight + 1 }
      ⟨op, lease, lease.offset, 0, .leased⟩ acts) where
  leases := by
    have before := counted.leases
    have holds : Job.holds ⟨op, lease, lease.offset, 0, .leased⟩ = true := by
      simp [Job.holds, Stage.isOpen, other]
    have kept : Job.leaked ⟨op, lease, lease.offset, 0, .leased⟩ = false := by
      simp [Job.leaked, Stage.isOpen]
    simp only [Traffic.add, countP_concat, holds, kept, Bool.toNat_true, Bool.toNat_false]
    omega
  sequential := by
    have before := counted.sequential
    simp only [Traffic.add, countP_concat, Job.inSequence, Stage.isOpen, Bool.and_true]
    cases kind : op.sequential with
    | false => simpa using before
    | true =>
        rw [free kind] at before
        simp [before]
  closers := by
    have before := counted.closers
    have opens : Job.closes ⟨op, lease, lease.offset, 0, .leased⟩ = false := by
      simp [Job.closes, other]
    simpa [Traffic.add, countP_concat, opens] using before
  shut shut := absurd opened shut
  gone := counted.gone
  bad := by
    intro job member _
    rcases List.mem_append.mp member with old | new
    · exact counted.bad job old ‹_›
    · rw [List.mem_singleton.mp new]
      exact .inl rfl
  plain := by
    intro job member kind
    rcases List.mem_append.mp member with old | new
    · exact counted.plain job old kind
    · rw [List.mem_singleton.mp new]
      exact nofun

section

variable (sound : Sound start traffic)
include sound

/-- A lease is taken at the offset where the sequential cursor stands. -/
theorem Sound.acquire (other : op ≠ .close)
    (acquired : traffic.state.acquire op.sequential op.name = .ok (lease, next)) :
    Sound start (traffic.add next ⟨op, lease, lease.offset, 0, .leased⟩
      (if op.sequential then [.began lease.offset] else [])) := by
  rcases FileState.acquire_eq_ok acquired with ⟨opened, free, offset, rfl⟩
  rcases sound.follows with ⟨cursor, ran, agrees⟩
  refine ⟨sound.counted.acquire other opened free _, ?_⟩
  have here := agrees.position (FileState.access_eq_opened_iff.mp opened).1
  cases kind : op.sequential with
  | false =>
      refine ⟨cursor, (Cursor.run_append ran _).trans rfl, agrees.access, agrees.position,
        agrees.busy, ?_⟩
      intro _ _ found sequential
      rcases getElem?_concat_cases found with old | rfl
      · exact agrees.tracks old sequential
      · simp [Job.inSequence, kind] at sequential
  | true =>
      have idle := agrees.idle (free kind)
      have allowed : cursor.access = .opened ∧ cursor.transferred = none ∧
          lease.offset = cursor.position := ⟨agrees.access.trans opened, idle, offset.trans here⟩
      refine ⟨{ cursor with transferred := some 0 }, ?_, agrees.access, agrees.position, rfl, ?_⟩
      · refine (Cursor.run_append ran _).trans ((Cursor.run_singleton _ _).trans ?_)
        exact if_pos allowed
      · intro _ _ found sequential
        rcases getElem?_concat_cases found with old | rfl
        · exact absurd idle (agrees.tracks old sequential).busy
        · exact ⟨rfl, allowed.2.2, fun _ => ⟨rfl, fun _ => rfl⟩, nofun⟩

theorem Sound.beginClose (begun : traffic.state.beginClose = .ok (some next)) :
    Sound start (traffic.add next ⟨.close, ⟨next.file, 0⟩, 0, 0, .leased⟩ [.closeBegan]) := by
  rcases FileState.beginClose_eq_ok begun with ⟨opened, _, free, rfl⟩
  rcases sound.follows with ⟨cursor, ran, agrees⟩
  have counted := sound.counted
  have leases := counted.leases
  have closers := counted.closers
  rcases FileState.access_eq_opened_iff.mp opened with ⟨file, notClosing⟩
  have access : FileState.access { traffic.state with closing := true } = .closing := by
    simp [FileState.access, file]
  constructor
  · refine ⟨?_, ?_, ?_, ?_, fun gone => absurd gone file, ?_, ?_⟩
    · simpa [Traffic.add, countP_concat, Job.holds, Job.leaked, Operation.badOffset] using leases
    · simpa [Traffic.add, countP_concat, Job.inSequence, Operation.sequential]
        using counted.sequential
    · rw [notClosing] at closers
      simp [Traffic.add, Job.closes, Stage.isOpen, closers]
    · intro _
      have none : traffic.jobs.countP Job.holds = 0 := by omega
      simpa [Traffic.add, countP_concat, Job.holds] using none
    · intro job member bad
      rcases List.mem_append.mp member with old | new
      · exact counted.bad job old bad
      · rw [List.mem_singleton.mp new] at bad
        cases bad
    · intro job member kind
      rcases List.mem_append.mp member with old | new
      · exact counted.plain job old kind
      · rw [List.mem_singleton.mp new]
        exact nofun
  · refine ⟨{ cursor with access := .closing }, ?_, access.symm, fun _ => agrees.position file,
      agrees.busy, ?_⟩
    · refine (Cursor.run_append ran _).trans ((Cursor.run_singleton _ _).trans ?_)
      exact if_pos ⟨agrees.access.trans opened, agrees.idle free⟩
    · intro _ _ found sequential
      rcases getElem?_concat_cases found with old | rfl
      · have before := agrees.tracks old sequential
        exact ⟨before.transferred, before.start, before.local', before.result⟩
      · cases sequential

theorem Sound.seek {offset : UInt64} (sought : traffic.state.seek offset = .ok next) :
    Sound start { traffic with state := next, acts := traffic.acts ++ [.sought next.offset] } := by
  rcases FileState.seek_eq_ok sought with ⟨opened, free, same⟩
  rcases sound.follows with ⟨cursor, ran, agrees⟩
  have counted := sound.counted
  have idle := agrees.idle free
  rw [same]
  constructor
  · exact ⟨counted.leases, counted.sequential, counted.closers, counted.shut, counted.gone,
      counted.bad, counted.plain⟩
  · refine ⟨{ cursor with position := next.offset }, ?_, agrees.access, fun _ => rfl,
      agrees.busy, ?_⟩
    · refine (Cursor.run_append ran _).trans ((Cursor.run_singleton _ _).trans ?_)
      exact if_pos ⟨agrees.access.trans opened, idle⟩
    · intro _ _ found sequential
      exact absurd idle (agrees.tracks found sequential).busy

/-- A job that goes on keeps the traffic sound if it carries the cursor along. -/
theorem Sound.carried {acts : List Act}
    (found : traffic.jobs[index]? = some job) (isOpen : job.stage.isOpen = true)
    (fits : job.op.badOffset = false)
    (carried : ∀ cursor, (job.op ≠ .close → cursor.access = .opened) →
      (job.op.sequential = true → job.Tracks cursor) →
      ∃ cursor', Job.Carried cursor cursor' job job' acts) :
    Sound start (traffic.put traffic.state index job' acts) := by
  rcases sound.follows with ⟨cursor, ran, agrees⟩
  have counted := sound.counted
  have opened : job.op ≠ .close → cursor.access = .opened := by
    intro other
    have holds : job.holds = true := by simp [Job.holds, isOpen, other]
    exact agrees.access.trans (counted.opened_of_holds found holds)
  have tracks : job.op.sequential = true → job.Tracks cursor := by
    intro sequential
    exact agrees.tracks found (by simp [Job.inSequence, isOpen, sequential])
  rcases carried cursor opened tracks with ⟨cursor', step⟩
  have holds : job'.holds = job.holds := by simp [Job.holds, step.op, step.isOpen, isOpen]
  have leaked : job'.leaked = job.leaked := by simp [Job.leaked, step.op, fits]
  have sequential : job'.inSequence = job.inSequence := by
    simp [Job.inSequence, step.op, step.isOpen, isOpen]
  have closes : job'.closes = job.closes := by simp [Job.closes, step.op, step.isOpen, isOpen]
  have same : ∀ p : Job → Bool, p job' = p job →
      (traffic.jobs.set index job').countP p = traffic.jobs.countP p := by
    intro p equal
    have count := countP_set_add found job' p
    rw [equal] at count
    omega
  constructor
  · refine ⟨?_, ?_, ?_, ?_, counted.gone, ?_, ?_⟩
    · show (traffic.jobs.set index job').countP _ + (traffic.jobs.set index job').countP _ = _
      rw [same _ holds, same _ leaked]
      exact counted.leases
    · exact (same _ sequential).trans counted.sequential
    · exact (same _ closes).trans counted.closers
    · intro shut
      exact (same _ holds).trans (counted.shut shut)
    · intro other member bad
      rcases List.mem_or_eq_of_mem_set member with old | rfl
      · exact counted.bad other old bad
      · rw [step.op, fits] at bad
        cases bad
    · intro other member kind
      rcases List.mem_or_eq_of_mem_set member with old | rfl
      · exact counted.plain other old kind
      · exact step.plain kind
  · refine ⟨cursor', ?_, step.access.trans agrees.access, ?_, step.busy.trans agrees.busy, ?_⟩
    · exact (Cursor.run_append ran _).trans step.ran
    · intro file
      exact (agrees.position file).trans step.position.symm
    · intro _ _ there inSequence
      rcases getElem?_set_cases there with ⟨-, rfl⟩ | ⟨apart, old⟩
      · rw [sequential, Job.inSequence, Bool.and_eq_true] at inSequence
        exact step.tracks inSequence.1
      · by_cases kind : job.op.sequential = true
        · have here : job.inSequence = true := by simp [Job.inSequence, kind, isOpen]
          exact absurd (counted.unique found here old inSequence) apart
        · rw [step.still (Bool.eq_false_iff.mpr kind)]
          exact agrees.tracks old inSequence

end

section Ended

variable {index : ℕ} {job : Job} {outcome : Except Exn ℕ}

theorem countP_ended (found : traffic.jobs[index]? = some job) (outcome : Except Exn ℕ) :
    let jobs := traffic.jobs.set index { job with stage := .ended outcome }
    jobs.countP Job.holds + job.holds.toNat = traffic.jobs.countP Job.holds ∧
      jobs.countP Job.leaked + job.leaked.toNat =
        traffic.jobs.countP Job.leaked + job.op.badOffset.toNat ∧
      jobs.countP Job.inSequence + job.inSequence.toNat = traffic.jobs.countP Job.inSequence ∧
      jobs.countP Job.closes + job.closes.toNat = traffic.jobs.countP Job.closes := by
  have count := countP_set_add found { job with stage := .ended outcome }
  refine ⟨?_, ?_, ?_, ?_⟩
  · simpa [Job.holds, Stage.isOpen] using count Job.holds
  · simpa [Job.leaked, Stage.isOpen] using count Job.leaked
  · simpa [Job.inSequence, Stage.isOpen] using count Job.inSequence
  · simpa [Job.closes, Stage.isOpen] using count Job.closes

theorem Counted.bad_ended (counted : Counted traffic) :
    ∀ other ∈ traffic.jobs.set index { job with stage := .ended outcome },
      other.op.badOffset = true → other.stage = .leased ∨ other.stage.isOpen = false := by
  intro other member bad
  rcases List.mem_or_eq_of_mem_set member with old | rfl
  · exact counted.bad other old bad
  · exact .inr rfl

theorem Counted.plain_ended (counted : Counted traffic) :
    ∀ other ∈ traffic.jobs.set index { job with stage := .ended outcome },
      other.op.sequential = false → ∀ newOffset outcome,
        other.stage = .releasing newOffset outcome → newOffset = none := by
  intro other member kind
  rcases List.mem_or_eq_of_mem_set member with old | rfl
  · exact counted.plain other old kind
  · exact nofun

theorem Agrees.tracks_ended {cursor : Cursor} (agrees : Agrees cursor traffic) {place : ℕ}
    {other : Job}
    (there : (traffic.jobs.set index { job with stage := .ended outcome })[place]? = some other)
    (sequential : other.inSequence = true) :
    index ≠ place ∧ traffic.jobs[place]? = some other ∧ other.Tracks cursor := by
  rcases getElem?_set_cases there with ⟨-, rfl⟩ | ⟨apart, old⟩
  · simp [Job.inSequence, Stage.isOpen] at sequential
  · exact ⟨apart, old, agrees.tracks old sequential⟩

theorem Counted.fits (counted : Counted traffic) (found : traffic.jobs[index]? = some job)
    (further : job.stage ≠ .leased) (isOpen : job.stage.isOpen = true) :
    job.op.badOffset = false := by
  by_contra bad
  rcases counted.bad job (List.mem_of_getElem? found) (by simpa using bad) with leased | ended
  · exact further leased
  · rw [isOpen] at ended
    cases ended

theorem Job.proceed_of_badOffset (bad : job.op.badOffset = true) :
    ∃ outcome, job.proceed = ({ job with stage := .ended outcome }, []) := by
  rcases job with ⟨op, _, _, _, _⟩
  cases op with
  | readAt place _ =>
      have large : place.toNat > 2 ^ 63 - 1 := by
        have bound : 2 ^ 63 ≤ place.toNat := of_decide_eq_true bad
        omega
      simp only [proceed, requestAt, toOffset, if_pos large]
      exact ⟨_, rfl⟩
  | writeAt place _ =>
      have large : place.toNat > 2 ^ 63 - 1 := by
        have bound : 2 ^ 63 ≤ place.toNat := of_decide_eq_true bad
        omega
      simp only [proceed, requestAt, toOffset, if_pos large]
      exact ⟨_, rfl⟩
  | _ => cases bad

theorem Operation.of_badOffset {op : Operation} (bad : op.badOffset = true) :
    op.sequential = false ∧ op ≠ .close := by
  cases op with
  | readAt _ _ => exact ⟨rfl, nofun⟩
  | writeAt _ _ => exact ⟨rfl, nofun⟩
  | _ => cases bad

theorem Sound.overflow (sound : Sound start traffic) (found : traffic.jobs[index]? = some job)
    (leased : job.stage = .leased) (bad : job.op.badOffset = true) (outcome : Except Exn ℕ) :
    Sound start (traffic.put traffic.state index { job with stage := .ended outcome } []) := by
  rcases Operation.of_badOffset bad with ⟨kind, other⟩
  rcases sound.follows with ⟨cursor, ran, agrees⟩
  have counted := sound.counted
  have flags : job.holds = true ∧ job.leaked = false ∧ job.inSequence = false ∧
      job.closes = false := by
    simp [Job.holds, Job.leaked, Job.inSequence, Job.closes, Stage.isOpen, leased, other, kind]
  have counts := countP_ended found outcome
  simp only [flags, bad, Bool.toNat_true, Bool.toNat_false, Nat.add_zero] at counts
  rcases counts with ⟨_, _, sequences, closers⟩
  have leases := counted.leases
  constructor
  · refine ⟨?_, sequences.trans counted.sequential, closers.trans counted.closers, ?_,
      counted.gone, counted.bad_ended, counted.plain_ended⟩
    · dsimp only [Traffic.put]
      omega
    · intro shut
      have none := counted.shut shut
      dsimp only [Traffic.put]
      omega
  · refine ⟨cursor, (Cursor.run_append ran _).trans rfl, agrees.access, agrees.position,
      agrees.busy, ?_⟩
    intro _ _ there sequential
    exact (agrees.tracks_ended there sequential).2.2

theorem Counted.release (counted : Counted traffic) {newOffset : Option ℕ}
    (other : job.op ≠ .close) (found : traffic.jobs[index]? = some job)
    (releasing : job.stage = .releasing newOffset outcome) (acts : List Act) :
    Counted (traffic.put (traffic.state.release job.op.sequential newOffset) index
      { job with stage := .ended outcome } acts) := by
  have isOpen : job.stage.isOpen = true := by rw [releasing]; rfl
  have fits := counted.fits found (by rw [releasing]; exact nofun) isOpen
  have flags : job.holds = true ∧ job.leaked = false ∧ job.inSequence = job.op.sequential ∧
      job.closes = false := by
    simp [Job.holds, Job.leaked, Job.inSequence, Job.closes, isOpen, other, fits]
  have opened := counted.opened_of_holds found flags.1
  have counts := countP_ended found outcome
  simp only [flags, fits, Bool.toNat_true, Bool.toNat_false, Nat.add_zero] at counts
  rcases counts with ⟨_, _, sequences, closers⟩
  have leases := counted.leases
  have busy := counted.sequential
  refine ⟨?_, ?_, closers.trans counted.closers, fun shut => absurd opened shut, counted.gone,
    counted.bad_ended, counted.plain_ended⟩
  · dsimp only [Traffic.put, FileState.release]
    omega
  · dsimp only [Traffic.put, FileState.release]
    cases kind : job.op.sequential with
    | false =>
        rw [kind] at sequences
        exact sequences.trans busy
    | true =>
        rw [kind, busy] at sequences
        have atMost := Bool.toNat_le traffic.state.sequentialBusy
        simp only [Bool.toNat_true] at sequences
        simp only [if_true, Bool.toNat_false]
        omega

end Ended

variable {index : ℕ} {job : Job} {newOffset : Option ℕ} {outcome : Except Exn ℕ}

/-- A job that ends moves the cursor by what it has read or written, or not at all. -/
theorem Sound.release (sound : Sound start traffic) (other : job.op ≠ .close)
    (found : traffic.jobs[index]? = some job)
    (releasing : job.stage = .releasing newOffset outcome) :
    Sound start (traffic.put (traffic.state.release job.op.sequential newOffset) index
      { job with stage := .ended outcome }
      (if job.op.sequential then [if newOffset.isSome then .succeeded else .failed] else [])) := by
  rcases sound.follows with ⟨cursor, ran, agrees⟩
  have counted := sound.counted
  refine ⟨counted.release other found releasing _, ?_⟩
  have isOpen : job.stage.isOpen = true := by rw [releasing]; rfl
  cases kind : job.op.sequential with
  | false =>
      have none := counted.plain job (List.mem_of_getElem? found) kind newOffset outcome releasing
      subst none
      refine ⟨cursor, (Cursor.run_append ran _).trans rfl, agrees.access, agrees.position,
        agrees.busy, ?_⟩
      intro place job' there sequential
      exact (agrees.tracks_ended there sequential).2.2
  | true =>
      have here : job.inSequence = true := by simp [Job.inSequence, kind, isOpen]
      have tracks := agrees.tracks found here
      have alone : ∀ {place : ℕ} {job' : Job},
          (traffic.jobs.set index { job with stage := .ended outcome })[place]? = some job' →
            job'.inSequence = false := by
        intro _ _ there
        by_contra sequential
        rcases agrees.tracks_ended there (by simpa using sequential) with ⟨apart, old, -⟩
        exact apart (counted.unique found here old (by simpa using sequential))
      cases newOffset with
      | none =>
          refine ⟨{ cursor with transferred := none }, ?_, agrees.access, agrees.position, rfl, ?_⟩
          · refine (Cursor.run_append ran _).trans ((Cursor.run_singleton _ _).trans ?_)
            simp [Cursor.next, tracks.transferred]
          · intro _ _ there sequential
            rw [alone there] at sequential
            cases sequential
      | some position =>
          have advanced : position = cursor.position + job.count := by
            rw [tracks.result position outcome releasing, tracks.start]
          refine ⟨{ cursor with position := cursor.position + job.count, transferred := none }, ?_,
            agrees.access, fun _ => advanced, rfl, ?_⟩
          · refine (Cursor.run_append ran _).trans ((Cursor.run_singleton _ _).trans ?_)
            simp [Cursor.next, tracks.transferred]
          · intro _ _ there sequential
            rw [alone there] at sequential
            cases sequential

/-- A close that ends leaves the file closed, or open again if it failed. -/
theorem Sound.endClose (sound : Sound start traffic) (close : job.op = .close)
    (found : traffic.jobs[index]? = some job)
    (releasing : job.stage = .releasing newOffset outcome) :
    Sound start (traffic.put (traffic.state.endClose outcome.isOk) index
      { job with stage := .ended outcome } [if outcome.isOk then .closed else .closeFailed]) := by
  rcases sound.follows with ⟨cursor, ran, agrees⟩
  have counted := sound.counted
  have isOpen : job.stage.isOpen = true := by rw [releasing]; rfl
  have flags : job.holds = false ∧ job.leaked = false ∧ job.inSequence = false ∧
      job.closes = true ∧ job.op.badOffset = false := by
    simp [Job.holds, Job.leaked, Job.inSequence, Job.closes, isOpen, close, Operation.badOffset,
      Operation.sequential]
  have counts := countP_ended found outcome
  simp only [flags, Bool.toNat_true, Bool.toNat_false, Nat.add_zero] at counts
  rcases counts with ⟨holds, leaks, sequences, _⟩
  have kept : (traffic.jobs.set index { job with stage := .ended outcome }).countP Job.holds +
      (traffic.jobs.set index { job with stage := .ended outcome }).countP Job.leaked =
        traffic.state.inflight := by
    rw [holds, leaks]
    exact counted.leases
  have closing : traffic.state.closing = true := by
    have count := counted.closers
    cases flag : traffic.state.closing with
    | true => rfl
    | false =>
        rw [flag] at count
        simp only [Bool.toNat_false] at count
        omega
  have file : traffic.state.file ≠ none := by
    intro gone
    rw [counted.gone gone] at closing
    cases closing
  have access : traffic.state.access = .closing := by simp [FileState.access, file, closing]
  have none : traffic.jobs.countP Job.holds = 0 := counted.shut (by simp [access])
  have last : (traffic.jobs.set index { job with stage := .ended outcome }).countP Job.closes =
      0 := by
    have count := counted.closers
    rw [closing, Bool.toNat_true] at count
    omega
  have tracks : ∀ {place : ℕ} {job' : Job},
      (traffic.jobs.set index { job with stage := .ended outcome })[place]? = some job' →
        job'.inSequence = true → job'.Tracks cursor :=
    fun there sequential => (agrees.tracks_ended there sequential).2.2
  cases succeeded : outcome.isOk with
  | true =>
      constructor
      · refine ⟨?_, sequences.trans counted.sequential, last, fun _ => holds.trans none,
          fun _ => rfl, counted.bad_ended, counted.plain_ended⟩
        exact kept
      · refine ⟨{ cursor with access := .closed }, ?_, rfl, fun gone => absurd rfl gone,
          agrees.busy, ?_⟩
        · refine (Cursor.run_append ran _).trans ((Cursor.run_singleton _ _).trans ?_)
          exact if_pos (agrees.access.trans access)
        · intro _ _ there sequential
          have before := tracks there sequential
          exact ⟨before.transferred, before.start, before.local', before.result⟩
  | false =>
      constructor
      · refine ⟨?_, sequences.trans counted.sequential, last, fun _ => holds.trans none,
          fun _ => rfl, counted.bad_ended, counted.plain_ended⟩
        exact kept
      · have reopened : ({ traffic.state with closing := false } : FileState).access = .opened :=
          FileState.access_eq_opened_iff.mpr ⟨file, rfl⟩
        refine ⟨{ cursor with access := .opened }, ?_, reopened.symm, fun _ => agrees.position file,
          agrees.busy, ?_⟩
        · refine (Cursor.run_append ran _).trans ((Cursor.run_singleton _ _).trans ?_)
          exact if_pos (agrees.access.trans access)
        · intro _ _ there sequential
          have before := tracks there sequential
          exact ⟨before.transferred, before.start, before.local', before.result⟩

/-- Every event keeps the cursor, the lease count and the access state in step. -/
theorem Sound.step (sound : Sound start traffic) {event : FileEvent} {next : Traffic}
    (taken : traffic.step event = some next) : Sound start next := by
  cases event with
  | call _ =>
      simp only [Traffic.step, Option.some.injEq] at taken
      subst taken
      rw [Traffic.call]
      split
      · rename_i close
        subst close
        split
        · rename_i state begun
          exact sound.beginClose begun
        · exact sound
      · rename_i other
        split
        · rename_i lease state acquired
          exact sound.acquire other acquired
        · exact sound
  | seek _ =>
      simp only [Traffic.step] at taken
      split at taken
      · rename_i state sought
        cases taken
        exact sound.seek sought
      · cases taken
        exact sound
  | proceed _ =>
      rcases Option.bind_eq_some_iff.mp taken with ⟨job, found, went⟩
      split at went
      · rename_i leased
        cases went
        cases bad : job.op.badOffset with
        | true =>
            rcases Job.proceed_of_badOffset bad with ⟨outcome, threw⟩
            rw [threw]
            exact sound.overflow found leased bad outcome
        | false =>
            apply sound.carried found (by rw [leased]; rfl) bad
            intro cursor opened tracks
            exact ⟨cursor, Job.carried_proceed leased bad opened tracks⟩
      · cases went
  | complete _ answer =>
      rcases Option.bind_eq_some_iff.mp taken with ⟨_, found, went⟩
      split at went
      · rename_i waiting
        split at went
        · cases went
          have fits := sound.counted.fits found (by rw [waiting]; exact nofun)
            (by rw [waiting]; rfl)
          apply sound.carried found (by rw [waiting]; rfl) fits
          intro _ _ tracks
          exact Job.carried_resume waiting tracks answer
        · cases went
      · cases went
  | release _ =>
      rcases Option.bind_eq_some_iff.mp taken with ⟨_, found, went⟩
      split at went
      · rename_i newOffset outcome releasing
        cases went
        rw [Traffic.finish]
        split
        · rename_i close
          exact sound.endClose close found releasing
        · rename_i other
          exact sound.release other found releasing
      · cases went

theorem Sound.of_reached {file offset : ℕ}
    (reached : Reached Traffic.step (fun _ _ => True) (.opened file offset) traffic) :
    Sound offset traffic := by
  apply reached.invariant (sound_opened file offset)
  intro _ _ _ sound _ taken
  exact sound.step taken

/-- A write in two pieces with a read at an offset and a seek in its way, a read that fails, and
a close that fails once. -/
def busyRun : List FileEvent :=
  [.call (.writeAll 5), .proceed 0, .call (.readAt 1 2), .complete 0 ⟨3, ""⟩, .seek 9, .proceed 1,
    .call (.readSome 4), .proceed 0, .call .close, .complete 1 ⟨2, ""⟩, .complete 0 ⟨2, ""⟩,
    .proceed 0, .release 0, .release 1, .call (.readSome 4), .proceed 2, .complete 2 ⟨-5, "EIO"⟩,
    .release 2, .call .close, .proceed 3, .call .stat, .complete 3 ⟨-4, "EINTR"⟩, .release 3,
    .seek 1, .call .close, .proceed 4, .complete 4 ⟨0, ""⟩, .release 4, .call (.readSome 1)]

/-- The counter is right, and a file that nobody uses can be closed. -/
def Accounted (traffic : Traffic) : Prop :=
  traffic.state.inflight = traffic.jobs.countP Job.holds ∧
    (traffic.jobs.countP Job.holds = 0 →
      traffic.state.inflight = 0 ∧ traffic.state.sequentialBusy = false ∧
        traffic.state.beginClose ≠
          .error (.logic "corouv::io::File::close requires no operations in flight"))

theorem inSequence_le_holds (jobs : List Job) :
    jobs.countP Job.inSequence ≤ jobs.countP Job.holds := by
  apply List.countP_mono_left
  intro job _ sequential
  rcases job with ⟨op, _, _, _, _⟩
  cases op with
  | readSome _ => exact sequential
  | writeSome _ => exact sequential
  | writeAll _ => exact sequential
  | readUntilEof _ => exact sequential
  | _ => cases sequential

theorem beginClose_of_idle {state : FileState} (idle : state.inflight = 0)
    (free : state.sequentialBusy = false) :
    state.beginClose ≠
      .error (.logic "corouv::io::File::close requires no operations in flight") := by
  rw [FileState.beginClose]
  split
  · exact nofun
  · split
    · simp [throw, throwThe, MonadExceptOf.throw]
    · rw [if_neg (by simp [idle, free])]
      exact nofun

/-- The leases are accounted for exactly as long as no operation with an offset of `2 ^ 63` or
more has thrown. -/
theorem accounted_iff_offsets_fit {file offset : ℕ}
    (reached : Reached Traffic.step (fun _ _ => True) (.opened file offset) traffic) :
    Accounted traffic ↔
      ∀ job ∈ traffic.jobs, job.stage.isOpen = false → job.op.badOffset = false := by
  have counted := (Sound.of_reached reached).counted
  have leases := counted.leases
  have none : traffic.jobs.countP Job.leaked = 0 ↔
      ∀ job ∈ traffic.jobs, job.stage.isOpen = false → job.op.badOffset = false := by
    rw [List.countP_eq_zero]
    apply forall₂_congr
    intro job _
    rw [Job.leaked]
    cases job.op.badOffset <;> cases job.stage.isOpen <;> simp
  rw [← none]
  constructor
  · rintro ⟨_, -⟩
    omega
  · intro _
    refine ⟨by omega, fun idle => ?_⟩
    have inflight : traffic.state.inflight = 0 := by omega
    have free : traffic.state.sequentialBusy = false := by
      have count := counted.sequential
      have fewer := inSequence_le_holds traffic.jobs
      cases busy : traffic.state.sequentialBusy with
      | false => rfl
      | true =>
          rw [busy, Bool.toNat_true] at count
          omega
    exact ⟨inflight, free, beginClose_of_idle inflight free⟩

/-- A write and a read with offsets that fit leave the file ready to be closed. -/
theorem accounted_readAt :
    ∃ traffic, follow Traffic.step (fun _ _ => True) (.opened 7 0)
        [.call (.readAt 9 4), .call (.writeSome 2), .proceed 1, .proceed 0,
          .complete 0 ⟨-5, "EIO"⟩, .complete 1 ⟨2, ""⟩, .release 1, .release 0] = some traffic ∧
      Accounted traffic := by
  have followed : (follow Traffic.step (fun _ _ => True) (.opened 7 0)
      [.call (.readAt 9 4), .call (.writeSome 2), .proceed 1, .proceed 0,
        .complete 0 ⟨-5, "EIO"⟩, .complete 1 ⟨2, ""⟩, .release 1, .release 0]).map
      (fun traffic => traffic.jobs.map Job.op) = some [.readAt 9 4, .writeSome 2] := by
    decide +kernel
  rcases exists_of_follow followed with ⟨traffic, ran, reached, ops⟩
  refine ⟨traffic, ran, ?_⟩
  apply (accounted_iff_offsets_fit reached).mpr
  intro job member _
  have listed : job.op ∈ [Operation.readAt 9 4, .writeSome 2] := ops ▸ List.mem_map_of_mem member
  rcases List.mem_cons.mp listed with same | later
  · rw [same]
    rfl
  · rw [List.mem_singleton.mp later]
    rfl

/-- A read at `2 ^ 63` throws, and the file can no longer be closed. -/
theorem readAt_leaks_lease :
    ∃ traffic, follow Traffic.step (fun _ _ => True) (.opened 7 0)
        [.call (.readAt 9223372036854775808 1), .proceed 0] = some traffic ∧
      traffic.jobs.countP Job.holds = 0 ∧ traffic.state.inflight = 1 ∧
      traffic.state.beginClose =
        .error (.logic "corouv::io::File::close requires no operations in flight") :=
  ⟨_, rfl, rfl, rfl, rfl⟩

end Corouv.Io
