import Corouv.Io.File

/-!
# What a file is for

A file is a `Cursor`: a position that a seek sets and one sequential operation at a time moves on
by what it transfers, and a descriptor that nobody uses while or after it is closed.  What a
coroutine does between two critical sections is a run of the cursor.
-/

namespace Corouv.Io

inductive Access where
  | opened
  | closing
  | closed
  deriving DecidableEq, Repr

/-- The position, how much the sequential operation in flight has transferred if there is one,
and whether the descriptor may be used. -/
structure Cursor where
  position : ℕ
  transferred : Option ℕ := none
  access : Access := .opened
  deriving DecidableEq, Repr

namespace Cursor

def next (cursor : Cursor) : Act → Option Cursor
  | .sought offset =>
      if cursor.access = .opened ∧ cursor.transferred = none then
        some { cursor with position := offset }
      else none
  | .began start =>
      if cursor.access = .opened ∧ cursor.transferred = none ∧ start = cursor.position then
        some { cursor with transferred := some 0 }
      else none
  | .requested none => if cursor.access = .opened then some cursor else none
  | .requested (some offset) =>
      if cursor.access = .opened ∧
          cursor.transferred.map (fun count => cursor.position + count) = some offset then
        some cursor
      else none
  | .moved count =>
      cursor.transferred.map fun before => { cursor with transferred := some (before + count) }
  | .succeeded =>
      cursor.transferred.map fun count =>
        { cursor with position := cursor.position + count, transferred := none }
  | .failed => cursor.transferred.map fun _ => { cursor with transferred := none }
  | .closeBegan =>
      if cursor.access = .opened ∧ cursor.transferred = none then
        some { cursor with access := .closing }
      else none
  | .closed => if cursor.access = .closing then some { cursor with access := .closed } else none
  | .closeFailed =>
      if cursor.access = .closing then some { cursor with access := .opened } else none

/-- The cursor after a list of acts, if it allows each of them in turn. -/
def run (cursor : Cursor) (acts : List Act) : Option Cursor :=
  acts.foldlM next cursor

theorem run_append {cursor later : Cursor} {acts : List Act} (ran : cursor.run acts = some later)
    (more : List Act) : cursor.run (acts ++ more) = later.run more := by
  rw [run, List.foldlM_append]
  exact (congrArg (· >>= _) ran).trans rfl

theorem run_singleton (cursor : Cursor) (act : Act) : cursor.run [act] = cursor.next act := by
  rw [run, List.foldlM_cons]
  cases cursor.next act <;> rfl

end Cursor

def FileState.access (state : FileState) : Access :=
  if state.file = none then .closed else if state.closing then .closing else .opened

def Stage.isOpen : Stage → Bool
  | .ended _ => false
  | _ => true

/-- The offset does not fit into an `int64_t`. -/
def Operation.badOffset : Operation → Bool
  | .readAt offset _ | .writeAt offset _ => 2 ^ 63 ≤ offset.toNat
  | _ => false

/-- One request is all the operation makes. -/
def Operation.single : Operation → Bool
  | .readSome _ | .writeSome _ => true
  | _ => false

namespace Job

/-- The operation has acquired a lease and has not finished. -/
def holds (job : Job) : Bool :=
  job.op != .close && job.stage.isOpen

def inSequence (job : Job) : Bool :=
  job.op.sequential && job.stage.isOpen

def closes (job : Job) : Bool :=
  job.op == .close && job.stage.isOpen

/-- The operation has finished and its lease was not given back. -/
def leaked (job : Job) : Bool :=
  job.op.badOffset && !job.stage.isOpen

/-- The sequential operation is as far as the cursor says. -/
structure Tracks (cursor : Cursor) (job : Job) : Prop where
  transferred : cursor.transferred = some job.count
  start : job.lease.offset = cursor.position
  local' : job.stage = .leased ∨ job.stage = .waiting →
    job.offset = job.lease.offset + job.count ∧ (job.op.single = true → job.count = 0)
  result : ∀ newOffset outcome, job.stage = .releasing (some newOffset) outcome →
    newOffset = job.lease.offset + job.count

/-- A step of a job, and what it is for the cursor. -/
structure Carried (cursor cursor' : Cursor) (job job' : Job) (acts : List Act) : Prop where
  ran : cursor.run acts = some cursor'
  position : cursor'.position = cursor.position
  access : cursor'.access = cursor.access
  busy : cursor'.transferred.isSome = cursor.transferred.isSome
  op : job'.op = job.op
  isOpen : job'.stage.isOpen = true
  tracks : job.op.sequential = true → Tracks cursor' job'
  still : job.op.sequential = false → cursor' = cursor
  plain : job'.op.sequential = false → ∀ newOffset outcome,
    job'.stage = .releasing newOffset outcome → newOffset = none

variable {cursor : Cursor} {job : Job}

theorem carried_finish (tracks : job.op.sequential = true → Tracks cursor job)
    {newOffset : Option ℕ} {outcome : Except Exn ℕ}
    (result : ∀ position ∈ newOffset,
      job.op.sequential = true ∧ position = job.lease.offset + job.count) :
    Carried cursor cursor job (job.finish newOffset outcome).1
      (job.finish newOffset outcome).2 where
  ran := rfl
  position := rfl
  access := rfl
  busy := rfl
  op := rfl
  isOpen := rfl
  tracks := by
    intro sequential
    have before := tracks sequential
    refine ⟨before.transferred, before.start, ?_, ?_⟩
    · rintro (leased | waiting)
      · cases leased
      · cases waiting
    · intro position _ stage
      cases stage
      exact (result position rfl).2
  still _ := rfl
  plain := by
    rintro other _ _ ⟨⟩
    apply Option.eq_none_iff_forall_not_mem.mpr
    intro place member
    exact absurd ((result place member).1.symm.trans other) (by decide)

theorem carried_request (other : job.op.sequential = false) (opened : cursor.access = .opened) :
    Carried cursor cursor job (job.request none).1 (job.request none).2 where
  ran := (Cursor.run_singleton _ _).trans (if_pos opened)
  position := rfl
  access := rfl
  busy := rfl
  op := rfl
  isOpen := rfl
  tracks sequential := by
    rw [other] at sequential
    cases sequential
  still _ := rfl
  plain _ := nofun

theorem carried_sequential_request (tracks : Tracks cursor job) (leased : job.stage = .leased)
    (opened : cursor.access = .opened) {offset : ℕ}
    (target : offset = job.lease.offset + job.count) :
    Carried cursor cursor job (job.request (some offset)).1 (job.request (some offset)).2 where
  ran := by
    have place : cursor.transferred.map (fun count => cursor.position + count) = some offset := by
      rw [tracks.transferred, target, tracks.start]
      rfl
    exact (Cursor.run_singleton _ _).trans (if_pos ⟨opened, place⟩)
  position := rfl
  access := rfl
  busy := rfl
  op := rfl
  isOpen := rfl
  tracks _ := by
    refine ⟨tracks.transferred, tracks.start, fun _ => tracks.local' (.inl leased), ?_⟩
    rintro _ _ ⟨⟩
  still _ := rfl
  plain _ := nofun

theorem carried_advance (tracks : Tracks cursor job) (waiting : job.stage = .waiting)
    (several : job.op.single = false) (sequential : job.op.sequential = true) (count : ℕ) :
    Carried cursor { cursor with transferred := some (job.count + count) } job
      (job.advance count).1 (job.advance count).2 where
  ran := by
    rw [advance, Cursor.run_singleton, Cursor.next, tracks.transferred]
    rfl
  position := rfl
  access := rfl
  busy := by rw [tracks.transferred]; rfl
  op := rfl
  isOpen := rfl
  tracks _ := by
    have place := (tracks.local' (.inr waiting)).1
    refine ⟨rfl, tracks.start, ?_, ?_⟩
    · intro _
      constructor
      · show job.offset + count = job.lease.offset + (job.count + count)
        omega
      · intro single
        exact absurd (single.symm.trans several) (by decide)
    · rintro _ _ ⟨⟩
  still other := absurd (sequential.symm.trans other) (by decide)
  plain _ := nofun

theorem carried_transfer (tracks : Tracks cursor job) (first : job.count = 0)
    (sequential : job.op.sequential = true) (n : ℤ) (outcome : Except Exn ℕ) :
    Carried cursor { cursor with transferred := some n.toNat } job
      { job with
        count := n.toNat
        stage := .releasing
          (some (if n > 0 then job.lease.offset + n.toNat else job.lease.offset)) outcome }
      [.moved n.toNat] where
  ran := by
    rw [Cursor.run_singleton, Cursor.next, tracks.transferred, first, Option.map_some, Nat.zero_add]
  position := rfl
  access := rfl
  busy := by rw [tracks.transferred]; rfl
  op := rfl
  isOpen := rfl
  tracks _ := by
    refine ⟨rfl, tracks.start, ?_, ?_⟩
    · rintro (leased | waiting)
      · cases leased
      · cases waiting
    · rintro _ _ ⟨⟩
      show (if n > 0 then job.lease.offset + n.toNat else job.lease.offset) =
        job.lease.offset + n.toNat
      split
      · rfl
      · omega
  still other := absurd (sequential.symm.trans other) (by decide)
  plain other := absurd (sequential.symm.trans other) (by decide)

theorem carried_requestAt {offset : UInt64} (fits : ¬2 ^ 63 ≤ offset.toNat)
    (other : job.op.sequential = false) (opened : cursor.access = .opened) :
    Carried cursor cursor job (job.requestAt offset).1 (job.requestAt offset).2 := by
  have small : ¬offset.toNat > 2 ^ 63 - 1 := by omega
  have located : job.requestAt offset = { job with offset := offset.toNat }.request none := by
    simp only [requestAt, toOffset, if_neg small]
    rfl
  rw [located]
  have requested : Carried cursor cursor { job with offset := offset.toNat }
      ({ job with offset := offset.toNat }.request none).1 _ := carried_request other opened
  exact ⟨requested.ran, rfl, rfl, rfl, rfl, rfl, requested.tracks, fun _ => rfl, requested.plain⟩

theorem carried_proceed (leased : job.stage = .leased) (fits : job.op.badOffset = false)
    (opened : job.op ≠ .close → cursor.access = .opened)
    (tracks : job.op.sequential = true → Tracks cursor job) :
    Carried cursor cursor job job.proceed.1 job.proceed.2 := by
  have contiguous : job.op.sequential = true → job.offset = job.lease.offset + job.count :=
    fun sequential => ((tracks sequential).local' (.inl leased)).1
  have first : job.op.sequential = true → job.op.single = true →
      job.lease.offset = job.lease.offset + job.count := by
    intro sequential single
    rw [((tracks sequential).local' (.inl leased)).2 single, Nat.add_zero]
  rcases job with ⟨op, _, _, _, _⟩
  cases op with
  | stat | sync | datasync => exact carried_request rfl (opened nofun)
  | readAt place _ | writeAt place _ =>
      have small : ¬2 ^ 63 ≤ place.toNat := of_decide_eq_false fits
      exact carried_requestAt small rfl (opened nofun)
  | readSome _ | writeSome _ =>
      exact carried_sequential_request (tracks rfl) leased (opened nofun) (first rfl rfl)
  | writeAll _ =>
      rw [proceed]
      dsimp only
      split
      · exact carried_sequential_request (tracks rfl) leased (opened nofun) (contiguous rfl)
      · apply carried_finish tracks
        rintro _ ⟨⟩
        exact ⟨rfl, contiguous rfl⟩
  | readUntilEof _ =>
      exact carried_sequential_request (tracks rfl) leased (opened nofun) (contiguous rfl)
  | close => exact ⟨rfl, rfl, rfl, rfl, rfl, rfl, nofun, fun _ => rfl, fun _ => nofun⟩

theorem carried_resume (waiting : job.stage = .waiting)
    (tracks : job.op.sequential = true → Tracks cursor job) (answer : FsResult) :
    ∃ cursor', Carried cursor cursor' job (job.resume answer).1 (job.resume answer).2 := by
  have fails : ∀ outcome, Carried cursor cursor job (job.finish none outcome).1
      (job.finish none outcome).2 := fun outcome => carried_finish tracks nofun
  rw [resume]
  cases answer.awaitResume with
  | error _ => exact ⟨cursor, fails _⟩
  | ok n =>
      have contiguous : job.op.sequential = true → job.offset = job.lease.offset + job.count :=
        fun sequential => ((tracks sequential).local' (.inr waiting)).1
      have first : job.op.sequential = true → job.op.single = true → job.count = 0 :=
        fun sequential => ((tracks sequential).local' (.inr waiting)).2
      rcases job with ⟨op, _, _, _, _⟩
      cases op with
      | stat | sync | datasync | close | readAt place size
      | writeAt _ size => exact ⟨cursor, fails _⟩
      | readSome size
      | writeSome _ => exact ⟨_, carried_transfer (tracks rfl) (first rfl rfl) rfl n _⟩
      | writeAll _ =>
          dsimp only
          split
          · exact ⟨cursor, fails _⟩
          · exact ⟨_, carried_advance (tracks rfl) waiting rfl rfl _⟩
      | readUntilEof _ =>
          dsimp only
          split
          · refine ⟨cursor, carried_finish tracks ?_⟩
            rintro _ ⟨⟩
            exact ⟨rfl, contiguous rfl⟩
          · split
            · exact ⟨cursor, fails _⟩
            · split
              · exact ⟨cursor, fails _⟩
              · exact ⟨_, carried_advance (tracks rfl) waiting rfl rfl _⟩

end Job

end Corouv.Io
