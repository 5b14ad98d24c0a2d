import Corouv.Base

/-!
# Byte streams

An `io::ByteStream` as the code above it can observe it.  What the network has
in store for a stream is a list of arrivals: data in the pieces `recv_some` will
see, stretches of silence longer than any deadline, the end of the stream, or a
failure that `throw_uv_error` turns into a `std::runtime_error`.  A list that
runs out leaves the reader waiting.  What happens to each write is likewise a
list of departures; once it is used up every write goes through.

`with_optional_timeout` around an operation is the `Deadline` passed to it: a
silence only ends an operation that has a duration to wait for.  The operation
itself is not undone.  A read that was given up stays the waiter of the stream:
until it has taken the data that comes next, any other read is refused.  A write
that was given up still reaches the wire.
-/

namespace Corouv.Io

open Library

inductive Arrival where
  | data (bytes : Bytes)
  | stall
  | eof
  | failure (message : String)
  /-- Not sent by the peer: a read with room for `capacity` bytes was given up here. -/
  | abandoned (capacity : ℕ)
  deriving DecidableEq, Repr

/-- The fate of one `send_all`; a failed one has put the given number of bytes on
the wire. -/
inductive Departure where
  | sent
  | stalled
  | failed (written : ℕ) (message : String)
  deriving DecidableEq, Repr

structure ByteStream where
  arrivals : List Arrival := []
  departures : List Departure := []
  written : Bytes := []
  isOpen : Bool := true
  deriving DecidableEq, Repr

/-- Arguments of `with_optional_timeout`. -/
structure Deadline where
  duration : Option ℕ := none
  status : ℤ
  message : String

/-- What one `recv_some` comes back with. -/
inductive Received where
  | bytes (data : Bytes)
  | timeout
  | failure (message : String)
  | waiting
  | busy

/-- Take up to `capacity` bytes from the next piece of data. -/
def receive (capacity : ℕ) (timed : Bool) : List Arrival → Received × List Arrival
  | [] => (.waiting, [])
  | .data data :: later =>
      if data = [] then receive capacity timed later
      else if data.length ≤ capacity then (.bytes data, later)
      else (.bytes (data.take capacity), .data (data.drop capacity) :: later)
  | .stall :: later =>
      if timed then (.timeout, .abandoned capacity :: later) else receive capacity timed later
  | .eof :: later => (.bytes [], .eof :: later)
  | .failure message :: later => (.failure message, .failure message :: later)
  | .abandoned room :: later => (.busy, .abandoned room :: later)

/-- A read that was given up takes what has come since, and is out of the way then. -/
def settle : List Arrival → List Arrival
  | .abandoned capacity :: later =>
      match receive capacity false later with
      | (.waiting, _) => .abandoned capacity :: later
      | (_, rest) => rest
  | arrivals => arrivals

/-- The data in a list of arrivals, whatever else is in it. -/
def allData : List Arrival → Bytes
  | [] => []
  | .data data :: later => data ++ allData later
  | _ :: later => allData later

/-- The contents of arrivals that deliver data and nothing else, except that the
stream may end: the data and whether it ends. -/
def contents : List Arrival → Option (Bytes × Bool)
  | [] => some ([], false)
  | .data data :: later => (contents later).map fun rest => (data ++ rest.1, rest.2)
  | .eof :: _ => some ([], true)
  | _ => none

@[simp]
theorem receive_data_nil (capacity : ℕ) (timed : Bool) (later : List Arrival) :
    receive capacity timed (.data [] :: later) = receive capacity timed later := by
  simp [receive]

variable {arrivals : List Arrival} {capacity : ℕ} {ended : Bool}

/-- `contents` as a relation, for inductions. -/
inductive Delivers : List Arrival → Bytes → Bool → Prop
  | nil : Delivers [] [] false
  | eof (later : List Arrival) : Delivers (.eof :: later) [] true
  | data {later : List Arrival} {rest : Bytes} {ended : Bool} (piece : Bytes)
      (clean : contents later = some (rest, ended)) (delivers : Delivers later rest ended) :
      Delivers (.data piece :: later) (piece ++ rest) ended

theorem delivers_of_contents {data : Bytes} (clean : contents arrivals = some (data, ended)) :
    Delivers arrivals data ended := by
  induction arrivals generalizing data with
  | nil =>
      cases clean
      exact .nil
  | cons arrival later ih =>
      cases arrival with
      | stall | failure message | abandoned room => cases clean
      | eof =>
          cases clean
          exact .eof later
      | data piece =>
          rcases Option.map_eq_some_iff.mp clean with ⟨_, laterClean, same⟩
          cases same
          exact .data piece laterClean (ih laterClean)

theorem settle_of_contents {data : Bytes} (clean : contents arrivals = some (data, ended)) :
    settle arrivals = arrivals := by
  cases delivers_of_contents clean with
  | nil | eof _ | data _ _ _ => rfl

/-- On a clean stream `recv_some` waits, reports the end, or hands over the next
few bytes, and leaves a clean stream behind. -/
theorem receive_of_contents (timed : Bool) {data : Bytes}
    (clean : contents arrivals = some (data, ended)) (room : 0 < capacity) :
    (data = [] ∧ ended = false ∧ (receive capacity timed arrivals).1 = .waiting) ∨
      (data = [] ∧ ended = true ∧ ∃ later, receive capacity timed arrivals = (.bytes [], later) ∧
        contents later = some ([], true)) ∨
      ∃ count later, 0 < count ∧ count ≤ capacity ∧ count ≤ data.length ∧
        receive capacity timed arrivals = (.bytes (data.take count), later) ∧
        contents later = some (data.drop count, ended) := by
  induction delivers_of_contents clean with
  | nil => exact .inl ⟨rfl, rfl, rfl⟩
  | eof _ => exact .inr (.inl ⟨rfl, rfl, _, rfl, rfl⟩)
  | @data later _ _ piece laterClean _ ih =>
      by_cases empty : piece = []
      · subst piece
        simpa only [receive_data_nil, List.nil_append] using ih laterClean
      · right
        right
        have positive : 0 < piece.length := List.length_pos_iff.mpr empty
        by_cases fits : piece.length ≤ capacity
        · refine ⟨piece.length, later, positive, fits, by simp, ?_, ?_⟩
          · simp [receive, empty, fits]
          · simpa using laterClean
        · refine ⟨capacity, .data (piece.drop capacity) :: later, room, le_rfl, ?_, ?_, ?_⟩
          · simp only [List.length_append]
            omega
          · simp only [receive, if_neg empty, if_neg fits]
            rw [List.take_append_of_le_length (by omega)]
          · simp only [contents, laterClean, Option.map_some, Option.some.injEq, Prod.mk.injEq,
              and_true]
            rw [List.drop_append_of_le_length (by omega)]

theorem contents_map_data (pieces : List Bytes) :
    contents (pieces.map Arrival.data) = some (pieces.flatten, false) := by
  induction pieces with
  | nil => rfl
  | cons _ _ ih => simp [contents, ih]

theorem allData_map_data (pieces : List Bytes) :
    allData (pieces.map Arrival.data) = pieces.flatten := by
  induction pieces with
  | nil => rfl
  | cons _ _ ih => simp [allData, ih]

def Received.data : Received → Bytes
  | .bytes data => data
  | _ => []

theorem allData_receive (capacity : ℕ) (timed : Bool) (arrivals : List Arrival) :
    allData arrivals =
      (receive capacity timed arrivals).1.data ++ allData (receive capacity timed arrivals).2 := by
  fun_induction receive capacity timed arrivals with
  | case1 | case3 | case5 | case7 | case8 | case9 => rfl
  | case2 _ ih | case6 _ _ ih => exact ih
  | case4 => simp [allData, Received.data, ← List.append_assoc]

theorem receive_bytes {timed : Bool} {later : List Arrival} {data : Bytes}
    (received : receive capacity timed arrivals = (.bytes data, later)) :
    data.length ≤ capacity ∧ allData arrivals = data ++ allData later := by
  constructor
  · fun_induction receive capacity timed arrivals with
    | case1 => cases received
    | case2 _ ih => exact ih received
    | case3 _ _ _ fits =>
        cases received
        exact fits
    | case4 =>
        cases received
        exact List.length_take_le _ _
    | case5 => cases received
    | case6 _ _ ih => exact ih received
    | case7 =>
        cases received
        exact Nat.zero_le _
    | case8 | case9 => cases received
  · rw [allData_receive capacity timed arrivals, received]
    rfl

theorem length_le_allData_of_contents {data : Bytes}
    (clean : contents arrivals = some (data, ended)) : data.length ≤ (allData arrivals).length := by
  induction delivers_of_contents clean with
  | nil | eof _ => exact Nat.zero_le _
  | data _ laterClean _ ih => simpa [allData] using ih laterClean

/-- A read that comes to it throws, and not for its deadline. -/
def Arrival.isFailure : Arrival → Bool
  | .failure _ | .abandoned _ => true
  | _ => false

/-- A write with this fate goes through. -/
def Deadline.carries (deadline : Deadline) : Departure → Bool
  | .sent => true
  | .stalled => deadline.duration.isNone
  | .failed _ _ => false

def Departure.isFailure : Departure → Bool
  | .failed _ _ => true
  | _ => false

/-- Nothing in store is a failure. -/
def Clear (arrivals : List Arrival) : Prop :=
  ∀ arrival ∈ arrivals, arrival.isFailure = false

theorem receive_of_clear (capacity : ℕ) (timed : Bool) (clear : Clear arrivals) :
    (∀ message, (receive capacity timed arrivals).1 ≠ .failure message) ∧
      (receive capacity timed arrivals).1 ≠ .busy ∧
      ∀ data later, receive capacity timed arrivals = (.bytes data, later) → Clear later := by
  fun_induction receive capacity timed arrivals with
  | case1 | case5 => simp
  | case2 _ ih | case6 _ _ ih => exact ih (List.forall_mem_cons.mp clear).2
  | case3 =>
      refine ⟨by simp, by simp, ?_⟩
      rintro _ _ ⟨rfl, rfl⟩
      exact (List.forall_mem_cons.mp clear).2
  | case4 =>
      refine ⟨by simp, by simp, ?_⟩
      rintro _ _ ⟨rfl, rfl⟩
      exact List.forall_mem_cons.mpr ⟨rfl, (List.forall_mem_cons.mp clear).2⟩
  | case7 =>
      refine ⟨by simp, by simp, ?_⟩
      rintro _ _ ⟨rfl, rfl⟩
      exact clear
  | case8 | case9 => exact absurd (clear _ List.mem_cons_self) (by simp [Arrival.isFailure])

theorem allData_append (arrivals more : List Arrival) :
    allData (arrivals ++ more) = allData arrivals ++ allData more := by
  induction arrivals with
  | nil => rfl
  | cons arrival _ ih =>
      cases arrival with
      | data _ => simp [allData, ih]
      | stall | eof | failure message | abandoned room => exact ih

theorem length_allData_append (arrivals more : List Arrival) :
    (allData arrivals).length ≤ (allData (arrivals ++ more)).length := by
  rw [allData_append, List.length_append]
  exact Nat.le_add_right _ _

theorem receive_append (capacity : ℕ) (timed : Bool) (arrivals more : List Arrival) :
    (receive capacity timed arrivals).1 = .waiting ∨
      receive capacity timed (arrivals ++ more) =
        ((receive capacity timed arrivals).1, (receive capacity timed arrivals).2 ++ more) := by
  induction arrivals with
  | nil => exact .inl rfl
  | cons arrival _ ih =>
      cases arrival with
      | stall =>
          cases timed with
          | true => exact .inr rfl
          | false => exact ih
      | eof | failure message | abandoned room => exact .inr rfl
      | data _ =>
          simp only [receive, List.cons_append]
          split
          · exact ih
          · split
            · exact .inr rfl
            · exact .inr rfl

def Arrival.isClean : Arrival → Bool
  | .data _ => true
  | .eof => true
  | _ => false

theorem allData_filter_isClean (arrivals : List Arrival) :
    allData (arrivals.filter Arrival.isClean) = allData arrivals := by
  induction arrivals with
  | nil => rfl
  | cons arrival _ ih =>
      cases arrival with
      | data piece => exact congrArg (piece ++ ·) ih
      | stall | eof | failure message | abandoned room => exact ih

theorem receive_calm {timed : Bool} {later : List Arrival} {data : Bytes}
    (received : receive capacity timed arrivals = (.bytes data, later)) :
    receive capacity timed (arrivals.filter Arrival.isClean) =
      (.bytes data, later.filter Arrival.isClean) := by
  have kept : ∀ piece rest, (Arrival.data piece :: rest).filter Arrival.isClean =
      .data piece :: rest.filter Arrival.isClean := fun _ _ => rfl
  fun_induction receive capacity timed arrivals with
  | case1 | case5 | case8 | case9 => cases received
  | case2 _ ih =>
      rw [kept, receive_data_nil]
      exact ih received
  | case3 _ _ nonempty fits =>
      cases received
      rw [kept, receive, if_neg nonempty, if_pos fits]
  | case4 _ _ nonempty long =>
      cases received
      rw [kept, receive, if_neg nonempty, if_neg long]
      rfl
  | case6 _ untimed ih =>
      exact ih received
  | case7 =>
      cases received
      rfl

theorem receive_calm_of_waiting {timed : Bool}
    (waiting : (receive capacity timed arrivals).1 = .waiting) :
    (receive capacity timed (arrivals.filter Arrival.isClean)).1 = .waiting := by
  fun_induction receive capacity timed arrivals with
  | case1 => rfl
  | case2 later ih =>
      have kept : (Arrival.data [] :: later).filter Arrival.isClean =
          .data [] :: later.filter Arrival.isClean := rfl
      rw [kept, receive_data_nil]
      exact ih waiting
  | case6 _ _ ih => exact ih waiting
  | case3 | case4 | case5 | case7 | case8 | case9 => cases waiting

theorem contents_append {data : Bytes} (more : List Arrival)
    (clean : contents arrivals = some (data, ended)) :
    contents (arrivals ++ more) = if ended then some (data, true)
      else (contents more).map fun behind => (data ++ behind.1, behind.2) := by
  induction delivers_of_contents clean with
  | nil => simp
  | eof _ => rfl
  | @data _ _ ended _ laterClean _ ih =>
      rw [List.cons_append, contents, ih laterClean]
      cases ended with
      | true => rfl
      | false =>
          simp only [Bool.false_eq_true, if_false, Option.map_map, List.append_assoc]
          rfl

theorem contents_append_of_open {data : Bytes} (more : List Arrival)
    (clean : contents arrivals = some (data, false)) :
    contents (arrivals ++ more) =
      (contents more).map fun behind => (data ++ behind.1, behind.2) :=
  contents_append more clean

theorem eof_mem_of_contents {data : Bytes} (clean : contents arrivals = some (data, ended))
    (final : ended = true) : .eof ∈ arrivals := by
  induction delivers_of_contents clean with
  | nil => cases final
  | eof _ => exact List.mem_cons_self
  | data _ laterClean _ ih => exact List.mem_cons_of_mem _ (ih laterClean final)

theorem exists_contents_filter_isClean (arrivals : List Arrival) :
    ∃ data ended, contents (arrivals.filter Arrival.isClean) = some (data, ended) := by
  induction arrivals with
  | nil => exact ⟨[], false, rfl⟩
  | cons arrival later ih =>
      rcases ih with ⟨data, ended, clean⟩
      cases arrival with
      | stall | failure message | abandoned room => exact ⟨data, ended, clean⟩
      | eof => exact ⟨[], true, rfl⟩
      | data piece =>
          refine ⟨piece ++ data, ended, ?_⟩
          show (contents (later.filter Arrival.isClean)).map _ = _
          rw [clean]
          rfl

theorem contents_receive_of_nothing (capacity : ℕ) (timed : Bool)
    (nothing : contents (arrivals.filter Arrival.isClean) = some ([], ended)) :
    contents ((receive capacity timed arrivals).2.filter Arrival.isClean) = some ([], ended) := by
  fun_induction receive capacity timed arrivals with
  | case1 | case5 | case7 | case8 | case9 => exact nothing
  | case6 _ _ ih => exact ih nothing
  | case2 later ih =>
      apply ih
      rcases Option.map_eq_some_iff.mp nothing with ⟨_, clean, same⟩
      rw [clean, ← same]
      rfl
  | case3 _ _ some_ | case4 _ _ some_ =>
      rcases Option.map_eq_some_iff.mp nothing with ⟨_, -, same⟩
      exact absurd (List.append_eq_nil_iff.mp (Prod.mk.inj same).1).1 some_

theorem contents_settle_of_nothing
    (nothing : contents (arrivals.filter Arrival.isClean) = some ([], ended)) :
    contents ((settle arrivals).filter Arrival.isClean) = some ([], ended) := by
  unfold settle
  split
  next capacity later =>
    have behind : contents (later.filter Arrival.isClean) = some ([], ended) := nothing
    have rest := contents_receive_of_nothing capacity false behind
    split
    · exact nothing
    next taken =>
      rw [taken] at rest
      exact rest
  · exact nothing

theorem contents_filter_of_contents {data : Bytes}
    (clean : contents arrivals = some (data, ended)) :
    contents (arrivals.filter Arrival.isClean) = some (data, ended) := by
  induction delivers_of_contents clean with
  | nil | eof _ => rfl
  | @data later _ _ _ laterClean _ ih =>
      show (contents (later.filter Arrival.isClean)).map _ = _
      rw [ih laterClean]
      rfl

end Corouv.Io
