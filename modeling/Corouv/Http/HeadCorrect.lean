import Corouv.Http.BodyCorrect
import Corouv.Http.Connection

/-!
# Waiting for a message head

What picohttpparser promises, and what follows for the two head loops: on a
connection whose buffer and stream hold some input, the head that is found is the
one the parser finds in the first `max_header_bytes` of the input at once.
-/

namespace Corouv.Http

open Library Io
open EStateM (run_bind run_get run_pure)

variable {head : Type}

/-- No head is complete in `view`. -/
def NoHead (parse : Bytes → ℕ → Parsed head) (view : Bytes) : Prop :=
  ∀ length found, parse view 0 ≠ .complete length found

/-- The contract of the parser: a positive result is unchanged by further bytes and
by a `last_len` that covers only an incomplete head, and what has been found
malformed does not become a head. -/
structure PrefixStable (parse : Bytes → ℕ → Parsed head) : Prop where
  bounds : ∀ {view lastLen length found}, parse view lastLen = .complete length found →
    0 < length ∧ length ≤ view.length
  append : ∀ {view length found}, parse view 0 = .complete length found →
    ∀ more, parse (view ++ more) 0 = .complete length found
  resume : ∀ {view lastLen length found}, NoHead parse (view.take lastLen) →
    (parse view lastLen = .complete length found ↔ parse view 0 = .complete length found)
  malformed : ∀ {view lastLen}, NoHead parse (view.take lastLen) →
    parse view lastLen = .malformed → ∀ more, NoHead parse (view ++ more)

variable {parse : Bytes → ℕ → Parsed head}

theorem PrefixStable.noHead_nil (stable : PrefixStable parse) : NoHead parse [] := by
  intro _ _ complete
  have bounds := stable.bounds complete
  simp only [List.length_nil] at bounds
  omega

variable {text unread : Bytes} {limit : ℕ} {conn : Conn} {ended : Bool}

theorem PrefixStable.take_append (stable : PrefixStable parse) {length : ℕ} {found : head}
    (complete : parse text 0 = .complete length found) (fits : text.length ≤ limit)
    (behind : Bytes) : parse ((text ++ behind).take limit) 0 = .complete length found := by
  rw [List.take_append, List.take_of_length_le fits]
  exact stable.append complete _

theorem PrefixStable.of_take (stable : PrefixStable parse) {input : Bytes} {count length : ℕ}
    {found : head} (complete : parse (input.take count) 0 = .complete length found) :
    parse input 0 = .complete length found := by
  rw [← List.take_append_drop count input]
  exact stable.append complete _

theorem PrefixStable.take_mono (stable : PrefixStable parse) {input : Bytes}
    {count more length : ℕ} {found : head} (le : count ≤ more)
    (complete : parse (input.take count) 0 = .complete length found) :
    parse (input.take more) 0 = .complete length found := by
  rw [← Nat.min_eq_left le, ← List.take_take] at complete
  exact stable.of_take complete

/-- What one pass of a head loop does on a connection that holds `unread`. -/
inductive HeadOutcome (parse : Bytes → ℕ → Parsed head) (conn : Conn) (unread : Bytes)
    (ended : Bool) (limits : Limits) : EStateM.Result Exn Conn (HeadStep head) → Prop
  | complete {length : ℕ} {found : head}
      (seen : parse conn.buffer.view 0 = .complete length found)
      (whole : parse (unread.take limits.maxHeaderBytes) 0 = .complete length found)
      (held : length ≤ conn.buffer.size) :
      HeadOutcome parse conn unread ended limits (.ok (.complete length found) conn)
  | more {conn' : Conn} (after : conn.After conn' unread ended conn.body)
      (size_le : conn'.buffer.size ≤ limits.maxHeaderBytes)
      (fewer : conn'.incoming < conn.incoming)
      (none : NoHead parse (conn'.buffer.view.take conn.buffer.size))
      (single : conn.Trickles → conn'.buffer.size ≤ conn.buffer.size + 1) :
      HeadOutcome parse conn unread ended limits (.ok (.more conn.buffer.size) conn')
  | eof {conn' : Conn} (whole : unread = conn.buffer.view) (final : ended = true)
      (room : conn.buffer.size < limits.maxHeaderBytes)
      (none : NoHead parse (unread.take limits.maxHeaderBytes))
      (buffer_eq : conn'.buffer = conn.buffer) :
      HeadOutcome parse conn unread ended limits (.ok .eof conn')
  | refused {error : Exn} (http : error.isHttpError = true)
      (none : NoHead parse (unread.take limits.maxHeaderBytes)) (conn' : Conn)
      (nonempty : unread ≠ [] ∨ limits.maxHeaderBytes = 0) :
      HeadOutcome parse conn unread ended limits (.error error conn')
  | waiting (none : NoHead parse (unread.take limits.maxHeaderBytes)) (open_ : ended = false)
      (room : unread.length < limits.maxHeaderBytes) :
      HeadOutcome parse conn unread ended limits (.error .suspended conn)

theorem Conn.Holds.take_eq (holds : conn.Holds unread ended) (size_le : conn.buffer.size ≤ limit) :
    ∃ more, unread.take limit = conn.buffer.view ++ more := by
  rcases holds.view_append with ⟨data, rfl⟩
  exact ⟨data.take (limit - conn.buffer.size), by
    rw [List.take_append, BufferCursor.length_view,
      List.take_of_length_le (by simpa using size_le)]⟩

structure HeadErrors.AreHttp (errors : HeadErrors) : Prop where
  malformed : errors.malformed.isHttpError = true
  tooLarge : errors.tooLarge.isHttpError = true

/-- One round of the head loop: a head, an error, the end or more bytes. -/
theorem headStep_of_holds (stable : PrefixStable parse) {errors : HeadErrors}
    (areHttp : errors.AreHttp) (limits : Limits) (deadline : Deadline) {lastLen : ℕ}
    (holds : conn.Holds unread ended) (size_le : conn.buffer.size ≤ limits.maxHeaderBytes)
    (noneYet : NoHead parse (conn.buffer.view.take lastLen)) :
    HeadOutcome parse conn unread ended limits
      ((headStep parse errors limits deadline lastLen).run conn) := by
  rcases holds.take_eq size_le with ⟨ahead, ahead_eq⟩
  cases seen : (if conn.buffer.view = [] then Parsed.incomplete
      else parse conn.buffer.view lastLen) with
  | complete _ _ =>
      simp only [headStep, run_bind, run_get, seen, run_pure]
      split at seen
      · cases seen
      · have first := (stable.resume noneYet).mp seen
        have bounds := stable.bounds seen
        rw [BufferCursor.length_view] at bounds
        apply HeadOutcome.complete first _ bounds.2
        rw [ahead_eq]
        exact stable.append first ahead
  | malformed =>
      simp only [headStep, run_bind, run_get, seen]
      split at seen
      · cases seen
      next nonempty =>
        apply HeadOutcome.refused areHttp.malformed
        · rw [ahead_eq]
          exact stable.malformed noneYet seen ahead
        · left
          rintro rfl
          rcases holds.view_append with ⟨_, split⟩
          exact nonempty (List.append_eq_nil_iff.mp split.symm).1
  | incomplete =>
      have noneSeen : NoHead parse conn.buffer.view := by
        split at seen
        next empty =>
          rw [empty]
          exact stable.noHead_nil
        · intro _ _ complete
          rw [(stable.resume noneYet).mpr complete] at seen
          cases seen
      simp only [headStep, run_bind, run_get, seen]
      by_cases full : conn.buffer.size ≥ limits.maxHeaderBytes
      · simp only [if_pos full]
        have same : unread.take limits.maxHeaderBytes = conn.buffer.view := by
          rw [holds.view_eq_take]
          congr 1
          omega
        apply HeadOutcome.refused areHttp.tooLarge
        · rw [same]
          exact noneSeen
        · by_cases zero : limits.maxHeaderBytes = 0
          · exact .inr zero
          · left
            rintro rfl
            have short := holds.size_le
            simp only [List.length_nil] at short
            omega
      · simp only [if_neg full, run_bind]
        have whole : conn.buffer.view = unread →
            NoHead parse (unread.take limits.maxHeaderBytes) := by
          intro same
          rw [List.take_of_length_le (by rw [Conn.length_of_view_eq same]; exact size_le), ← same]
          exact noneSeen
        rcases readMore_of_holds errors.tooLarge deadline holds
            (by omega : 0 < limits.maxHeaderBytes - conn.buffer.size)
            (by omega : conn.buffer.size + (limits.maxHeaderBytes - conn.buffer.size) ≤
              limits.maxHeaderBytes) with
          ⟨same, stays, waits⟩ | ⟨same, closed, conn', buffer_eq, ends⟩ |
            ⟨_, conn', nonzero, _, reads, after, _, _, single⟩
        · rw [waits]
          have length := Conn.length_of_view_eq same
          exact .waiting (whole same) stays (by omega)
        · rw [ends]
          exact .eof same.symm closed (by omega) (whole same) buffer_eq
        · rw [reads]
          simp only [if_neg nonzero, run_pure]
          have old : conn'.buffer.view.take conn.buffer.size = conn.buffer.view := by
            rw [after.holds.view_eq_take, List.take_take, Nat.min_eq_left (by omega),
              ← holds.view_eq_take]
          refine .more after (by omega) (by omega) (old ▸ noneSeen) fun trickles => ?_
          have one := single trickles
          omega

/-- A parser that knows a single head. -/
def singleHead (text : Bytes) (found : head) (view : Bytes) (_ : ℕ) : Parsed head :=
  if text.isPrefixOf view then .complete text.length found
  else if view.isPrefixOf text then .incomplete
  else .malformed

theorem prefixStable_singleHead (nonempty : text ≠ []) (found : head) :
    PrefixStable (singleHead text found) := by
  have complete_iff : ∀ {view lastLen length found'},
      singleHead text found view lastLen = .complete length found' ↔
        text <+: view ∧ text.length = length ∧ found = found' := by
    intro view _ _ _
    simp only [singleHead, List.isPrefixOf_iff_prefix]
    split
    next present => simp [present]
    next absent =>
      split
      · simp [absent]
      · simp [absent]
  constructor
  · intro view _ _ _ complete
    rcases complete_iff.mp complete with ⟨present, rfl, -⟩
    exact ⟨List.length_pos_iff.mpr nonempty, present.length_le⟩
  · intro view _ _ complete more
    rcases complete_iff.mp complete with ⟨present, same⟩
    exact complete_iff.mpr ⟨present.trans (List.prefix_append view more), same⟩
  · intro view _ _ _ _
    exact complete_iff.trans complete_iff.symm
  · intro view _ _ malformed more _ _ complete
    rcases complete_iff.mp complete with ⟨present, -⟩
    simp only [singleHead, List.isPrefixOf_iff_prefix] at malformed
    rcases List.prefix_or_prefix_of_prefix present (List.prefix_append view more) with here | ahead
    · simp [here] at malformed
    · by_cases here : text <+: view
      · simp [here] at malformed
      · simp [here, ahead] at malformed

end Corouv.Http
