import Corouv.Transport.BearSsl

/-!
# Writing without the peer

A codec in a TLS session that both sides keep open wants input all the time, and takes
at least one byte of plaintext as soon as its ciphertext has been drained.  Writing
through it should therefore not depend on what the peer sends.  It does not exactly when
the codec takes all of the data in the first call of `write_plaintext`: after a call
that took less, `write_all` reads from the peer although the codec would take more.
-/

namespace Corouv.Transport

open Library Io
open EStateM (run_bind run_get run_modify)

variable {κ : Type}

namespace CodecStream

/-- An open session over a TCP stream that takes what is written to it. -/
structure Ready (good : κ → Prop) (state : CodecStream κ) : Prop where
  good : good state.codec
  isOpen : state.stream.isOpen = true
  sends : ∀ departure ∈ state.stream.departures, departure.isFailure = false

/-- `write_all` completes on its own: it does not read from the peer, the codec is handed
exactly `data`, and what ciphertext there is has been written. -/
def WritesAlone (codec : MemoryCodec κ) (data : Bytes) (state : CodecStream κ) : Prop :=
  ∃ turns later, (writeAll codec turns data).run state = .ok () later ∧
    later.reads = state.reads ∧ later.handed = state.handed ++ data ∧
    codec.hasPendingCiphertext later.codec = false ∧
    ∃ ciphertext, later.produced = state.produced ++ ciphertext ∧
      later.stream.written = state.stream.written ++ ciphertext

/-- Once it has been fed the backlog, the codec takes all of `data` in one call. -/
def AcceptsAtOnce (codec : MemoryCodec κ) (data : Bytes) (state : CodecStream κ) : Prop :=
  ∃ fed later, (feedCiphertextBacklog codec).run state = .ok () fed ∧
    (codec.writePlaintext data).run fed.codec = .ok data.length later

/-- From `state` to `later` nothing was read or handed to the codec, and the ciphertext
that was produced was written. -/
structure Conveys (good : κ → Prop) (state later : CodecStream κ) : Prop where
  ready : later.Ready good
  reads_eq : later.reads = state.reads
  handed_eq : later.handed = state.handed
  written : ∃ ciphertext, later.produced = state.produced ++ ciphertext ∧
    later.stream.written = state.stream.written ++ ciphertext

variable {good : κ → Prop} {state middle later : CodecStream κ}

theorem Ready.conveys (ready : state.Ready good) : state.Conveys good state :=
  ⟨ready, rfl, rfl, [], by simp, by simp⟩

theorem Conveys.trans (one : state.Conveys good middle) (two : middle.Conveys good later) :
    state.Conveys good later := by
  rcases one.written with ⟨first, produced, written⟩
  rcases two.written with ⟨second, produced', written'⟩
  refine ⟨two.ready, two.reads_eq.trans one.reads_eq, two.handed_eq.trans one.handed_eq,
    first ++ second, ?_, ?_⟩
  · rw [produced', produced, List.append_assoc]
  · rw [written', written, List.append_assoc]

theorem Conveys.feed (conveys : state.Conveys good middle) {codec : κ} (fine : good codec)
    (backlog : Bytes) (offset : ℕ) :
    state.Conveys good { middle with
      codec := codec, ciphertextBacklog := backlog, ciphertextBacklogOffset := offset } :=
  ⟨⟨fine, conveys.ready.isOpen, conveys.ready.sends⟩, conveys.reads_eq, conveys.handed_eq,
    conveys.written⟩

theorem Conveys.compact (conveys : state.Conveys good middle) :
    state.Conveys good middle.compactCiphertextBacklog := by
  rw [compactCiphertextBacklog]
  split_ifs
  · exact conveys
  · exact conveys.feed conveys.ready.good _ _
  · exact conveys.feed conveys.ready.good _ _

variable {codec : MemoryCodec κ} {pending : κ → ℕ}

/-- A codec that accepts takes the whole backlog. -/
theorem feedCiphertextBacklog_run (accepting : Accepting codec good pending)
    (ready : state.Ready good) :
    ∃ later, (feedCiphertextBacklog codec).run state = .ok () later ∧
      state.Conveys good later := by
  have fed : ∃ middle, (loop .exhausted (feedBacklogTurn codec)
      (state.ciphertextBacklog.length + 1) ()).run state = .ok () middle ∧
        state.Conveys good middle := by
    apply loop_total
      (fun _ now => state.Conveys good now ∧ now.ciphertextBacklog = state.ciphertextBacklog)
      (fun _ now => now.ciphertextBacklog.length - now.ciphertextBacklogOffset)
      (fun result => ∃ middle, result = .ok () middle ∧ state.Conveys good middle)
      _ _ () state ⟨ready.conveys, rfl⟩ (by omega)
    rintro - now ⟨conveys, same⟩
    by_cases waiting : now.hasCiphertextBacklog = true
    · rcases accepting.feeds conveys.ready.good
        (now.ciphertextBacklog.drop now.ciphertextBacklogOffset) with ⟨count, _, run, fine⟩
      simp only [feedBacklogTurn, run_bind, run_get, if_pos waiting, onCodec_run_ok run]
      have further := conveys.feed fine now.ciphertextBacklog
      by_cases none : count = 0
      · simp only [if_pos none]
        exact ⟨_, rfl, further now.ciphertextBacklogOffset⟩
      · simp only [if_neg none]
        refine ⟨⟨further (now.ciphertextBacklogOffset + count), same⟩, ?_⟩
        simp only [hasCiphertextBacklog, decide_eq_true_eq] at waiting
        show now.ciphertextBacklog.length - (now.ciphertextBacklogOffset + count) < _
        omega
    · simp only [feedBacklogTurn, run_bind, run_get, if_neg waiting]
      exact ⟨now, rfl, conveys⟩
  rcases fed with ⟨middle, run, conveys⟩
  refine ⟨middle.compactCiphertextBacklog, ?_, conveys.compact⟩
  simp only [feedCiphertextBacklog, run_bind, run_get, run]
  rfl

variable {data : Bytes} {turns : ℕ}

theorem Ready.tcpWriteAll_run (ready : state.Ready good) (nonempty : data ≠ []) :
    ∃ stream, (tcpWriteAll data).run state.stream = .ok () stream ∧
      stream.written = state.stream.written ++ data ∧ stream.isOpen = true ∧
      ∀ departure ∈ stream.departures, departure.isFailure = false := by
  have sends := ready.sends
  simp only [EStateM.run, tcpWriteAll, if_neg nonempty, if_pos ready.isOpen]
  cases ahead : state.stream.departures with
  | nil => exact ⟨_, rfl, rfl, ready.isOpen, by simp⟩
  | cons departure _ =>
      simp only [ahead, List.mem_cons, forall_eq_or_imp] at sends
      cases departure with
      | sent | stalled => exact ⟨_, rfl, rfl, ready.isOpen, sends.2⟩
      | failed _ _ => exact absurd sends.1 (by simp [Departure.isFailure])

/-- Enough turns send all pending ciphertext. -/
theorem flushCiphertext_run (accepting : Accepting codec good pending)
    (ready : state.Ready good) :
    ∃ later, (∀ turns, pending state.codec < turns →
        (flushCiphertext codec turns).run state = .ok () later) ∧
      state.Conveys good later ∧ codec.hasPendingCiphertext later.codec = false := by
  have drained : ∃ later, (flushCiphertext codec (pending state.codec + 1)).run state =
      .ok () later ∧ state.Conveys good later ∧ codec.hasPendingCiphertext later.codec = false := by
    apply loop_total (fun _ now => state.Conveys good now) (fun _ now => pending now.codec)
      (fun result => ∃ later, result = .ok () later ∧ state.Conveys good later ∧
        codec.hasPendingCiphertext later.codec = false) _ _ () state ready.conveys (by omega)
    intro _ now conveys
    by_cases more : codec.hasPendingCiphertext now.codec = true
    · rcases accepting.drains conveys.ready.good more with ⟨data, after, run, nonempty, fine, fewer⟩
      rcases conveys.ready.tcpWriteAll_run nonempty with ⟨stream, wrote, written, isOpen, sends⟩
      have moved : now.Conveys good { now with
          codec := after, produced := now.produced ++ data, stream := stream } :=
        ⟨⟨fine, isOpen, sends⟩, rfl, rfl, data, rfl, written⟩
      simp only [flushTurn, run_bind, run_get, if_pos more,
        onCodec_run_ok run, if_neg nonempty, run_modify]
      have sent : (onStream (tcpWriteAll data)).run { now with
          codec := after, produced := now.produced ++ data } = .ok () { now with
          codec := after, produced := now.produced ++ data, stream := stream } :=
        onStream_run_ok wrote
      simp only [sent]
      exact ⟨conveys.trans moved, fewer⟩
    · simp only [flushTurn, run_bind, run_get, if_neg more]
      exact ⟨now, rfl, conveys, by simpa using more⟩
  rcases drained with ⟨later, run, conveys⟩
  exact ⟨later, fun turns enough => loop_run_of_le run enough, conveys⟩

theorem conveys_of_flushCiphertext (accepting : Accepting codec good pending)
    (ready : state.Ready good) (ran : (flushCiphertext codec turns).run state = .ok () later) :
    state.Conveys good later := by
  rcases flushCiphertext_run accepting ready with ⟨_, runs, conveys, -⟩
  have longer := loop_run_of_le ran (Nat.le_add_right turns (pending state.codec + 1))
  have same := runs (turns + (pending state.codec + 1)) (by omega)
  cases longer.symm.trans same
  exact conveys

theorem Conveys.hand (conveys : state.Conveys good middle) {codec : κ} (fine : good codec)
    (data : Bytes) : { middle with codec := codec, handed := middle.handed ++ data }.Ready good :=
  ⟨fine, conveys.ready.isOpen, conveys.ready.sends⟩

theorem writeTurn_run_of_acceptsAtOnce {fed flushed refed : CodecStream κ} {after : κ}
    (nonempty : data ≠ []) (feeds : (feedCiphertextBacklog codec).run state = .ok () fed)
    (takes : (codec.writePlaintext data).run fed.codec = .ok data.length after)
    (flushes : (flushCiphertext codec turns).run
      { fed with codec := after, handed := fed.handed ++ data } = .ok () flushed)
    (refeeds : (feedCiphertextBacklog codec).run flushed = .ok () refed) :
    (writeTurn codec turns data 0).run state = .ok (.done ()) refed := by
  have positive : 0 < data.length := List.length_pos_iff.mpr nonempty
  simp only [writeTurn, if_pos positive, List.drop_zero, run_bind, feeds,
    onCodec_run_ok takes, run_modify, List.take_length, flushes, refeeds,
    Nat.zero_add, ge_iff_le, le_refl, if_true]
  rfl

theorem writeAll_run_of_turn {final : CodecStream κ} (isOpen : state.stream.isOpen = true)
    (turn : (writeTurn codec (turns + 1) data 0).run state = .ok (.done ()) middle)
    (flushes : (flushCiphertext codec (turns + 1)).run middle = .ok () final) :
    (writeAll codec (turns + 1) data).run state = .ok () final := by
  simp only [writeAll, run_bind, run_get, if_pos isOpen, loop_run_done turns turn, flushes]

theorem writesAlone_of_acceptsAtOnce (accepting : Accepting codec good pending)
    (ready : state.Ready good) (nonempty : data ≠ []) (atOnce : AcceptsAtOnce codec data state) :
    WritesAlone codec data state := by
  rcases atOnce with ⟨_, after, feeds, takes⟩
  rcases feedCiphertextBacklog_run accepting ready with ⟨_, feeds', fedConveys⟩
  cases feeds.symm.trans feeds'
  rcases accepting.accepts fedConveys.ready.good nonempty with ⟨_, _, takes', fine, -⟩
  cases takes.symm.trans takes'
  have handed := fedConveys.hand fine data
  rcases flushCiphertext_run accepting handed with ⟨_, flushes, flushedConveys, -⟩
  rcases feedCiphertextBacklog_run accepting flushedConveys.ready with
    ⟨refed, refeeds, refedConveys⟩
  rcases flushCiphertext_run accepting refedConveys.ready with
    ⟨final, finishes, finalConveys, drained⟩
  -- Enough turns for both flushes; the outer loop takes one.
  have turn := writeTurn_run_of_acceptsAtOnce nonempty feeds takes
    (flushes (pending after + pending refed.codec + 1) (by dsimp only; omega)) refeeds
  have whole := (flushedConveys.trans refedConveys).trans finalConveys
  refine ⟨pending after + pending refed.codec + 1, final, ?_, ?_, ?_, drained, ?_⟩
  · exact writeAll_run_of_turn ready.isOpen turn (finishes _ (by omega))
  · exact whole.reads_eq.trans fedConveys.reads_eq
  · rw [whole.handed_eq, fedConveys.handed_eq]
  · rcases fedConveys.written with ⟨first, produced, written⟩
    rcases whole.written with ⟨second, produced', written'⟩
    refine ⟨first ++ second, ?_, ?_⟩
    · rw [produced', produced, List.append_assoc]
    · rw [written', written, List.append_assoc]

theorem writesAlone_nil (accepting : Accepting codec good pending) (ready : state.Ready good) :
    WritesAlone codec [] state := by
  rcases flushCiphertext_run accepting ready with ⟨final, finishes, conveys, drained⟩
  refine ⟨pending state.codec + 1, final, ?_, conveys.reads_eq, ?_, drained, conveys.written⟩
  · exact writeAll_run_of_turn ready.isOpen rfl (finishes _ (Nat.lt_succ_self _))
  · rw [conveys.handed_eq, List.append_nil]

section Reads

/-- The TCP stream has been read more than `reads` times. -/
def ReadMore (reads : ℕ) (state : CodecStream κ) : Prop :=
  reads < state.reads

/-- Exceptions are of no interest: what counts is the state after a normal return. -/
abbrev KeepsReadMore {α : Type} (reads : ℕ) (command : Task (CodecStream κ) α) : Prop :=
  Keeps (ReadMore reads) (fun _ => True) command

variable (codec) (reads : ℕ)

theorem keepsReadMore_onCodec {α : Type} (command : Task κ α) :
    KeepsReadMore reads (onCodec command) := by
  apply keeps_onPart (keeps_any command)
  · exact fun _ _ => trivial
  · exact fun _ _ more _ => more

theorem keepsReadMore_onStream {α : Type} (command : Task ByteStream α) :
    KeepsReadMore reads (onStream command : Task (CodecStream κ) α) := by
  apply keeps_onPart (keeps_any command)
  · exact fun _ _ => trivial
  · exact fun _ _ more _ => more

theorem readMore_compact (state : CodecStream κ) (more : ReadMore reads state) :
    ReadMore reads state.compactCiphertextBacklog := by
  rw [compactCiphertextBacklog]
  split_ifs <;> exact more

theorem keepsReadMore_feedBacklogTurn (entry : Unit) :
    KeepsReadMore reads (feedBacklogTurn codec entry) := by
  apply keeps_get_bind
  intro _
  split_ifs
  · apply keeps_bind (keepsReadMore_onCodec reads _)
    intro _
    split_ifs
    · apply keeps_pure
    · apply keeps_bind
      · exact keeps_modify fun _ more => more
      intro _
      apply keeps_pure
  · apply keeps_pure

theorem keepsReadMore_feedCiphertextBacklog :
    KeepsReadMore reads (feedCiphertextBacklog codec) := by
  apply keeps_get_bind
  intro _
  apply keeps_bind
  · exact keeps_loop trivial (keepsReadMore_feedBacklogTurn codec reads) _ ()
  · exact fun _ => keeps_modify (readMore_compact reads)

theorem keepsReadMore_feedBytesTurn (data : Bytes) (offset : ℕ) :
    KeepsReadMore reads (feedBytesTurn codec data offset) := by
  rw [feedBytesTurn]
  split_ifs
  · apply keeps_bind (keepsReadMore_onCodec reads _)
    intro _
    split_ifs
    · apply keeps_bind
      · exact keeps_modify fun _ more => more
      intro _
      apply keeps_pure
    · apply keeps_pure
  · apply keeps_pure

theorem keepsReadMore_feedCiphertextBytes (data : Bytes) :
    KeepsReadMore reads (feedCiphertextBytes codec data) := by
  rw [feedCiphertextBytes]
  split_ifs
  · apply keeps_pure
  · apply keeps_get_bind
    intro _
    split_ifs
    · apply keeps_bind
      · exact keeps_modify fun _ more => more
      exact fun _ => keepsReadMore_feedCiphertextBacklog codec reads
    · exact keeps_loop trivial (keepsReadMore_feedBytesTurn codec reads data) _ 0

theorem keepsReadMore_flushCiphertext (turns : ℕ) :
    KeepsReadMore reads (flushCiphertext codec turns) := by
  refine keeps_loop trivial (fun _ => ?_) turns ()
  apply keeps_get_bind
  intro _
  split_ifs
  · apply keeps_bind (keepsReadMore_onCodec reads _)
    intro _
    split_ifs
    · apply keeps_pure
    · apply keeps_bind
      · exact keeps_modify fun _ more => more
      intro _
      apply keeps_bind (keepsReadMore_onStream reads _)
      intro _
      apply keeps_pure
  · apply keeps_pure

theorem keepsReadMore_afterRead (offset : ℕ) :
    KeepsReadMore reads (do
      let data ← onStream (tcpReadSome 4096)
      if data = [] then throw (.runtime "corouv::transport::CodecStream write hit eof")
      else
        feedCiphertextBytes codec data
        pure (.again offset) : Task (CodecStream κ) (Turn ℕ Unit)) := by
  apply keeps_bind (keepsReadMore_onStream reads _)
  intro data
  split_ifs
  · exact keeps_throw trivial
  · apply keeps_bind (keepsReadMore_feedCiphertextBytes codec reads data)
    intro _
    apply keeps_pure

theorem keepsReadMore_awaitPeer (offset : ℕ) : KeepsReadMore reads (awaitPeer codec offset) := by
  apply keeps_get_bind
  intro _
  split_ifs
  · exact keeps_throw trivial
  · apply keeps_pure
  · exact keeps_throw trivial
  · exact keeps_throw trivial
  · apply keeps_bind
    · exact keeps_modify fun _ more => Nat.lt_succ_of_lt more
    exact fun _ => keepsReadMore_afterRead codec reads offset

theorem keepsReadMore_writeTurn (turns : ℕ) (data : Bytes) (offset : ℕ) :
    KeepsReadMore reads (writeTurn codec turns data offset) := by
  rw [writeTurn]
  split_ifs
  · apply keeps_bind (keepsReadMore_feedCiphertextBacklog codec reads)
    intro _
    apply keeps_bind (keepsReadMore_onCodec reads _)
    intro _
    apply keeps_bind
    · exact keeps_modify fun _ more => more
    intro _
    apply keeps_bind (keepsReadMore_flushCiphertext codec reads turns)
    intro _
    apply keeps_bind (keepsReadMore_feedCiphertextBacklog codec reads)
    intro _
    split_ifs
    · apply keeps_pure
    · apply keepsReadMore_awaitPeer
  · apply keeps_pure

end Reads

section

variable (accepting : Accepting codec good pending) (ready : state.Ready good)
include accepting ready

theorem readMore_of_awaitPeer {offset : ℕ} {verdict : Turn ℕ Unit}
    (ran : (awaitPeer codec offset).run state = .ok verdict later) :
    ReadMore state.reads later := by
  rcases accepting.listens ready.good with ⟨wants, notEof⟩
  rw [awaitPeer, run_bind, run_get] at ran
  simp only [notEof, wants, Bool.false_eq_true, Bool.not_true, if_false] at ran
  split_ifs at ran
  · cases ran
  · exact (keepsReadMore_afterRead codec state.reads offset).of_run_ok (Nat.lt_succ_self _) ran

/-- A write that the codec does not accept at once reads from the peer. -/
theorem readMore_of_writeTurn {data : Bytes} {turns : ℕ} {verdict : Turn ℕ Unit}
    (nonempty : data ≠ []) (notAtOnce : ¬AcceptsAtOnce codec data state)
    (ran : (writeTurn codec turns data 0).run state = .ok verdict later) :
    ReadMore state.reads later := by
  rcases feedCiphertextBacklog_run accepting ready with ⟨fed, feeds, fedConveys⟩
  rcases accepting.accepts fedConveys.ready.good nonempty with ⟨count, after, takes, fine, _, -⟩
  have less : ¬0 + count ≥ data.length := by
    intro _
    apply notAtOnce
    have whole : count = data.length := by omega
    exact ⟨fed, after, feeds, whole ▸ takes⟩
  have positive : 0 < data.length := List.length_pos_iff.mpr nonempty
  simp only [writeTurn, if_pos positive, List.drop_zero] at ran
  rw [run_bind, feeds] at ran
  dsimp only at ran
  rw [run_bind, onCodec_run_ok takes] at ran
  dsimp only at ran
  rw [run_bind, run_modify] at ran
  rcases run_bind_eq_ok ran with ⟨_, _, flushes, ran⟩
  have flushedConveys := conveys_of_flushCiphertext accepting
    (fedConveys.hand fine (data.take count)) flushes
  rcases feedCiphertextBacklog_run accepting flushedConveys.ready with ⟨_, refeeds, refedConveys⟩
  rw [run_bind, refeeds] at ran
  simp only [if_neg less] at ran
  have more := readMore_of_awaitPeer accepting refedConveys.ready ran
  rw [refedConveys.reads_eq, flushedConveys.reads_eq, fedConveys.reads_eq] at more
  exact more

theorem not_writesAlone {data : Bytes} (nonempty : data ≠ [])
    (notAtOnce : ¬AcceptsAtOnce codec data state) : ¬WritesAlone codec data state := by
  rintro ⟨turns, _, ran, reads_eq, -⟩
  rw [writeAll, run_bind, run_get] at ran
  simp only [if_pos ready.isOpen] at ran
  rcases run_bind_eq_ok ran with ⟨_, middle, loops, flushes⟩
  have more : ReadMore state.reads middle := by
    cases turns with
    | zero => cases loops
    | succ turns =>
        rcases run_bind_eq_ok loops with ⟨verdict, _, turn, rest⟩
        have early := readMore_of_writeTurn accepting ready nonempty notAtOnce turn
        cases verdict with
        | done _ =>
            cases rest
            exact early
        | again offset =>
            exact (keeps_loop trivial (keepsReadMore_writeTurn codec state.reads (turns + 1) data)
              turns offset).of_run_ok early rest
  have final := (keepsReadMore_flushCiphertext codec state.reads turns).of_run_ok more flushes
  rw [ReadMore, reads_eq] at final
  exact lt_irrefl _ final

end

/-- A write needs nothing from the peer exactly if there is nothing to write, or the codec, once
it has been fed what came before, takes all of it in one call. -/
theorem writesAlone_iff (accepting : Accepting codec good pending) (ready : state.Ready good)
    (data : Bytes) :
    WritesAlone codec data state ↔ data = [] ∨ AcceptsAtOnce codec data state := by
  by_cases empty : data = []
  · subst empty
    exact ⟨fun _ => .inl rfl, fun _ => writesAlone_nil accepting ready⟩
  · constructor
    · intro alone
      right
      by_contra notAtOnce
      exact not_writesAlone accepting ready empty notAtOnce alone
    · rintro (rfl | atOnce)
      · exact absurd rfl empty
      · exact writesAlone_of_acceptsAtOnce accepting ready empty atOnce

/-- Records of two bytes, and two bytes to write. -/
theorem writesAlone_iff_record :
    (bearSslCodec (recordEngine 2)).handshakeComplete [] = true ∧
      WritesAlone (bearSslCodec (recordEngine 2)) [1, 2] { codec := [] } :=
  ⟨rfl, (writesAlone_iff (openSession_recordEngine (by norm_num)).accepting
    ⟨trivial, rfl, by simp⟩ [1, 2]).mpr (.inr ⟨_, _, rfl, rfl⟩)⟩

/-- Three bytes do not fit in a record of two: `write_all` waits for the peer although the
codec, drained, would take the third. -/
theorem third_byte_awaits_peer :
    Accepting (bearSslCodec (recordEngine 2)) (fun _ => True) List.length ∧
      (bearSslCodec (recordEngine 2)).handshakeComplete [] = true ∧
      ¬WritesAlone (bearSslCodec (recordEngine 2)) [1, 2, 3] { codec := [] } ∧
      (writeAll (bearSslCodec (recordEngine 2)) 9 [1, 2, 3]).run { codec := [] } =
        .error .suspended {
          codec := [], stream := { written := [1, 2] },
          handed := [1, 2], produced := [1, 2], reads := 1 } := by
  have accepting : Accepting (bearSslCodec (recordEngine 2)) (fun _ => True) List.length :=
    (openSession_recordEngine (by norm_num)).accepting
  refine ⟨accepting, rfl, ?_, rfl⟩
  apply not_writesAlone accepting ⟨trivial, rfl, by simp⟩ (by simp)
  rintro ⟨_, _, feeds, takes⟩
  cases feeds
  cases takes

end CodecStream

end Corouv.Transport
