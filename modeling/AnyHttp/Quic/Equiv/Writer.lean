import AnyHttp.Contract
import AnyHttp.Quic.Equiv.Body
import AnyHttp.Quic.Equiv.HalfOpen
import AnyHttp.Quic.Writer

/-!
# The contract of the QUIC writer

A stream ends its body when a `write_eof()` is accepted (`eof_submitted`), and takes that back when
the write carries data and is cancelled before its FIN is handed over; by reference, even after
that, since the stream has been reset.  A writer that is detached remembers an end only if its FIN
has been handed over (`honours`).
-/

namespace AnyHttp.Quic

open Lib

/-! ### The end of the body, along the steps of a sender -/

namespace Sender

variable {s s' : Sender} {cs : List Call} {a : Act}

/-- No step of the sending side ends the body, or takes its end back. -/
theorem Step.eofSubmitted (h : Step s cs s') : s'.tx.eofSubmitted = s.tx.eofSubmitted := by
  cases h with
  | poll => exact (s.tx.sameWrite_carve s.mode).1.eof
  | take room n header => exact (s.sameWrite_taken n _).1.eof
  | _ => rfl

theorem Steps.eofSubmitted (h : Steps s cs s') : s'.tx.eofSubmitted = s.tx.eofSubmitted := by
  induction h with
  | refl => rfl
  | cons hstep _ ih => exact ih.trans hstep.eofSubmitted

/-- Steps do not put another write in the place of the active one. -/
theorem Steps.same_or_over (h : Steps s cs s') (hactive : s'.tx.writeActive = true) :
    s.tx.writeActive = true ∧ s'.tx.writeSource = s.tx.writeSource := by
  induction h with
  | refl => exact ⟨hactive, rfl⟩
  | cons hstep _ ih =>
    obtain ⟨hmid, hsource⟩ := ih hactive
    obtain ⟨hfirst, hsource'⟩ := hstep.same_or_over.2.2 hmid
    exact ⟨hfirst, hsource.trans hsource'⟩

/-- Anything but a write or a cancellation is a sequence of steps. -/
theorem Turn.steps_of (h : Turn s a cs s') (hwrite : ∀ h buffer eof, a ≠ .startWrite h buffer eof)
    (hcancel : ∀ token, a ≠ .cancelWrite token) : Steps s cs s' := by
  cases h with
  | refuse h buffer eof => exact absurd rfl (hwrite h buffer eof)
  | adopt h buffer eof => exact absurd rfl (hwrite h buffer eof)
  | begin h buffer eof => exact absurd rfl (hwrite h buffer eof)
  | cancel => exact absurd rfl (hcancel _)
  | steps hsteps => exact hsteps

end Sender

/-! ### The FIN of a bare end -/

/-- A bare end of the body is over as soon as its FIN is handed over. -/
def Outgoing.EndsAtFin (t : Outgoing) : Prop :=
  t.finOffered = true → t.writeActive = true → t.writeSource ≠ []

namespace QuicStream

variable {q : QuicStream}

/-- The FIN is offered as the last thing that is queued. -/
theorem onOffered_endsAtFin (q : QuicStream) (stop : Nat) (fin : Bool) :
    (q.onOffered stop fin).tx.finOffered = q.tx.finOffered ∨
      (q.onOffered stop fin).tx.EndsAtFin := by
  cases fin with
  | false => exact .inl (Bool.or_false _)
  | true =>
    right
    rcases q.onOffered_cases stop true with heq | ⟨_, _, _, heq⟩
    · intro _ hactive hsource
      rw [heq] at hactive hsource
      -- this is the case in which the write would have been completed
      have hdone :
          q.onOffered stop true = { q with tx := q.tx.offered stop true }.finishActiveWrite :=
        if_pos ⟨rfl, hactive, hsource⟩
      rw [hdone, finishActiveWrite, completeWrite_eq] at heq
      have hover : (false : Bool) = q.tx.writeActive := congrArg (·.tx.writeActive) heq
      exact absurd (hactive.symm.trans hover.symm) (by decide)
    · rw [heq]
      exact fun _ hactive => by cases hactive

/-- Telling who waits changes nothing of the outgoing body, ... -/
theorem completeWrite_tx (q : QuicStream) (h : Option Handler) (ec : ErrorCode) :
    (q.completeWrite h ec).tx = q.tx := by
  rw [completeWrite_eq]

/-- ... nor does `maybe_close()`, ... -/
theorem maybeClose_tx (q : QuicStream) : q.maybeClose.tx = q.tx := by
  unfold maybeClose
  split <;> rfl

/-- ... nor a reset. -/
theorem resetWriting_tx (q : QuicStream) : q.resetWriting.tx = q.tx := by
  unfold resetWriting
  split <;> rfl

/-- Whether the FIN has been offered does not change when the sending side is aborted, ... -/
theorem abortWriting_fin (q : QuicStream) (ec : ErrorCode) :
    (q.abortWriting ec).tx.finOffered = q.tx.finOffered := by
  unfold abortWriting
  dsimp only
  split
  · rfl
  · rw [completeWrite_tx]
    rfl

/-- ... reset by the user, ... -/
theorem userReset_fin (q : QuicStream) (code : Nat) :
    (q.userReset code).tx.finOffered = q.tx.finOffered := by
  unfold userReset
  split
  · rfl
  · exact abortWriting_fin _ _

/-- ... or failed, ... -/
theorem failWriting_fin (q : QuicStream) (ec : ErrorCode) :
    (q.failWriting ec).tx.finOffered = q.tx.finOffered := by
  unfold failWriting
  dsimp only
  rw [maybeClose_tx]
  split
  · rw [completeWrite_tx]
    rfl
  · rfl

/-- ... with the receiving side, ... -/
theorem failReading_tx (q : QuicStream) (ec : ErrorCode) : (q.failReading ec).tx = q.tx := by
  unfold failReading
  dsimp only
  split <;> rfl

/-- ... nor when the writing adapter is released. -/
theorem deleteWriter_fin (q : QuicStream) : q.deleteWriter.tx.finOffered = q.tx.finOffered := by
  unfold deleteWriter
  split
  · rw [maybeClose_tx]
  · dsimp only
    rw [maybeClose_tx]
    split
    · rfl
    · rw [abortWriting_fin, resetWriting_tx]

/-- Bytes that are sent have been offered before. -/
theorem onSent_fin (q : QuicStream) (stop : Nat) :
    (q.onSent stop).tx.finOffered = q.tx.finOffered := by
  unfold onSent
  split
  · rfl
  · dsimp only
    split
    · rfl
    · split
      · rfl
      · split
        · rw [finishActiveWrite, completeWrite_tx]
          rfl
        · rfl

/-- If the body ends with its FIN, it still does. -/
theorem onSent_endsAtFin (hbare : q.tx.EndsAtFin) (stop : Nat) : (q.onSent stop).tx.EndsAtFin := by
  unfold onSent
  split
  · exact hbare
  · dsimp only
    split
    · exact hbare
    · split
      · exact hbare
      · split
        · rw [finishActiveWrite, completeWrite_tx]
          exact fun _ hactive => by cases hactive
        · exact hbare

/-- Bytes that are acknowledged have been sent before. -/
theorem onAcked_fin (q : QuicStream) (stop : Nat) :
    (q.onAcked stop).tx.finOffered = q.tx.finOffered := by
  unfold onAcked
  dsimp only
  split
  · rfl
  · split
    · rw [finishActiveWrite, completeWrite_tx]
      rfl
    · rfl

/-- A write that begins has offered nothing yet. -/
theorem startWrite_fin (q : QuicStream) (h : Option Handler) (buffer : List UInt8) (eof : Bool) :
    (q.startWrite h buffer eof).tx.finOffered = q.tx.finOffered := by
  rcases q.startWrite_cases h buffer eof with ⟨_, ec, heq⟩ | ⟨_, _, _, _, _, _, _, heq⟩ |
    ⟨_, _, _, _, heq⟩
  · rw [heq]
  · rw [heq]
  · rw [heq]
    rfl

/-- A FIN that has been offered is not taken back by a cancellation. -/
theorem cancelWrite_fin (q : QuicStream) (token : Nat) :
    (q.cancelWrite token).tx.finOffered = q.tx.finOffered := by
  rcases q.cancelWrite_cases token with ⟨_, heq⟩ | ⟨h, _, _, ⟨_, _, heq⟩ | ⟨_, heq⟩⟩
  · rw [heq]
  · rw [heq]
  · rw [heq]
    rfl

/-- Nor is it when the stream goes away. -/
theorem detachWriting_fin (q : QuicStream) :
    q.detachWriting.tx.finOffered = q.tx.finOffered := by
  unfold detachWriting
  split
  · rw [completeWrite_tx]
  · rfl

end QuicStream

/-- As long as there is no news of the FIN: a write that begins would be one after the end. -/
theorem Sender.Turn.endsAtFin {s s' : Sender} {a : Act} {cs : List Call} (h : Sender.Turn s a cs s')
    (hinv : s.Inv) (hbare : s.tx.EndsAtFin) (hfin : s'.tx.finOffered = s.tx.finOffered) :
    s'.tx.EndsAtFin := by
  intro hoffered hactive
  have hold : s.tx.finOffered = true := hfin.symm.trans hoffered
  cases h with
  | refuse => exact hbare hold hactive
  | adopt => exact hbare hold hactive
  | begin handler buffer eof _ halive heof =>
    exact absurd ((hinv.tx.fin_ended hold halive).1.symm.trans heof) (by decide)
  | cancel => cases hactive
  | steps hsteps =>
    obtain ⟨hbefore, hsource⟩ := hsteps.same_or_over hactive
    rw [hsource]
    exact hbare hold hbefore

namespace Stream

variable {m m' : Stream} {a : Act}

theorem fail_fin (m : Stream) (ec : ErrorCode) :
    (m.fail ec).q.tx.finOffered = m.q.tx.finOffered := by
  unfold Stream.fail
  dsimp only
  split
  · rw [QuicStream.failReading_tx]
  · rw [QuicStream.failWriting_fin, QuicStream.failReading_tx]

theorem dropWriter_fin (m : Stream) : m.dropWriter.q.tx.finOffered = m.q.tx.finOffered := by
  unfold Stream.dropWriter
  dsimp only
  split
  · exact QuicStream.deleteWriter_fin _
  · split
    · rw [QuicStream.maybeClose_tx]
    · split
      · rw [QuicStream.maybeClose_tx]
        rfl
      · split
        · exact fail_fin _ _
        · rw [QuicStream.maybeClose_tx]

/-- A packet may offer the FIN, with the last byte, ... -/
theorem writePkt_endsAtFin {r : PktResult} (h : m.writePkt r = some m') :
    m'.q.tx.finOffered = m.q.tx.finOffered ∨ m'.q.tx.EndsAtFin := by
  have hpoll : m.q.nextStreamData.1.tx.finOffered = m.q.tx.finOffered := by
    unfold QuicStream.nextStreamData QuicStream.pendingData
    split
    · rfl
    · exact Sender.carve_finOffered _ _
  unfold Stream.writePkt at h
  dsimp only at h
  split at h
  · split at h
    · obtain ⟨_, h⟩ := Option.ite_none_right_eq_some.mp h
      rw [← Option.some.inj h]
      rcases QuicStream.onOffered_endsAtFin m.q.nextStreamData.1 _ _ with heq | hbare
      · exact .inl ((QuicStream.onSent_fin _ _).trans (heq.trans hpoll))
      · exact .inr (QuicStream.onSent_endsAtFin hbare _)
    · rw [← Option.some.inj h]
      exact .inl hpoll
    · rw [← Option.some.inj h]
      exact .inl ((QuicStream.abortWriting_fin _ _).trans hpoll)
  · rw [← Option.some.inj h]
    exact .inl hpoll

/-- ... and so may a frame. -/
theorem dataReader_endsAtFin (m : Stream) (veccnt header : Nat) :
    (m.dataReader veccnt header).q.tx.finOffered = m.q.tx.finOffered ∨
      (m.dataReader veccnt header).q.tx.EndsAtFin := by
  have hpoll : (m.q.pendingData m.q.tx.txOffered veccnt).1.tx.finOffered = m.q.tx.finOffered := by
    unfold QuicStream.pendingData
    split
    · rfl
    · exact Sender.carve_finOffered _ _
  unfold Stream.dataReader
  split
  · exact .inl rfl
  · dsimp only
    split
    · exact .inl hpoll
    · rcases QuicStream.onOffered_endsAtFin (m.q.pendingData m.q.tx.txOffered veccnt).1 _ _ with
        heq | hbare
      · exact .inl (heq.trans hpoll)
      · exact .inr hbare

/-- The FIN is handed over, and that completes a bare end, or nothing changes about it. -/
theorem act_endsAtFin (h : m.act a = some m') :
    m'.q.tx.finOffered = m.q.tx.finOffered ∨ m'.q.tx.EndsAtFin := by
  have hsame : ∀ u, TxSame m u → u.q.tx.finOffered = m.q.tx.finOffered := fun u hu =>
    congrArg (·.tx.finOffered) hu.sender
  unfold Stream.act at h
  cases a with
  | startWrite handler buffer eof =>
    obtain ⟨_, heq⟩ := Option.ite_none_right_eq_some.mp h
    rw [← Option.some.inj heq]
    exact .inl (QuicStream.startWrite_fin _ _ _ _)
  | cancelWrite token =>
    rw [← Option.some.inj h]
    exact .inl (QuicStream.cancelWrite_fin _ _)
  | asyncReadSome handler size =>
    obtain ⟨_, heq⟩ := Option.ite_none_right_eq_some.mp h
    rw [← Option.some.inj heq]
    exact .inl (hsame _ (TxSame.asyncReadSome m handler size))
  | cancelRead =>
    obtain ⟨_, heq⟩ := Option.ite_none_right_eq_some.mp h
    rw [← Option.some.inj heq]
    exact .inl (hsame _ (TxSame.cancelRead m))
  | resetStream code =>
    obtain ⟨_, heq⟩ := Option.ite_none_right_eq_some.mp h
    rw [← Option.some.inj heq]
    exact .inl (QuicStream.userReset_fin _ _)
  | stopSending code =>
    obtain ⟨_, heq⟩ := Option.ite_none_right_eq_some.mp h
    split at heq
    · rw [← Option.some.inj heq]
      exact .inl rfl
    · rw [← Option.some.inj heq]
      exact .inl (hsame _ ((TxSame.call m rfl).trans (TxSame.abortReading _)))
  | submitHeaders =>
    obtain ⟨_, heq⟩ := Option.ite_none_right_eq_some.mp h
    rw [← Option.some.inj heq]
    exact .inl rfl
  | dropReader =>
    obtain ⟨_, heq⟩ := Option.ite_none_right_eq_some.mp h
    rw [← Option.some.inj heq]
    exact .inl (hsame _ (TxSame.dropReader m))
  | dropWriter =>
    obtain ⟨_, heq⟩ := Option.ite_none_right_eq_some.mp h
    rw [← Option.some.inj heq]
    exact .inl (dropWriter_fin m)
  | ret =>
    dsimp only at h
    split at h
    · exact absurd h (by simp)
    case h_2 consumed k frames hframes =>
      rw [← Option.some.inj h]
      exact .inl (congrArg (·.tx.finOffered)
        (TxSame.readLoop { m with frames := frames } _ _ fun m => TxSame.resume m k).sender)
    case h_3 ec frames hframes =>
      rw [← Option.some.inj h]
      exact .inl (QuicStream.failWriting_fin _ _)
  | recvStreamData data fin =>
    obtain ⟨_, heq⟩ := Option.ite_none_right_eq_some.mp h
    split at heq
    · rw [← Option.some.inj heq]
      exact .inl rfl
    · rw [← Option.some.inj heq]
      exact .inl (hsame _ (TxSame.onDataChunk m data fin))
  | recvData data =>
    obtain ⟨_, heq⟩ := Option.ite_none_right_eq_some.mp h
    rw [← Option.some.inj heq]
    exact .inl (hsame _ (TxSame.onDataChunk m data false))
  | endStream =>
    obtain ⟨_, heq⟩ := Option.ite_none_right_eq_some.mp h
    rw [← Option.some.inj heq]
    exact .inl (hsame _ (TxSame.onEof m))
  | streamReset =>
    obtain ⟨_, heq⟩ := Option.ite_none_right_eq_some.mp h
    split at heq
    · rw [← Option.some.inj heq]
      exact .inl (congrArg (·.tx.finOffered)
        (TxSame.abortReading { m with peerReset := true }).sender)
    · rw [← Option.some.inj heq]
      exact .inl rfl
  | streamStopSending =>
    obtain ⟨_, heq⟩ := Option.ite_none_right_eq_some.mp h
    rw [← Option.some.inj heq]
    exact .inl (hsame _ (TxSame.abortReading m))
  | recvStopSending =>
    obtain ⟨_, heq⟩ := Option.ite_none_right_eq_some.mp h
    rw [← Option.some.inj heq]
    exact .inl (QuicStream.abortWriting_fin _ _)
  | writePkt r =>
    obtain ⟨_, heq⟩ := Option.ite_none_right_eq_some.mp h
    exact writePkt_endsAtFin heq
  | acked stop =>
    obtain ⟨_, heq⟩ := Option.ite_none_right_eq_some.mp h
    rw [← Option.some.inj heq]
    exact .inl (QuicStream.onAcked_fin _ _)
  | frame n =>
    obtain ⟨_, heq⟩ := Option.ite_none_right_eq_some.mp h
    rw [← Option.some.inj heq]
    exact .inl rfl
  | dataReader veccnt header =>
    obtain ⟨_, heq⟩ := Option.ite_none_right_eq_some.mp h
    rw [← Option.some.inj heq]
    exact dataReader_endsAtFin m veccnt header
  | packet n =>
    obtain ⟨_, heq⟩ := Option.ite_none_right_eq_some.mp h
    rw [← Option.some.inj heq]
    left
    show (m.q.onWriteOffered n).tx.finOffered = _
    unfold QuicStream.onWriteOffered
    split
    · exact QuicStream.onSent_fin _ _
    · rfl
  | writeAcked n =>
    obtain ⟨_, heq⟩ := Option.ite_none_right_eq_some.mp h
    rw [← Option.some.inj heq]
    left
    show (m.q.onWriteAcked n).tx.finOffered = _
    unfold QuicStream.onWriteAcked
    split
    · exact QuicStream.onAcked_fin _ _
    · rfl
  | fail ec =>
    rw [← Option.some.inj h]
    exact .inl (fail_fin m ec)
  | destroy =>
    obtain ⟨_, heq⟩ := Option.ite_none_right_eq_some.mp h
    rw [← Option.some.inj heq]
    left
    show ({ m.q with
      reader := false, writer := false }.detachReading.detachWriting).tx.finOffered = _
    rw [QuicStream.detachWriting_fin]
    unfold QuicStream.detachReading
    split <;> rfl

/-- **Step lemma**: no bare end stays active behind its FIN. -/
theorem step_endsAtFin (hm : m.Sound) (hbare : m.q.tx.EndsAtFin) (h : m.step a = some m') :
    m'.q.tx.EndsAtFin := by
  obtain ⟨hturn, -⟩ := step_turn hm h
  obtain ⟨u, hu, rfl⟩ := Option.map_eq_some_iff.mp h
  have hcases : u.q.tx.finOffered = m.q.tx.finOffered ∨ u.q.tx.EndsAtFin := by
    split at hu
    · exact .inl (congrArg (·.tx.finOffered) (txSame_actDetached hu).sender)
    · exact act_endsAtFin (m := m.fresh) hu
  rcases hcases with hfin | hdone
  · exact hturn.endsAtFin hm.sender hbare hfin
  · exact hdone

end Stream

/-! ### The contract -/

namespace QuicStream

/-- Cancelling the write with this token takes the end of the body back. -/
def takesBack (q : QuicStream) (token : Nat) : Bool :=
  decide (q.tx.writeToken = token) && q.tx.writeHandler.isSome && q.tx.writeIsEof &&
    !q.tx.writeSource.isEmpty && (q.writeMode == .zeroCopy || !q.tx.finOffered)

/-- **A cancellation takes back the end of the body** if the write that was to end it
is abandoned. -/
theorem cancelWrite_eofSubmitted (q : QuicStream) (token : Nat) :
    (q.cancelWrite token).tx.eofSubmitted = (q.tx.eofSubmitted && !q.takesBack token) := by
  -- no write of this token, a bare end of the body, or one with data
  rcases q.cancelWrite_cases token with
    ⟨hmiss, heq⟩ | ⟨h, hh, htoken, ⟨_, hsource, heq⟩ | ⟨hdata, heq⟩⟩
  · have hnot : q.takesBack token = false := by
      rcases hmiss with htoken | hnone
      · simp [takesBack, htoken]
      · simp [takesBack, hnone]
    rw [heq, hnot, Bool.not_false, Bool.and_true]
  · have hnot : q.takesBack token = false := by simp [takesBack, hsource]
    rw [heq, hnot, Bool.not_false, Bool.and_true]
  · rw [heq]
    show (q.tx.eofSubmitted &&
      !(q.tx.writeIsEof && (q.writeMode == .zeroCopy || !q.tx.finOffered))) = _
    cases heof : q.tx.writeIsEof with
    | false => simp [takesBack, heof]
    | true =>
      have hsource : q.tx.writeSource.isEmpty = false :=
        List.isEmpty_eq_false_iff.mpr fun hs => hdata ⟨heof, hs⟩
      simp [takesBack, heof, hh, htoken, hsource]

/-- **A write ends the body** if it is to, and is accepted. -/
theorem startWrite_eofSubmitted (q : QuicStream) (h : Option Handler) (buffer : List UInt8)
    (eof : Bool) : (q.startWrite h buffer eof).tx.eofSubmitted =
      (q.tx.eofSubmitted || eof && (q.writeAnswer buffer eof).isNone) := by
  -- a write that is refused does not end the body
  cases hanswer : q.writeAnswer buffer eof with
  | some ec =>
    rw [startWrite_of_writeAnswer hanswer, completeWrite_tx]
    simp
  | none =>
    unfold writeAnswer at hanswer
    unfold startWrite
    split_ifs at hanswer with h₁ h₂ h₃ h₄ h₅
    · -- the FIN that is pending is adopted
      rw [if_neg h₁, if_pos h₂, if_neg h₃, if_pos h₄, bindWriteCancellation_eq]
      simp [h₂]
    · rw [if_neg h₁, if_neg h₂, if_neg h₅, bindWriteCancellation_eq]
      simp [QuicStream.call, Outgoing.begin]

end QuicStream

namespace QuicWriter

variable {w w' : QuicWriter} {phase : EndPhase} {a : Act}

/-- The end that has been accepted is taken back: by a cancellation, or because the stream goes away
before the FIN is handed over. -/
def losesEnd (w : QuicWriter) : Act → Bool
  | .cancelWrite token => w.stream.q.takesBack token
  | .destroy => decide (w.handle = .attached) && w.stream.q.tx.eofSubmitted &&
    !w.stream.q.tx.finOffered
  | _ => false

def model : WriterModel QuicWriter Act where
  step := step
  write
    | .startWrite _ buffer eof => some (buffer, eof)
    | _ => none
  answer := writeAnswer
  ready w :=
    match w.handle with
    | .attached => w.stream.q.writeReady
    | .detached _ => true
    | .released => false
  handed w := w.stream.q.tx.finOffered
  withdraws := losesEnd
  detaches
    | .destroy => true
    | _ => false

structure EndInv (w : QuicWriter) (phase : EndPhase) : Prop where
  sound : w.stream.Sound
  bare : w.stream.q.tx.EndsAtFin
  fin : w.stream.q.tx.finOffered = true → phase ≠ .unended
  live : w.handle = .attached ∨ w.stream.destroyed = false →
    (phase = .ended ↔ w.stream.q.tx.eofSubmitted = true)
  gone : ∀ e, w.handle = .detached e → w.stream.destroyed = true
  detached : ∀ e, w.handle = .detached e → (phase = .ended ↔ e = true) ∧
    (w.stream.q.tx.finOffered = true → phase ≠ .withdrawn → e = true)

/-- The body of a new stream has not ended. -/
theorem endInv_init (kind : Kind) (mode : WriteMode) (headers : Bool) :
    EndInv (init kind mode headers) .unended where
  sound := Stream.sound_init kind mode headers
  bare h := by cases h
  fin h := by cases h
  live _ := ⟨(fun h => by cases h), (fun h => by cases h)⟩
  gone _ h := by cases h
  detached _ h := by cases h

/-- The FIN is not handed over before the end has been accepted. -/
theorem EndInv.fin_of_turn (hw : EndInv w phase) {m : Stream} {cs : List Call}
    (hturn : Sender.Turn w.stream.sender a cs m.sender)
    (hdead : w.stream.destroyed = true → m.sender = w.stream.sender)
    (hfin : m.q.tx.finOffered = true) : phase ≠ .unended := by
  cases hold : w.stream.q.tx.finOffered with
  | true => exact hw.fin hold
  | false =>
    have hlive : w.stream.destroyed = false := by
      refine Bool.eq_false_of_not_eq_true fun hd => ?_
      have hsame := congrArg (·.tx.finOffered) (hdead hd)
      exact absurd (hold.symm.trans (hsame.symm.trans hfin)) (by decide)
    obtain ⟨hactive, heof⟩ := hturn.fin hold hfin
    have hended : w.stream.q.tx.eofSubmitted = true := hw.sound.sender.tx.active_eof hactive heof
    rw [(hw.live (.inr hlive)).mpr hended]
    exact fun h => by cases h

/-- What neither asks for the end nor takes it back, with the writer as it was, or released. -/
theorem EndInv.other (hw : EndInv w phase) {m : Stream} (h : w.stream.step a = some m)
    (hwrite : model.write a = none) (hloses : losesEnd w a = false)
    (hcancel : ∀ token, a ≠ .cancelWrite token) {handle : WriterHandle}
    (hhandle : handle = w.handle ∨ handle = .released) :
    EndInv ⟨m, handle⟩ (model.next w a phase) := by
  rw [model.next_of_not_write hwrite hloses]
  have hwrite : ∀ h buffer eof, a ≠ .startWrite h buffer eof := by
    rintro h buffer eof rfl
    cases hwrite
  obtain ⟨hturn, hsound⟩ := Stream.step_turn hw.sound h
  have heof : m.q.tx.eofSubmitted = w.stream.q.tx.eofSubmitted :=
    (hturn.steps_of hwrite hcancel).eofSubmitted
  have hdead := fun hd => Stream.step_destroyed (m := w.stream) hd h
  have hkept : ∀ x, x ≠ .released → handle = x → w.handle = x := by
    rintro x hx rfl
    exact (hhandle.resolve_right hx).symm
  refine ⟨hsound, Stream.step_endsAtFin hw.sound hw.bare h, hw.fin_of_turn hturn hdead, ?_, ?_, ?_⟩
  · intro hlive
    show phase = .ended ↔ m.q.tx.eofSubmitted = true
    rw [heof]
    apply hw.live
    refine hlive.imp (hkept _ (fun h => by cases h)) fun hm => ?_
    exact Bool.eq_false_of_not_eq_true fun hd =>
      absurd ((hturn.later.destroyed hd).symm.trans hm) (by decide)
  · intro e he
    exact hturn.later.destroyed (hw.gone e (hkept _ (fun h => by cases h) he))
  · intro e he
    have he' := hkept (.detached e) (fun h => by cases h) he
    obtain ⟨hended, hfin⟩ := hw.detached e he'
    refine ⟨hended, fun hoffered => hfin ?_⟩
    exact (congrArg (·.tx.finOffered) (hdead (hw.gone e he'))).symm.trans hoffered

/-! ### Writes -/

/-- A write moves the contract where the model of a writer does, ... -/
theorem EndInv.startWrite (hw : EndInv w phase) (hattached : w.handle = .attached) {m : Stream}
    {h : Option Handler} {buffer : List UInt8} {eof : Bool}
    (hstep : w.stream.step (.startWrite h buffer eof) = some m) :
    EndInv ⟨m, .attached⟩ (model.next w (.startWrite h buffer eof) phase) := by
  obtain ⟨hturn, hsound⟩ := Stream.step_turn hw.sound hstep
  have htx : m.q.tx = (w.stream.fresh.q.startWrite h buffer eof).tx := by
    obtain ⟨u, hu, rfl⟩ := Option.map_eq_some_iff.mp hstep
    split at hu
    · cases hu
    · obtain ⟨_, hu⟩ := Option.ite_none_right_eq_some.mp hu
      rw [← Option.some.inj hu]
      rfl
  have hfin : m.q.tx.finOffered = w.stream.q.tx.finOffered := by
    rw [htx]
    exact QuicStream.startWrite_fin _ _ _ _
  have hanswer : w.writeAnswer buffer eof = w.stream.fresh.q.writeAnswer buffer eof := by
    rw [writeAnswer, hattached]
    rfl
  have heof : m.q.tx.eofSubmitted =
      (w.stream.q.tx.eofSubmitted || eof && (w.writeAnswer buffer eof).isNone) := by
    rw [htx, hanswer]
    exact QuicStream.startWrite_eofSubmitted _ _ _ _
  rw [model.next_of_write (a := .startWrite h buffer eof) rfl rfl]
  show EndInv _ (if eof && (w.writeAnswer buffer eof).isNone then .ended else phase)
  refine ⟨hsound, Stream.step_endsAtFin hw.sound hw.bare hstep, ?_, ?_, (fun _ h => by cases h),
    (fun _ h => by cases h)⟩
  · intro hoffered
    split
    · exact fun h => by cases h
    · exact hw.fin (hfin.symm.trans hoffered)
  · intro _
    show _ ↔ m.q.tx.eofSubmitted = true
    rw [heof]
    split
    · rename_i haccepts
      simp [haccepts]
    · rename_i hrefuses
      rw [eq_false_of_ne_true hrefuses, Bool.or_false]
      exact hw.live (.inl hattached)

/-! ### Cancellation -/

/-- ... and so does a cancellation, ... -/
theorem EndInv.cancelWrite (hw : EndInv w phase) {m : Stream} {token : Nat}
    (hstep : w.stream.step (.cancelWrite token) = some m) :
    EndInv ⟨m, w.handle⟩ (model.next w (.cancelWrite token) phase) := by
  obtain ⟨hturn, hsound⟩ := Stream.step_turn hw.sound hstep
  have halive : w.stream.destroyed = false := by
    refine Bool.eq_false_of_not_eq_true fun hd => ?_
    rw [Stream.step, if_pos hd] at hstep
    cases hstep
  have htx : m.q.tx = (w.stream.fresh.q.cancelWrite token).tx := by
    obtain ⟨u, hu, rfl⟩ := Option.map_eq_some_iff.mp hstep
    rw [if_neg (by simp [halive])] at hu
    rw [← Option.some.inj hu]
    rfl
  have hfin : m.q.tx.finOffered = w.stream.q.tx.finOffered := by
    rw [htx]
    exact QuicStream.cancelWrite_fin _ _
  have heof : m.q.tx.eofSubmitted =
      (w.stream.q.tx.eofSubmitted && !w.stream.q.takesBack token) := by
    rw [htx]
    exact QuicStream.cancelWrite_eofSubmitted _ _
  have hpresent : ∀ e, w.handle ≠ .detached e := fun e he =>
    absurd ((hw.gone e he).symm.trans halive) (by decide)
  have hnext : model.next w (.cancelWrite token) phase =
      if w.stream.q.takesBack token then .withdrawn else phase := rfl
  rw [hnext]
  refine ⟨hsound, Stream.step_endsAtFin hw.sound hw.bare hstep, ?_, ?_,
    fun e he => absurd he (hpresent e),
    fun e he => absurd he (hpresent e)⟩
  · intro hoffered
    -- the end of the body is taken back with the write, or is none of it
    split
    · exact fun h => by cases h
    · exact hw.fin (hfin.symm.trans hoffered)
  · intro _
    show _ ↔ m.q.tx.eofSubmitted = true
    rw [heof]
    split
    · rename_i htakes
      simp [htakes]
    · rename_i hkeeps
      rw [eq_false_of_ne_true hkeeps, Bool.not_false, Bool.and_true]
      exact hw.live (.inr halive)

/-! ### The end of the stream -/

/-- ... and the end of the stream. -/
theorem EndInv.destroy (hw : EndInv w phase) {m : Stream}
    (hstep : w.stream.step .destroy = some m) :
    EndInv ⟨m, w.detach⟩ (model.next w .destroy phase) := by
  obtain ⟨hturn, hsound⟩ := Stream.step_turn hw.sound hstep
  have halive : w.stream.destroyed = false := by
    refine Bool.eq_false_of_not_eq_true fun hd => ?_
    rw [Stream.step, if_pos hd] at hstep
    cases hstep
  obtain ⟨hdead, hfin⟩ : m.destroyed = true ∧
      m.q.tx.finOffered = w.stream.q.tx.finOffered := by
    obtain ⟨u, hu, rfl⟩ := Option.map_eq_some_iff.mp hstep
    rw [if_neg (by simp [halive])] at hu
    obtain ⟨_, hu⟩ := Option.ite_none_right_eq_some.mp hu
    rw [← Option.some.inj hu]
    refine ⟨rfl, ?_⟩
    show (QuicStream.detachWriting _).tx.finOffered = _
    rw [QuicStream.detachWriting_fin]
    unfold QuicStream.detachReading
    split <;> rfl
  have hended := hw.live (.inr halive)
  have hpresent : ∀ e, w.handle ≠ .detached e := fun e he =>
    absurd ((hw.gone e he).symm.trans halive) (by decide)
  have hmiss : ∀ {x : EndPhase}, (if losesEnd w .destroy then EndPhase.withdrawn else phase) = x →
      x ≠ .withdrawn → phase = x := by
    intro x hx hne
    split at hx
    · exact absurd hx.symm hne
    · exact hx
  have hnext : model.next w .destroy phase =
      if losesEnd w .destroy then .withdrawn else phase := rfl
  rw [hnext]
  refine ⟨hsound, Stream.step_endsAtFin hw.sound hw.bare hstep, ?_, ?_, fun _ _ => hdead, ?_⟩
  · intro hoffered hx
    exact hw.fin (hfin.symm.trans hoffered) (hmiss hx (fun h => by cases h))
  · rintro (hattached | hlive)
    · exfalso
      simp only [detach] at hattached
      split at hattached
      · cases hattached
      · rename_i hne
        exact hne hattached
    · exact absurd (hdead.symm.trans hlive) (by decide)
  · intro e he
    have hattached : w.handle = .attached := by
      -- the adapter latches if the end of the body has been handed over
      cases hh : w.handle with
      | attached => rfl
      | detached e' => exact absurd hh (hpresent e')
      | released =>
        simp only [detach, hh] at he
        cases he
    have he : (w.stream.q.tx.eofSubmitted && w.stream.q.tx.finOffered) = e := by
      simp only [detach, hattached] at he
      injection he
    have hloses : losesEnd w .destroy =
        (w.stream.q.tx.eofSubmitted && !w.stream.q.tx.finOffered) := by
      simp only [losesEnd, hattached, decide_true, Bool.true_and]
    show ((if _ then _ else _) = _ ↔ _) ∧ (m.q.tx.finOffered = true → (if _ then _ else _) ≠ _ → _)
    rw [hloses, hfin, ← he]
    cases heof : w.stream.q.tx.eofSubmitted with
    | false =>
      have hnot : phase ≠ .ended := fun h => absurd (heof.symm.trans (hended.mp h)) (by decide)
      refine ⟨by simpa using hnot, fun hoffered hne => ?_⟩
      have hunended := hw.fin hoffered
      cases phase with
      | unended => exact absurd rfl hunended
      | ended => exact absurd rfl hnot
      | withdrawn => exact absurd rfl hne
    | true =>
      have hphase := hended.mpr heof
      cases hoffered : w.stream.q.tx.finOffered with
      | true => simp [hphase]
      | false => simp

/-- **Step lemma**: the contract follows the stream. -/
theorem EndInv.step (hw : EndInv w phase) (h : step w a = some w') :
    EndInv w' (model.next w a phase) := by
  unfold QuicWriter.step at h
  cases a with
  | startWrite handler buffer eof =>
    dsimp only at h
    split at h
    · rename_i hattached
      obtain ⟨m, hm, rfl⟩ := Option.map_eq_some_iff.mp h
      exact hw.startWrite hattached hm
    · rename_i e hdetached
      rw [← Option.some.inj h, model.next_of_write (a := .startWrite handler buffer eof) rfl rfl]
      have hanswer : (w.writeAnswer buffer eof).isNone = false := by
        rw [writeAnswer, hdetached]
        dsimp only
        split
        · rfl
        · split <;> rfl
      show EndInv w (if eof && (w.writeAnswer buffer eof).isNone then .ended else phase)
      rw [hanswer, Bool.and_false, if_neg Bool.false_ne_true]
      exact hw
    · cases h
  | dropWriter =>
    dsimp only at h
    split at h
    · obtain ⟨m, hm, rfl⟩ := Option.map_eq_some_iff.mp h
      exact hw.other hm rfl rfl (fun _ h => by cases h) (.inr rfl)
    · rename_i e hdetached
      rw [← Option.some.inj h, model.next_of_not_write (a := .dropWriter) rfl rfl]
      refine ⟨hw.sound, hw.bare, hw.fin, ?_, (fun _ h => by cases h), (fun _ h => by cases h)⟩
      rintro (hattached | hlive)
      · cases hattached
      · exact hw.live (.inr hlive)
    · cases h
  | destroy =>
    obtain ⟨m, hm, rfl⟩ := Option.map_eq_some_iff.mp h
    exact hw.destroy hm
  | cancelWrite token =>
    obtain ⟨m, hm, rfl⟩ := Option.map_eq_some_iff.mp h
    exact hw.cancelWrite hm
  | _ =>
    obtain ⟨m, hm, rfl⟩ := Option.map_eq_some_iff.mp h
    exact hw.other hm rfl rfl (fun _ h => by cases h) (.inl rfl)

/-! ### What the invariant promises -/

/-- **What a writer is told** is what the contract says in its phase. -/
theorem EndInv.contract (hw : EndInv w phase) : model.Contract w phase where
  empty := by
    show w.writeAnswer [] false = some .success
    unfold writeAnswer
    split <;> rfl
  data := by
    intro hended hready data hdata eof
    show w.writeAnswer data eof = some .brokenPipe
    unfold writeAnswer
    -- the stream answers as long as it is there, then what was latched
    cases hh : w.handle with
    | attached =>
      have heof := (hw.live (.inl hh)).mp hended
      simp [QuicStream.writeAnswer, hdata, heof]
    | detached e =>
      have he : e = true := (hw.detached e hh).1.mp hended
      simp [hdata, he]
    | released => simp [model, hh] at hready
  again := by
    rintro ⟨hoffered, hphase⟩ hready
    have hoffered : w.stream.q.tx.finOffered = true := hoffered
    show w.writeAnswer [] true = some .success
    unfold writeAnswer
    cases hh : w.handle with
    | attached =>
      have hended : phase = .ended := by
        have hunended := hw.fin hoffered
        cases phase with
        | unended => exact absurd rfl hunended
        | ended => rfl
        | withdrawn => exact absurd rfl hphase
      have heof := (hw.live (.inl hh)).mp hended
      have hidle : w.stream.q.tx.writeActive = false := by
        refine Bool.eq_false_of_not_eq_true fun hactive => ?_
        have hready : w.stream.q.writeReady = true := by simpa [model, hh] using hready
        simp only [QuicStream.writeReady, hactive, Bool.not_true, Bool.false_or,
          Bool.and_eq_true, List.isEmpty_iff] at hready
        exact hw.bare hoffered hactive hready.2
      simp [QuicStream.writeAnswer, heof, hidle, hoffered]
    | detached e =>
      have he : e = true := (hw.detached e hh).2 hoffered hphase
      simp [he]
    | released => simp [model, hh] at hready
  withdrawn := by
    intro hwithdrawn hready data hdata eof
    have hnot : phase ≠ .ended := by
      rw [hwithdrawn]
      exact fun h => by cases h
    show w.writeAnswer data eof ≠ some .brokenPipe
    unfold writeAnswer
    cases hh : w.handle with
    | attached =>
      have heof : w.stream.q.tx.eofSubmitted = false :=
        Bool.eq_false_of_not_eq_true fun h => hnot ((hw.live (.inl hh)).mpr h)
      cases hover : w.stream.q.sendingOver <;> simp [QuicStream.writeAnswer, hdata, heof, hover]
    | detached e =>
      have he : e = false := Bool.eq_false_of_not_eq_true fun h =>
        hnot ((hw.detached e hh).1.mpr h)
      simp [hdata, he]
    | released => simp [model, hh] at hready

/-- The FIN stays handed over. -/
theorem fin_of_onStream {handle : WriterHandle} (hsound : w.stream.Sound)
    (h : w.onStream a handle = some w') (hfin : w.stream.q.tx.finOffered = true) :
    w'.stream.q.tx.finOffered = true := by
  obtain ⟨m, hm, rfl⟩ := Option.map_eq_some_iff.mp h
  exact ((Stream.step_turn hsound hm).1.ended hsound.sender hfin).fin

theorem EndInv.kept (hw : EndInv w phase) (h : QuicWriter.step w a = some w') :
    model.Kept w a w' where
  handed := by
    intro hfin
    show w'.stream.q.tx.finOffered = true
    unfold QuicWriter.step at h
    split at h
    · split at h
      · exact fin_of_onStream hw.sound h hfin
      · rw [← Option.some.inj h]
        exact hfin
      · cases h
    · split at h
      · exact fin_of_onStream hw.sound h hfin
      · rw [← Option.some.inj h]
        exact hfin
      · cases h
    · exact fin_of_onStream hw.sound h hfin
    · exact fin_of_onStream hw.sound h hfin
  detached := by
    intro hdetach hfin
    cases a with
    | destroy =>
      show (decide (w.handle = .attached) && w.stream.q.tx.eofSubmitted &&
        !w.stream.q.tx.finOffered) = false
      have hfin : w.stream.q.tx.finOffered = true := hfin
      rw [hfin, Bool.not_true, Bool.and_false]
    | _ => cases hdetach

/-- **The QUIC writer honours the contract**, in both write modes, in every run. -/
theorem honours (kind : Kind) (mode : WriteMode) (headers : Bool) :
    model.Honours (init kind mode headers) :=
  model.honours_of_inv (endInv_init kind mode headers) (fun _ _ _ _ hw h => hw.step h)
    (fun _ _ hw => hw.contract) fun _ _ _ _ hw h => hw.kept h

end QuicWriter

end AnyHttp.Quic
