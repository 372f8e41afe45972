import AnyHttp.Contract
import AnyHttp.H2.Equiv.Outgoing

/-!
# The contract of the HTTP/2 writer

The stream keeps apart what the user has asked for (`eof_requested`), which cancellation does not
take back, and what nghttp2 has been told (`eof_submitted`).  A writer that is detached remembers
the latter only: an end that has been accepted, but not handed over, goes away with the stream
(`honours`).
-/

namespace AnyHttp.H2.Stream

open Lib

variable {m t : Stream} {a : Action} {phase : EndPhase}

/-- The stream goes away with an end that nghttp2 has not been told of. -/
def losesEnd (m : Stream) : Action → Bool
  | .destroy => m.writer && m.tx.eofRequested && !m.tx.eofSubmitted
  | _ => false

def model : WriterModel Stream Action where
  step := step
  write
    | .asyncWrite _ buffer eof => some (buffer, eof)
    | _ => none
  answer := writeAnswer
  ready m := decide (m.writerHandle ≠ .released) && m.tx.writeHandler.isNone
  handed m := m.ended.isSome
  withdraws := losesEnd
  detaches
    | .destroy => true
    | _ => false

structure EndInv (m : Stream) (phase : EndPhase) : Prop where
  writer : m.writer = true → m.writerHandle = .attached
  gone : ∀ e, m.writerHandle = .detached e → m.destroyed = true
  attached : m.writerHandle = .attached → (phase = .ended ↔ m.tx.eofRequested = true)
  detached : ∀ e, m.writerHandle = .detached e →
    (phase = .ended ↔ e = true) ∧ (m.tx.eofSubmitted = true → e = true)

theorem endInv_fresh (hm : Fresh m) : EndInv m .unended := by
  obtain ⟨_, _, rfl | rfl⟩ := hm
  · refine ⟨fun _ => rfl, ?_, ?_, ?_⟩
    · intro _ h
      cases h
    · intro _
      constructor <;> intro h <;> cases h
    · intro _ h
      cases h
  · refine ⟨fun _ => rfl, ?_, ?_, ?_⟩
    · intro _ h
      cases h
    · intro _
      constructor <;> intro h <;> cases h
    · intro _ h
      cases h

/-- Nothing changes but that nghttp2 may learn of the end, as long as there is a stream. -/
theorem EndInv.of_eq (hm : EndInv m phase) (hwriter : t.writer = m.writer)
    (hhandle : t.writerHandle = m.writerHandle)
    (hdestroyed : m.destroyed = true → t.destroyed = true)
    (hrequested : t.tx.eofRequested = m.tx.eofRequested)
    (hsubmitted : m.destroyed = true → t.tx.eofSubmitted = m.tx.eofSubmitted) : EndInv t phase := by
  constructor
  · rw [hwriter, hhandle]
    exact hm.writer
  · rw [hhandle]
    exact fun e he => hdestroyed (hm.gone e he)
  · rw [hhandle, hrequested]
    exact hm.attached
  · rw [hhandle]
    intro e he
    rw [hsubmitted (hm.gone e he)]
    exact hm.detached e he

theorem EndInv.of_untouched (hm : EndInv m phase) (h : Untouched m t) : EndInv t phase := by
  have hout := h.outgoing
  simp only [outgoing, Prod.mk.injEq, Outgoing.mk.injEq, true_and] at hout
  obtain ⟨_, ⟨_, _, _, _, hrequested, hsubmitted⟩, _⟩ := hout
  refine hm.of_eq h.writer h.writerHandle ?_ hrequested fun _ => hsubmitted
  intro hd
  exact Bool.eq_true_of_not_eq_false fun ht => absurd (hd.symm.trans (h.destroyed ht)) (by decide)

theorem keeps_endInv (phase : EndPhase) : Keeps fun m => EndInv m phase :=
  keeps_of_untouched (fun _ _ hm h => hm.of_untouched h)
    fun _ _ _ _ hm => hm.of_eq rfl rfl id rfl fun _ => rfl

theorem EndInv.cancelWrite (hm : EndInv m phase) : EndInv m.cancelWrite phase := by
  unfold Stream.cancelWrite
  split
  · exact hm.of_eq rfl rfl id rfl fun _ => rfl
  · split
    · exact hm.of_eq rfl rfl id rfl fun _ => rfl
    · exact hm

/-- As long as there is a stream, nghttp2 may learn of the end. -/
theorem EndInv.of_alive (hm : EndInv m phase) (halive : m.destroyed = false)
    (hwriter : t.writer = m.writer) (hhandle : t.writerHandle = m.writerHandle)
    (hrequested : t.tx.eofRequested = m.tx.eofRequested) : EndInv t phase :=
  hm.of_eq hwriter hhandle (fun hd => absurd (hd.symm.trans halive) (by decide)) hrequested
    fun hd => absurd (hd.symm.trans halive) (by decide)

theorem EndInv.producerCallback (hm : EndInv m phase) (halive : m.destroyed = false)
    (length : Nat) : EndInv (m.producerCallback length) phase := by
  unfold Stream.producerCallback
  split
  · exact hm
  · split
    · exact hm.of_alive halive rfl rfl rfl
    · split
      · dsimp only
        split
        · split
          · exact hm.of_alive halive rfl rfl rfl
          · exact hm.of_alive halive rfl rfl rfl
        · exact hm.of_alive halive rfl rfl rfl
      · exact hm.of_alive halive rfl rfl rfl

theorem EndInv.dataReader (hm : EndInv m phase) (halive : m.destroyed = false) (mode : WriteMode)
    (veccnt : Nat) : EndInv (m.dataReader mode veccnt) phase := by
  unfold Stream.dataReader
  split
  · split
    · exact hm.of_alive halive rfl rfl rfl
    · exact hm.of_alive halive rfl rfl rfl
  · dsimp only
    split
    · split
      · exact hm.of_alive halive rfl rfl rfl
      · exact hm.of_alive halive rfl rfl rfl
    · split
      · exact hm.of_alive halive rfl rfl rfl
      · -- whether the write completes or not, and with the end or without it
        cases mode <;> dsimp only <;> split <;> split <;> exact hm.of_alive halive rfl rfl rfl

theorem EndInv.onWriteOffset (hm : EndInv m phase) (halive : m.destroyed = false)
    (mode : WriteMode) (len : Nat) : EndInv (m.onWriteOffset mode len) phase := by
  unfold Stream.onWriteOffset
  dsimp only
  split
  · exact hm.of_alive halive rfl rfl rfl
  · split
    · exact hm.of_alive halive rfl rfl rfl
    · split
      · exact hm.of_alive halive rfl rfl rfl
      · exact hm.of_alive halive rfl rfl rfl

/-! ### The user, and the end of the stream -/

theorem writeAnswer_eq_none {buffer : List UInt8} {eof : Bool} (h : m.writeAnswer buffer eof = none)
    (e : Bool) : m.writerHandle ≠ .detached e := by
  intro hd
  simp only [writeAnswer, hd] at h
  split_ifs at h

theorem EndInv.resume (hm : EndInv m phase) : EndInv m.resume phase := by
  unfold Stream.resume
  split
  · exact hm.of_eq rfl rfl id rfl fun _ => rfl
  · exact hm.of_eq rfl rfl id rfl fun _ => rfl

/-- A write that is accepted: the stream is there. -/
theorem EndInv.beginWrite (hm : EndInv m phase) {buffer : List UInt8} {eof : Bool}
    (hnone : m.writeAnswer buffer eof = none) (h : Handler) :
    EndInv (m.beginWrite h buffer eof) (if eof = true then .ended else phase) where
  writer := hm.writer
  gone := hm.gone
  attached := by
    intro hattached
    show _ ↔ (m.tx.eofRequested || eof) = true
    rw [Bool.or_eq_true, ← hm.attached hattached]
    cases eof with
    | true => simp
    | false => simp
  detached := fun e he => absurd he (writeAnswer_eq_none hnone e)

theorem EndInv.asyncWrite (hm : EndInv m phase) (h : Handler) (buffer : List UInt8) (eof : Bool) :
    EndInv (m.asyncWrite h buffer eof) (model.next m (.asyncWrite h buffer eof) phase) := by
  unfold Stream.asyncWrite
  rw [model.next_of_write (a := .asyncWrite h buffer eof) rfl rfl]
  show EndInv _ (if eof && (m.writeAnswer buffer eof).isNone then .ended else phase)
  cases hanswer : m.writeAnswer buffer eof with
  | some ec =>
    rw [Option.isNone_some, Bool.and_false, if_neg Bool.false_ne_true]
    exact hm.of_eq rfl rfl id rfl fun _ => rfl
  | none =>
    rw [Option.isNone_none, Bool.and_true]
    exact (hm.beginWrite hanswer h).resume

theorem EndInv.dropWriter (hm : EndInv m phase) : EndInv m.dropWriter phase := by
  unfold Stream.dropWriter
  split
  · refine EndInv.of_untouched ?_ (untouched_maybeCloseStream _)
    constructor
    · intro h
      cases h
    · intro _ h
      cases h
    · intro h
      cases h
    · intro _ h
      cases h
  · rename_i hhandle
    refine ⟨fun hwriter => absurd (hm.writer hwriter) hhandle, ?_, ?_, ?_⟩
    · intro _ h
      cases h
    · intro h
      cases h
    · intro _ h
      cases h

/-- What is left of the writer when the stream goes away. -/
theorem destroy_writer (m : Stream) :
    m.destroy.writer = false ∧ m.destroy.destroyed = true ∧
      m.destroy.writerHandle = (if m.writer then .detached m.tx.eofSubmitted else m.writerHandle) ∧
      m.destroy.tx.eofRequested = m.tx.eofRequested ∧
      m.destroy.tx.eofSubmitted = m.tx.eofSubmitted := by
  unfold destroy
  dsimp only
  split <;> split <;> split <;> exact ⟨rfl, rfl, rfl, rfl, rfl⟩

/-- nghttp2 is not told of an end that nobody has asked for, ... -/
theorem IsSending.requested (hs : IsSending m) (h : m.tx.eofSubmitted = true) :
    m.tx.eofRequested = true := by
  obtain ⟨-, ws, cur, hs⟩ := hs
  exact (hs.submitted h).1

/-- ... and the stream knows what it has told. -/
theorem IsSending.submitted (hs : IsSending m) (h : m.ended.isSome = true) :
    m.tx.eofSubmitted = true := by
  obtain ⟨-, ws, cur, hs⟩ := hs
  refine Bool.eq_true_of_not_eq_false fun hsub => ?_
  rw [(hs.unsubmitted hsub).1] at h
  cases h

theorem EndInv.destroy (hm : EndInv m phase) (hs : IsSending m) :
    EndInv m.destroy (model.next m .destroy phase) := by
  obtain ⟨hwriter, hgone, hhandle, hrequested, hsubmitted⟩ := destroy_writer m
  refine ⟨fun h => absurd (hwriter.symm.trans h) (by decide), fun _ _ => hgone, ?_, ?_⟩
  · intro hattached
    cases hw : m.writer with
    | true =>
      rw [hhandle, hw, if_pos rfl] at hattached
      cases hattached
    | false =>
      rw [hhandle, hw, if_neg Bool.false_ne_true] at hattached
      rw [hrequested, model.next_of_neither ?_ rfl]
      · exact hm.attached hattached
      · show (m.writer && m.tx.eofRequested && !m.tx.eofSubmitted) = false
        rw [hw, Bool.false_and, Bool.false_and]
  · intro e he
    cases hw : m.writer with
    | true =>
      rw [hhandle, hw, if_pos rfl] at he
      have he : m.tx.eofSubmitted = e := by injection he
      rw [hsubmitted, he]
      refine ⟨?_, id⟩
      have hloses : model.withdraws m .destroy = (m.tx.eofRequested && !e) := by
        show (m.writer && m.tx.eofRequested && !m.tx.eofSubmitted) = _
        rw [hw, Bool.true_and, he]
      have hended := hm.attached (hm.writer hw)
      cases e with
      | true =>
        rw [model.next_of_neither (hloses.trans (Bool.and_false _)) rfl, hended]
        exact ⟨fun _ => rfl, fun _ => hs.requested he⟩
      | false =>
        cases hr : m.tx.eofRequested with
        | true =>
          rw [model.next_of_withdraws (hloses.trans (by rw [hr]; rfl))]
          constructor <;> intro h <;> cases h
        | false =>
          rw [model.next_of_neither (hloses.trans (by rw [hr]; rfl)) rfl, hended, hr]
    | false =>
      rw [hhandle, hw, if_neg Bool.false_ne_true] at he
      rw [hsubmitted, model.next_of_neither ?_ rfl]
      · exact hm.detached e he
      · show (m.writer && m.tx.eofRequested && !m.tx.eofSubmitted) = false
        rw [hw, Bool.false_and, Bool.false_and]

theorem EndInv.step (hm : EndInv m phase) (hs : IsSending m) (h : step m a = some t) :
    EndInv t (model.next m a phase) := by
  -- what asks for the end, or takes it back
  by_cases hspecial : (∃ h' buffer eof, a = .asyncWrite h' buffer eof) ∨ a = .destroy
  · rcases hspecial with ⟨h', buffer, eof, rfl⟩ | rfl
    · obtain ⟨_, h⟩ := Option.ite_none_right_eq_some.mp h
      rw [← Option.some.inj h]
      exact hm.asyncWrite h' buffer eof
    · obtain ⟨_, h⟩ := Option.ite_none_right_eq_some.mp h
      rw [← Option.some.inj h]
      exact hm.destroy hs
  · rw [not_or, not_exists] at hspecial
    obtain ⟨hwrite, hdestroy⟩ := hspecial
    have hnext : model.next m a phase = phase := by
      apply model.next_of_neither
      · show losesEnd m a = false
        unfold losesEnd
        split
        · exact absurd rfl hdestroy
        · rfl
      · unfold WriterModel.accepts
        split
        · rename_i hw
          simp only [model] at hw
          split at hw
          · exact absurd ⟨_, _, rfl⟩ (hwrite _)
          · cases hw
        · rfl
    rw [hnext]
    exact step_keeps (fun _ _ hm h => hm.of_untouched h) (keeps_endInv phase)
      (fun h' buffer eof ha => absurd ⟨buffer, eof, ha⟩ (hwrite h')) hm.cancelWrite
      (fun length _ halive _ => hm.producerCallback halive length)
      (fun mode veccnt _ _ _ halive _ => hm.dataReader halive mode veccnt)
      (fun mode len _ _ halive _ _ => hm.onWriteOffset halive mode len)
      (fun _ => hm.dropWriter) (fun ha => absurd ha hdestroy) hm h

/-- A writer that the user has is attached, or detached. -/
theorem attached_of_ready (hready : model.ready m = true)
    (hne : ∀ e, m.writerHandle ≠ .detached e) : m.writerHandle = .attached := by
  have hheld : m.writerHandle ≠ .released := by
    simp only [model, Bool.and_eq_true, decide_eq_true_eq] at hready
    exact hready.1
  cases h : m.writerHandle with
  | attached => rfl
  | detached e => exact absurd h (hne e)
  | released => exact absurd h hheld

theorem EndInv.contract (hm : EndInv m phase) (hs : IsSending m) : model.Contract m phase where
  empty := by
    show m.writeAnswer [] false = some .success
    unfold writeAnswer
    split <;> rfl
  data := by
    intro hended hready data hdata eof
    show m.writeAnswer data eof = some .brokenPipe
    unfold writeAnswer
    split
    · rename_i e he
      have hlatched : e = true := (hm.detached e he).1.mp hended
      simp [hdata, hlatched]
    · rename_i hne
      have hrequested := (hm.attached (attached_of_ready hready hne)).mp hended
      simp [hdata, hrequested]
  again := by
    rintro ⟨hhanded, _⟩ hready
    have hsubmitted := hs.submitted hhanded
    show m.writeAnswer [] true = some .success
    unfold writeAnswer
    split
    · rename_i e he
      have hlatched : e = true := (hm.detached e he).2 hsubmitted
      simp [hlatched]
    · simp [hsubmitted, hs.requested hsubmitted]
  withdrawn := by
    intro hwithdrawn hready data hdata eof
    have hnot : phase ≠ .ended := by
      rw [hwithdrawn]
      intro h
      cases h
    show m.writeAnswer data eof ≠ some .brokenPipe
    unfold writeAnswer
    split
    · rename_i e he
      have hlatched : e = false := Bool.eq_false_of_not_eq_true fun h =>
        hnot ((hm.detached e he).1.mpr h)
      simp [hdata, hlatched]
    · rename_i hne
      have hrequested : m.tx.eofRequested = false := Bool.eq_false_of_not_eq_true fun h =>
        hnot ((hm.attached (attached_of_ready hready hne)).mpr h)
      cases hclosed : m.closed <;> simp [hdata, hrequested]

/-- nghttp2 is not told of an end twice, and does not forget. -/
theorem IsSending.ended_of_step (hs : IsSending m) (h : Stream.step m a = some t)
    (hended : m.ended.isSome = true) : t.ended.isSome = true := by
  have hsealed : Sealed m.handed m := ⟨hs.submitted hended, rfl⟩
  obtain ⟨-, ws, cur, ht⟩ := hs.step h
  rw [(ht.submitted (hsealed.step hs h).1).2.1]
  rfl

theorem IsSending.kept (hs : IsSending m) (h : Stream.step m a = some t) : model.Kept m a t where
  handed := hs.ended_of_step h
  detached := by
    intro hdetach hended
    cases a with
    | destroy =>
      show (m.writer && m.tx.eofRequested && !m.tx.eofSubmitted) = false
      rw [hs.submitted hended, Bool.not_true, Bool.and_false]
    | _ => cases hdetach

/-- **The HTTP/2 writer honours the contract**, with either version of nghttp2, in every run. -/
theorem honours (hm : Fresh m) : model.Honours m :=
  model.honours_of_inv (I := fun m phase => EndInv m phase ∧ IsSending m)
    ⟨endInv_fresh hm, isSending_fresh hm⟩
    (fun _ _ _ _ hm h => ⟨hm.1.step hm.2 h, hm.2.step h⟩) (fun _ _ hm => hm.1.contract hm.2)
    fun _ _ _ _ hm h => hm.2.kept h

end AnyHttp.H2.Stream
