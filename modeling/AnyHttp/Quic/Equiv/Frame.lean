import AnyHttp.Quic.Receiver
import AnyHttp.Quic.Sender

/-!
# What an operation leaves alone

Reading and writing share a stream, but not its state: what the operations of one direction do is
invisible to the other, except that either of them can find the stream closed.  `RxSame q q'` says
that `q'` is `q` as far as the reading side can tell, `TxSame m m'` the same of the writing side.
Both are preorders, so that they are proved of each function from the ones it is made of.
-/

namespace AnyHttp.Quic

/-- The calls that are about the outgoing body. -/
def Call.aboutWriting : Call → Bool
  | .completeWrite .. => true
  | .onCancel _ (.write _) => true
  | _ => false

namespace QuicStream

/-- `q'` has made further calls after those of `q`, none of them of the kind `p`. -/
def CallsAvoid (p : Call → Bool) (q q' : QuicStream) : Prop :=
  ∃ cs, q'.calls = q.calls ++ cs ∧ ∀ c ∈ cs, p c = false

/-- The reading side has not been touched. -/
structure RxSame (q q' : QuicStream) : Prop where
  rx : q'.rx = q.rx
  reader : q'.reader = q.reader
  readAborted : q'.readAborted = q.readAborted
  kind : q'.kind = q.kind
  writeMode : q'.writeMode = q.writeMode
  /-- HTTP/3 can only reset the stream as a whole. -/
  closed : q'.closed = q.closed ∨ q.kind = .http3 ∧ q'.closed = true
  calls : CallsAvoid Call.aboutReading q q'

variable {p : Call → Bool} {q q' q'' : QuicStream}

theorem CallsAvoid.refl : CallsAvoid p q q := ⟨[], by simp, by simp⟩

/-- Without calls, there are none to avoid. -/
theorem CallsAvoid.of_eq (h : q'.calls = q.calls) : CallsAvoid p q q' := ⟨[], by simp [h], by simp⟩

/-- Calls that two functions avoid are avoided by one after the other. -/
theorem CallsAvoid.trans (h₁ : CallsAvoid p q q') (h₂ : CallsAvoid p q' q'') :
    CallsAvoid p q q'' := by
  obtain ⟨cs, hcs, hp⟩ := h₁
  obtain ⟨ds, hds, hp'⟩ := h₂
  refine ⟨cs ++ ds, by rw [hds, hcs, List.append_assoc], ?_⟩
  intro c hc
  rcases List.mem_append.mp hc with hc | hc
  · exact hp c hc
  · exact hp' c hc

/-- A call that is not among them may be made. -/
theorem callsAvoid_call {c : Call} (hc : p c = false) : CallsAvoid p q (q.call c) :=
  ⟨[c], rfl, by simpa using hc⟩

namespace RxSame

theorem refl (q : QuicStream) : RxSame q q := ⟨rfl, rfl, rfl, rfl, rfl, Or.inl rfl, .refl⟩

theorem trans (h₁ : RxSame q q') (h₂ : RxSame q' q'') : RxSame q q'' where
  rx := h₂.rx.trans h₁.rx
  reader := h₂.reader.trans h₁.reader
  readAborted := h₂.readAborted.trans h₁.readAborted
  kind := h₂.kind.trans h₁.kind
  writeMode := h₂.writeMode.trans h₁.writeMode
  closed := by
    rcases h₁.closed, h₂.closed with ⟨h | ⟨hkind, h⟩, h' | ⟨hkind', h'⟩⟩
    · exact Or.inl (h'.trans h)
    · exact Or.inr ⟨h₁.kind ▸ hkind', h'⟩
    · exact Or.inr ⟨hkind, h'.trans h⟩
    · exact Or.inr ⟨hkind, h'⟩
  calls := h₁.calls.trans h₂.calls

/-- A call that is not about reading leaves the reading side alone. -/
theorem call (q : QuicStream) {c : Call} (hc : c.aboutReading = false) : RxSame q (q.call c) :=
  ⟨rfl, rfl, rfl, rfl, rfl, Or.inl rfl, callsAvoid_call hc⟩

/-- So does whatever happens to the outgoing body. -/
theorem setTx (q : QuicStream) (t : Outgoing) : RxSame q { q with tx := t } :=
  ⟨rfl, rfl, rfl, rfl, rfl, Or.inl rfl, .of_eq rfl⟩

/-- The completion of a write is not about reading. -/
theorem completeWrite (q : QuicStream) (h : Option Handler) (ec : ErrorCode) :
    RxSame q (q.completeWrite h ec) := by
  cases h with
  | none => exact refl q
  | some h => exact call q rfl

/-- The slot of a write is bound to a function that cancels this write only. -/
theorem bindWriteCancellation (q : QuicStream) (h : Option Handler) (token : Nat) :
    RxSame q (q.bindWriteCancellation h token) := by
  cases h with
  | none => exact refl q
  | some h => exact call q rfl

/-- `maybe_close()` does not do more than have the stream erased. -/
theorem maybeClose (q : QuicStream) : RxSame q q.maybeClose := by
  unfold QuicStream.maybeClose
  split
  · exact refl q
  · exact call q rfl

/-- A plain stream is reset by a call, and one of HTTP/3 is marked as closed. -/
theorem resetWriting (q : QuicStream) : RxSame q q.resetWriting := by
  unfold QuicStream.resetWriting
  split
  · exact ⟨rfl, rfl, rfl, rfl, rfl, Or.inl rfl, callsAvoid_call rfl⟩
  case h_2 hkind =>
    exact ⟨rfl, rfl, rfl, rfl, rfl, Or.inr ⟨hkind, rfl⟩, callsAvoid_call rfl⟩

/-- A write that begins is queued, refused, or adopted: neither of these is about reading. -/
theorem startWrite (q : QuicStream) (h : Option Handler) (buffer : List UInt8) (eof : Bool) :
    RxSame q (q.startWrite h buffer eof) := by
  unfold QuicStream.startWrite
  split
  · exact completeWrite q h _
  split
  · split
    · exact completeWrite q h _
    split
    · exact (bindWriteCancellation q h _).trans (setTx _ _)
    · exact completeWrite q h _
  split
  · exact completeWrite q h _
  · exact (bindWriteCancellation q h _).trans ((setTx _ _).trans (call _ rfl))

/-- A zero-copy write can be let go of by a reset only, as long as its buffer is in use. -/
theorem letGo (q : QuicStream) : RxSame q q.letGo := by
  unfold QuicStream.letGo
  split
  · exact resetWriting q
  · exact refl q

/-- A cancelled write of HTTP/3 may close the stream, but what is unread stays unread. -/
theorem cancelWrite (q : QuicStream) (token : Nat) : RxSame q (q.cancelWrite token) := by
  unfold QuicStream.cancelWrite
  split
  · exact refl q
  split
  · exact (setTx _ _).trans (completeWrite _ _ _)
  · exact (letGo q).trans ((setTx _ _).trans (completeWrite _ _ _))

/-- `pending_data()` carves chunks off the active write. -/
theorem pendingData (q : QuicStream) (start room : Nat) :
    RxSame q (q.pendingData start room).1 := by
  unfold QuicStream.pendingData
  split
  · exact refl q
  · exact setTx _ _

/-- A write that is finished releases its buffer. -/
theorem finishActiveWrite (q : QuicStream) : RxSame q q.finishActiveWrite :=
  (setTx _ _).trans (completeWrite _ _ _)

/-- What has been offered may finish a bare end of the body. -/
theorem onOffered (q : QuicStream) (stop : Nat) (fin : Bool) : RxSame q (q.onOffered stop fin) := by
  unfold QuicStream.onOffered
  dsimp only
  split
  · exact (setTx _ _).trans (finishActiveWrite _)
  · exact setTx _ _

/-- What is in packets may finish a staged write. -/
theorem onSent (q : QuicStream) (stop : Nat) : RxSame q (q.onSent stop) := by
  unfold QuicStream.onSent
  split
  · exact refl q
  refine (setTx _ (q.tx.sent stop)).trans ?_
  dsimp only
  split
  · exact refl _
  split
  · exact refl _
  split
  · exact finishActiveWrite _
  · exact call _ rfl

/-- What has been acknowledged may finish a zero-copy write. -/
theorem onAcked (q : QuicStream) (stop : Nat) : RxSame q (q.onAcked stop) := by
  unfold QuicStream.onAcked
  dsimp only
  split
  · exact refl q
  split
  · exact (setTx _ _).trans (finishActiveWrite _)
  · exact setTx _ _

/-- On a plain stream, bytes are offered and sent at once. -/
theorem onStreamDataWritten (q : QuicStream) (n : Nat) (fin : Bool) :
    RxSame q (q.onStreamDataWritten n fin) :=
  (onOffered q _ fin).trans (onSent _ _)

/-- On HTTP/3, acknowledgements are counted from the last one on. -/
theorem onWriteAcked (q : QuicStream) (n : Nat) : RxSame q (q.onWriteAcked n) := by
  unfold QuicStream.onWriteAcked
  split
  · exact onAcked q _
  · exact refl q

/-- On HTTP/3, bytes are offered before they are sent. -/
theorem onWriteOffered (q : QuicStream) (n : Nat) : RxSame q (q.onWriteOffered n) := by
  unfold QuicStream.onWriteOffered
  split
  · exact onSent q _
  · exact refl q

/-- Aborting the sending side completes the write, and leaves the reading side as it is. -/
theorem abortWriting (q : QuicStream) (ec : ErrorCode) : RxSame q (q.abortWriting ec) := by
  have hmark : RxSame q { q with writeAborted := true } :=
    ⟨rfl, rfl, rfl, rfl, rfl, Or.inl rfl, .of_eq rfl⟩
  unfold QuicStream.abortWriting
  dsimp only
  split
  · exact hmark
  · exact hmark.trans ((setTx _ _).trans (completeWrite _ _ _))

/-- `shutdown_stream()` with a code is a call, and ends the sending side. -/
theorem userReset (q : QuicStream) (code : Nat) : RxSame q (q.userReset code) := by
  unfold QuicStream.userReset
  split
  · exact refl q
  · exact (call q rfl).trans (abortWriting _ _)

/-- The second half of `fail()` is about the write. -/
theorem failWriting (q : QuicStream) (ec : ErrorCode) : RxSame q (q.failWriting ec) := by
  unfold QuicStream.failWriting
  refine RxSame.trans ?_ (maybeClose _)
  split
  · exact (setTx _ _).trans (completeWrite _ _ _)
  · exact refl q

/-- `delete_writer()` may reset the sending side of the stream. -/
theorem deleteWriter (q : QuicStream) : RxSame q q.deleteWriter := by
  unfold QuicStream.deleteWriter
  split
  · exact maybeClose q
  refine RxSame.trans ?_ (maybeClose _)
  split
  · exact refl q
  · exact (resetWriting q).trans (abortWriting _ _)

/-- `detach()` completes the write that waits. -/
theorem detachWriting (q : QuicStream) : RxSame q q.detachWriting := by
  unfold QuicStream.detachWriting
  split
  · exact (setTx _ _).trans (completeWrite _ _ _)
  · exact refl q

/-- Apart from what it drops. -/
theorem deleteReader (q : QuicStream) : RxSame q.clearIncoming q.deleteReader := by
  unfold QuicStream.deleteReader
  dsimp only
  split
  · exact (call _ rfl).trans (maybeClose _)
  · exact maybeClose _

end RxSame

end QuicStream

namespace Stream

/-- The writing side has not been touched, and no further call of `fail()` is under way. -/
structure TxSame (m m' : Stream) : Prop where
  sender : m'.sender = m.sender
  calls : QuicStream.CallsAvoid Call.aboutWriting m.q m'.q
  trace : m'.trace = m.trace
  failing : ∀ ec, .failing ec ∈ m'.frames → .failing ec ∈ m.frames

namespace TxSame

variable {m m' m'' : Stream}

theorem refl (m : Stream) : TxSame m m := ⟨rfl, .refl, rfl, fun _ => id⟩

theorem trans (h₁ : TxSame m m') (h₂ : TxSame m' m'') : TxSame m m'' :=
  ⟨h₂.sender.trans h₁.sender, h₁.calls.trans h₂.calls, h₂.trace.trans h₁.trace,
    fun ec h => h₁.failing ec (h₂.failing ec h)⟩

/-- A call that is not about writing leaves the sending side alone. -/
theorem call (m : Stream) {c : Call} (hc : c.aboutWriting = false) :
    TxSame m { m with q := m.q.call c } :=
  ⟨rfl, QuicStream.callsAvoid_call hc, rfl, fun _ => id⟩

/-- So does whatever happens to the incoming body. -/
theorem setRx (m : Stream) (r : Incoming) : TxSame m { m with q := { m.q with rx := r } } :=
  ⟨rfl, .of_eq rfl, rfl, fun _ => id⟩

/-- A pass of the loop takes bytes off the buffer and completes the read that waits for them. -/
theorem readPass {q : QuicStream} {n : Nat} (h : m.q.readPass = some (q, n)) (consumed : Nat)
    (k : Cont) : TxSame m { m with q := q, frames := .loop consumed k :: m.frames } := by
  have hframes : ∀ ec, Frame.failing ec ∈ Frame.loop consumed k :: m.frames →
      Frame.failing ec ∈ m.frames := by simp
  unfold QuicStream.readPass at h
  split at h
  · exact absurd h (by simp)
  dsimp only at h
  split at h
  · obtain ⟨rfl, _⟩ := Prod.mk.inj (Option.some.inj h)
    exact ⟨rfl, QuicStream.callsAvoid_call rfl, rfl, hframes⟩
  split at h
  · obtain ⟨rfl, _⟩ := Prod.mk.inj (Option.some.inj h)
    exact ⟨rfl, QuicStream.callsAvoid_call rfl, rfl, hframes⟩
  split at h
  · obtain ⟨rfl, _⟩ := Prod.mk.inj (Option.some.inj h)
    exact ⟨rfl, QuicStream.callsAvoid_call rfl, rfl, hframes⟩
  · exact absurd h (by simp)

/-- The passes of `call_read_handler()`, up to a handler or to the end of the loop. -/
theorem readLoop (m : Stream) (consumed : Nat) (k : Cont) {after : Stream → Stream}
    (hafter : ∀ m, TxSame m (after m)) : TxSame m (m.readLoop consumed k after) := by
  unfold Stream.readLoop
  split
  case h_1 q n h => exact readPass h _ k
  case h_2 =>
    refine TxSame.trans ?_ (hafter _)
    exact ⟨rfl, QuicStream.callsAvoid_call rfl, rfl, fun _ => id⟩

/-- `call_read_handler()`, and what its caller does after it. -/
theorem callReadHandlerThen (m : Stream) (k : Cont) {after : Stream → Stream}
    (hafter : ∀ m, TxSame m (after m)) : TxSame m (m.callReadHandlerThen k after) := by
  unfold Stream.callReadHandlerThen
  split
  · exact hafter m
  · exact (setRx m _).trans (readLoop _ _ _ hafter)

/-- The end of the body is told to the read that waits. -/
theorem onEof (m : Stream) : TxSame m m.onEof :=
  (setRx m _).trans (callReadHandlerThen _ _ refl)

/-- What has arrived waits for somebody to read it. -/
theorem parkIncoming (m : Stream) : TxSame m { m with q := m.q.parkIncoming } := by
  unfold QuicStream.parkIncoming
  split
  · exact refl m
  · exact setRx m _

/-- What goes on when a read handler has returned is about reading. -/
theorem resume (m : Stream) (k : Cont) : TxSame m (m.resume k) := by
  cases k with
  | caller => exact refl m
  | chunk fin =>
    cases fin with
    | false => exact parkIncoming m
    | true => exact (parkIncoming m).trans (onEof _)

/-- A whole call of `call_read_handler()`. -/
theorem callReadHandler (m : Stream) (k : Cont) : TxSame m (m.callReadHandler k) :=
  callReadHandlerThen m k fun m => resume m k

/-- Bytes that arrive are appended, and offered to the read that waits. -/
theorem onDataChunk (m : Stream) (data : List UInt8) (fin : Bool) :
    TxSame m (m.onDataChunk data fin) := by
  unfold Stream.onDataChunk
  split
  · cases fin with
    | false => exact refl m
    | true => exact onEof m
  · refine TxSame.trans ?_ (callReadHandler _ _)
    exact ⟨rfl, .of_eq rfl, rfl, fun _ => id⟩

/-- Aborting the receiving side is told to the read that waits. -/
theorem abortReading (m : Stream) : TxSame m m.abortReading := by
  unfold Stream.abortReading
  split
  · exact refl m
  · refine TxSame.trans ?_ (callReadHandler _ _)
    exact ⟨rfl, .of_eq rfl, rfl, fun _ => id⟩

/-- A read that begins takes what there is, or waits. -/
theorem asyncReadSome (m : Stream) (h : Handler) (size : Nat) :
    TxSame m (m.asyncReadSome h size) := by
  unfold Stream.asyncReadSome
  split
  · exact call m rfl
  split
  · exact call m rfl
  · refine TxSame.trans ?_ (callReadHandler _ _)
    exact ⟨rfl, QuicStream.callsAvoid_call rfl, rfl, fun _ => id⟩

/-- A cancelled read completes without any bytes. -/
theorem cancelRead (m : Stream) : TxSame m m.cancelRead := by
  unfold Stream.cancelRead
  split
  · exact refl m
  · exact ⟨rfl, QuicStream.callsAvoid_call rfl, rfl, fun _ => id⟩

theorem maybeClose (m : Stream) : TxSame m { m with q := m.q.maybeClose } := by
  unfold QuicStream.maybeClose
  split
  · exact refl m
  · exact call m rfl

/-- `delete_reader()` drops what is unread, and may close the stream. -/
theorem dropReader (m : Stream) : TxSame m m.dropReader := by
  have hclear : TxSame m { m with q := { m.q with reader := false }.clearIncoming } :=
    ⟨rfl, .of_eq rfl, rfl, fun _ => id⟩
  have hrelease : ∀ m : Stream, TxSame m { m with reader := .released } :=
    fun _ => ⟨rfl, .of_eq rfl, rfl, fun _ => id⟩
  unfold Stream.dropReader QuicStream.deleteReader
  dsimp only
  split
  · exact hclear.trans ((call _ rfl).trans ((maybeClose _).trans (hrelease _)))
  · exact hclear.trans ((maybeClose _).trans (hrelease _))

end TxSame

end Stream

end AnyHttp.Quic
