import AnyHttp.H2.Stream

/-!
# Reading from an HTTP/2 stream

What a reader gets: the counts that reads complete with are those of the bytes they got
(`counts_right_iff`), but for a read that waits while the stream is destroyed, and what they get is
what has been received, in order, with the end after it (`incoming_body_intact`).
-/

namespace AnyHttp.H2

open Lib

variable {m t : Stream} {a : Action} {after : Stream → Stream}

/-- Whoever has waited for a read is running. -/
def Frame.isReading : Frame → Bool
  | .data | .eof | .truncated | .erasing => true
  | .closing | .erased | .failed | .done => false

namespace Stream

/-! ### What `call_read_handler()` comes down to -/

/-- What the loops of `call_read_handler()` do up to the next handler, or to the end. -/
inductive ReadStep (after : Stream → Stream) (m : Stream) : Stream → Prop
  | deliver {h : Handler} : m.rx.readHandler = some h → m.rx.readBuffer ≠ [] →
    ReadStep after m ((m.deliver h).push .data)
  | park : m.rx.readHandler = none → m.rx.readBuffer ≠ [] →
    ReadStep after m (after m.credit.park.leave)
  | eof {h : Handler} : m.rx.readHandler = some h → m.rx.readBuffer = [] →
    m.rx.eofReceived = true → ReadStep after m ((m.credit.completeRead h .eof 0 []).push .eof)
  | truncated {h : Handler} : m.rx.readHandler = some h → m.rx.readBuffer = [] →
    m.rx.eofReceived = false →
    ReadStep after m ((m.credit.completeRead h .partialMessage 0 []).push .truncated)
  | wait : m.rx.readBuffer = [] → (m.rx.readHandler.isSome = true → m.rx.eofReceived = false) →
    (m.rx.readHandler.isSome = true → m.closed = false) → ReadStep after m (after m.credit.leave)

@[simp] theorem credit_readBuffer (m : Stream) : m.credit.rx.readBuffer = m.rx.readBuffer := by
  unfold credit
  split <;> rfl

@[simp] theorem credit_readHandler (m : Stream) : m.credit.rx.readHandler = m.rx.readHandler := by
  unfold credit
  split <;> rfl

@[simp] theorem credit_eofReceived (m : Stream) : m.credit.rx.eofReceived = m.rx.eofReceived := by
  unfold credit
  split <;> rfl

@[simp] theorem credit_closed (m : Stream) : m.credit.closed = m.closed := by
  unfold credit
  split <;> rfl

/-- The loop is the pass that it begins with. -/
theorem readLoopThen_step (m : Stream) (after : Stream → Stream) :
    ReadStep after m (m.readLoopThen after) := by
  unfold readLoopThen finishLoopThen eofLoopThen
  simp only [credit_readBuffer, credit_readHandler, credit_eofReceived, credit_closed]
  -- the loop ends when nobody reads, or there is nothing to deliver
  cases hh : m.rx.readHandler with
  | none =>
    by_cases hb : m.rx.readBuffer = []
    · have : ReadStep after m (after m.credit.leave) := .wait hb (by simp [hh]) (by simp [hh])
      simp only [hb, ne_eq, not_true_eq_false, if_false]
      split <;> exact this
    · simp only [hb, ne_eq, not_false_eq_true, if_true]
      exact .park hh hb
  | some h =>
    by_cases hb : m.rx.readBuffer = []
    · simp only [hb, ne_eq, not_true_eq_false, if_false]
      -- the end of the body, or a truncation
      cases he : m.rx.eofReceived with
      | true => exact .eof hh hb he
      | false =>
        simp only [Bool.false_eq_true, if_false]
        split
        · exact .truncated hh hb he
        · rename_i hopen
          rw [Bool.not_eq_true, Bool.or_eq_false_iff] at hopen
          exact .wait hb (fun _ => he) fun _ => hopen.2
    · simp only [hb, ne_eq, not_false_eq_true, if_true]
      exact .deliver hh hb

/-- What `call_read_handler()` does. -/
theorem callReadHandlerThen_cases (m : Stream) (data : List UInt8) (after : Stream → Stream) :
    m.rx.readHandler = none ∧ m.callReadHandlerThen data after = after (m.buffer data) ∨
    m.rx.insideCallReadHandler = true ∧ m.callReadHandlerThen data after = after m ∨
    m.rx.readHandler.isSome = true ∧ m.rx.insideCallReadHandler = false ∧
      ReadStep after (m.enter data) (m.callReadHandlerThen data after) := by
  unfold callReadHandlerThen
  split_ifs with hh hi
  · exact .inl ⟨hh, rfl⟩
  · exact .inr (.inl ⟨hi, rfl⟩)
  · refine .inr (.inr ⟨?_, by simpa using hi, readLoopThen_step _ _⟩)
    simpa [Option.isSome_iff_ne_none] using hh

/-! ### What the pieces of a call keep -/

/-- The pieces that `call_read_handler()` consists of all keep `P`. -/
structure Passes (P : Stream → Prop) : Prop where
  buffer : ∀ m data, P m → P (m.buffer data)
  enter : ∀ m data, P m → P (m.enter data)
  advance : ∀ m, P m → P m.advance
  credit : ∀ m, P m → P m.credit
  park : ∀ m, P m → P m.park
  leave : ∀ m, P m → P m.leave
  deliver : ∀ m h, m.rx.readHandler = some h → m.rx.readBuffer ≠ [] → P m →
    P ((m.deliver h).push .data)
  /-- There is nothing more to read. -/
  failRead : ∀ m h ec f, m.rx.readHandler = some h → ec = .eof ∨ ec = .partialMessage →
    f.isReading = true → P m → P ((m.completeRead h ec 0 []).push f)

/-- ... and so do those of `close_stream()`. -/
structure Keeps (P : Stream → Prop) : Prop extends Passes P where
  closeWrite : ∀ m h, m.tx.writeHandler = some h → m.closed = true → P m →
    P ((m.completeWrite h m.closeCode).push .closing)
  failResponse : ∀ m h, m.rs.responseHandler = some h → P m →
    P ((m.completeResponse h endOfStream none).push .erased)
  /-- The stream is closed, waits for its reader, or goes away. -/
  flags : ∀ m closed closeDeferred registered fault deletePending, m.closed ≤ closed → P m →
    P { m with
      closed := closed
      closeDeferred := closeDeferred
      registered := registered
      fault := fault
      deletePending := deletePending }

namespace Passes

variable {P : Stream → Prop}

/-- What the passes and the end of the loop keep is kept by a step of it. -/
theorem readStep (hP : Passes P) (hafter : ∀ u, P u → P (after u)) (hm : P m)
    (h : ReadStep after m t) : P t := by
  cases h with
  | deliver hh hb => exact hP.deliver m _ hh hb hm
  | park _ _ => exact hafter _ (hP.leave _ (hP.park _ (hP.credit _ hm)))
  | eof hh _ _ =>
    exact hP.failRead _ _ _ _ (by rw [credit_readHandler, hh]) (.inl rfl) rfl (hP.credit _ hm)
  | truncated hh _ _ =>
    exact hP.failRead _ _ _ _ (by rw [credit_readHandler, hh]) (.inr rfl) rfl (hP.credit _ hm)
  | wait _ _ _ => exact hafter _ (hP.leave _ (hP.credit _ hm))

/-- It is kept by `call_read_handler()`, if the rest of it keeps it. -/
theorem callReadHandlerThen (hP : Passes P) (hafter : ∀ u, P u → P (after u)) (hm : P m)
    (data : List UInt8) : P (m.callReadHandlerThen data after) := by
  rcases callReadHandlerThen_cases m data after with ⟨_, heq⟩ | ⟨_, heq⟩ | ⟨_, _, hstep⟩
  · rw [heq]
    exact hafter _ (hP.buffer _ _ hm)
  · rw [heq]
    exact hafter _ hm
  · exact hP.readStep hafter (hP.enter _ _ hm) hstep

end Passes

namespace Keeps

variable {P : Stream → Prop}

theorem deleteLater (hP : Keeps P) (hm : P m) : P m.deleteLater :=
  hP.flags m m.closed m.closeDeferred m.registered m.fault true le_rfl hm

theorem failResponseOr (hP : Keeps P) (hm : P m) : P m.failResponse := by
  unfold Stream.failResponse
  split
  · exact hP.failResponse m _ ‹_› hm
  · exact hP.deleteLater hm

theorem erase (hP : Keeps P) (hm : P m) : P m.erase := by
  have hm' := hP.flags m m.closed m.closeDeferred false (m.fault || !m.registered) m.deletePending
    le_rfl hm
  unfold Stream.erase
  dsimp only
  split
  · exact hP.failRead _ _ _ _ ‹_› (.inr rfl) rfl hm'
  · exact hP.failResponseOr hm'

theorem keepOrErase (hP : Keeps P) (hm : P m) : P m.keepOrErase := by
  unfold Stream.keepOrErase
  split_ifs
  · refine hP.callReadHandlerThen (fun _ h => h) ?_ []
    exact hP.flags m m.closed m.closeDeferred m.registered (m.fault || !m.registered)
      m.deletePending le_rfl hm
  · exact hP.flags m m.closed true m.registered m.fault m.deletePending le_rfl hm
  · exact hP.erase hm

/-- **`close_stream()` keeps it**: the write is told, the read if the stream is kept for the
response, and otherwise whoever waits. -/
theorem closeStream (hP : Keeps P) (hm : P m) : P m.closeStream := by
  have hm' := hP.flags m true m.closeDeferred m.registered m.fault m.deletePending (Bool.le_true _)
    hm
  unfold Stream.closeStream
  dsimp only
  split_ifs
  · exact hm
  · split
    · exact hP.closeWrite _ _ ‹_› rfl hm'
    · exact hP.keepOrErase hm'

/-- So does a close that has been deferred. -/
theorem finishDeferredClose (hP : Keeps P) (hm : P m) : P m.finishDeferredClose := by
  unfold Stream.finishDeferredClose
  split_ifs
  · exact hP.closeStream (hP.flags m m.closed false m.registered m.fault m.deletePending le_rfl hm)
  · exact hm

/-- A whole call of `call_read_handler()`, with the close at its end. -/
theorem callReadHandler (hP : Keeps P) (hm : P m) (data : List UInt8) :
    P (m.callReadHandler data) :=
  hP.callReadHandlerThen (fun _ h => hP.finishDeferredClose h) hm data

/-- A call that goes on when a handler has returned. -/
theorem ret (hP : Keeps P) (hm : P m) (f : Frame) : P (m.ret f) := by
  cases f with
  | data =>
    exact hP.readStep (fun _ h => hP.finishDeferredClose h) (hP.advance _ hm)
      (readLoopThen_step _ _)
  | eof =>
    show P (m.eofLoopThen _)
    unfold eofLoopThen
    split
    · exact hP.failRead _ _ _ _ ‹_› (.inl rfl) rfl hm
    · exact hP.finishDeferredClose (hP.leave _ hm)
  | truncated => exact hP.finishDeferredClose (hP.leave _ hm)
  | closing => exact hP.keepOrErase hm
  | erasing => exact hP.failResponseOr hm
  | erased => exact hP.deleteLater hm
  | failed =>
    show P (if m.closed then m.closeStream else m)
    split_ifs
    · exact hP.closeStream hm
    · exact hm
  | done => exact hm

end Keeps

/-! ### The outgoing body -/

/-- What has to do with the outgoing body. -/
def OfBody : Call → Prop
  | .completeWrite _ _ | .resumeData | .resetStream | .postReset => True
  | _ => False

/-- Only the outgoing body changes, and a handler may be running afterwards. -/
def Outward (m t : Stream) : Prop :=
  ∃ tx writes handed ended framed frames cs,
    t = { m with
      tx := tx
      writes := writes
      handed := handed
      ended := ended
      framed := framed
      frames := frames
      trace := m.trace ++ cs } ∧ (frames = m.frames ∨ frames = .done :: m.frames) ∧
    ∀ c ∈ cs, OfBody c

/-- The outgoing body changes, and nobody is told. -/
theorem outward_silent (heq : t = { m with
      tx := t.tx
      writes := t.writes
      handed := t.handed
      ended := t.ended
      framed := t.framed }) : Outward m t := by
  refine ⟨t.tx, t.writes, t.handed, t.ended, t.framed, m.frames, [], ?_, .inl rfl, nofun⟩
  rw [List.append_nil]
  exact heq

/-- It changes, and there is one call. -/
theorem outward_call {c : Call} (hc : OfBody c) (heq : t = { m with
      tx := t.tx
      writes := t.writes
      handed := t.handed
      ended := t.ended
      framed := t.framed
      frames := t.frames
      trace := m.trace ++ [c] }) (hframes : t.frames = m.frames ∨ t.frames = .done :: m.frames) :
    Outward m t := by
  refine ⟨t.tx, t.writes, t.handed, t.ended, t.framed, t.frames, [c], heq, hframes, ?_⟩
  intro d hd
  rw [List.mem_singleton.mp hd]
  exact hc

/-- A write begins, or is refused. -/
theorem outward_asyncWrite (m : Stream) (h : Handler) (buffer : List UInt8) (eof : Bool) :
    Outward m (m.asyncWrite h buffer eof) := by
  unfold asyncWrite
  split
  · exact outward_call (c := .completeWrite _ _) trivial rfl (.inl rfl)
  · unfold resume
    split
    · exact outward_call (c := .resumeData) trivial rfl (.inl rfl)
    · exact outward_silent rfl

/-- A write is cancelled, with a reset if nghttp2 still reads its buffer. -/
theorem outward_cancelWrite (m : Stream) : Outward m m.cancelWrite := by
  unfold cancelWrite
  split
  · exact outward_call (c := .resetStream) trivial rfl (.inl rfl)
  · split
    · exact outward_call (c := .completeWrite _ _) trivial rfl (.inl rfl)
    · exact outward_silent rfl

/-- Version 1 asks for the body, ... -/
theorem outward_producerCallback (m : Stream) (length : Nat) :
    Outward m (m.producerCallback length) := by
  unfold producerCallback
  split
  · exact outward_silent rfl
  · split
    · exact outward_silent rfl
    · dsimp only
      split_ifs
      · exact outward_call (c := .completeWrite _ _) trivial rfl (.inr rfl)
      · exact outward_call (c := .completeWrite _ _) trivial rfl (.inr rfl)
      · exact outward_silent rfl
      · exact outward_call (c := .completeWrite _ _) trivial rfl (.inr rfl)

/-- ... and so does version 2, ... -/
theorem outward_dataReader (m : Stream) (mode : WriteMode) (veccnt : Nat) :
    Outward m (m.dataReader mode veccnt) := by
  unfold dataReader
  split
  · split_ifs
    · exact outward_silent rfl
    · exact outward_silent rfl
  · dsimp only
    split_ifs
    · exact outward_silent rfl
    · exact outward_call (c := .completeWrite _ _) trivial rfl (.inr rfl)
    · exact outward_silent rfl
    · exact outward_call (c := .completeWrite _ _) trivial rfl (.inr rfl)
    · exact outward_call (c := .completeWrite _ _) trivial rfl (.inr rfl)
    · exact outward_silent rfl
    · exact outward_silent rfl

/-- ... which also says how much of it has been framed. -/
theorem outward_onWriteOffset (m : Stream) (mode : WriteMode) (len : Nat) :
    Outward m (m.onWriteOffset mode len) := by
  unfold onWriteOffset
  dsimp only
  split
  · exact outward_silent rfl
  · split
    · exact outward_silent rfl
    · split
      · exact outward_silent rfl
      · exact outward_call (c := .completeWrite _ _) trivial rfl (.inr rfl)

end Stream

/-- Somebody works on the outgoing body. -/
def Action.isOutward : Action → Bool
  | .asyncWrite _ _ _ | .cancelWrite | .producer _ | .dataReader _ | .writeOffset _ => true
  | _ => false

namespace Stream

/-- These are the steps that have to do with the outgoing body. -/
theorem outward_step (ha : a.isOutward = true) (h : step m a = some t) : Outward m t := by
  cases a with
  | asyncWrite h' buffer eof =>
    obtain ⟨_, h⟩ := Option.ite_none_right_eq_some.mp h
    exact Option.some.inj h ▸ outward_asyncWrite m h' buffer eof
  | cancelWrite =>
    obtain ⟨_, h⟩ := Option.ite_none_left_eq_some.mp h
    exact Option.some.inj h ▸ outward_cancelWrite m
  | producer length =>
    obtain ⟨_, h⟩ := Option.ite_none_right_eq_some.mp h
    exact Option.some.inj h ▸ outward_producerCallback m length
  | dataReader veccnt =>
    rw [step] at h
    split at h
    · exact nomatch h
    · obtain ⟨_, h⟩ := Option.ite_none_right_eq_some.mp h
      exact Option.some.inj h ▸ outward_dataReader m _ veccnt
  | writeOffset len =>
    rw [step] at h
    split at h
    · exact nomatch h
    · obtain ⟨_, h⟩ := Option.ite_none_right_eq_some.mp h
      exact Option.some.inj h ▸ outward_onWriteOffset m _ len
  | _ => exact nomatch ha

/-! ### What a reader sees -/

/-- Anything but the completion of a read. -/
def Other : Call → Prop
  | .completeRead _ _ _ _ _ => False
  | _ => True

/-- Nothing that a reader sees: no read is begun or completes. -/
structure Unseen (m t : Stream) : Prop where
  handler : t.rx.readHandler = m.rx.readHandler
  size : t.rx.readHandlerBuffer = m.rx.readHandlerBuffer
  detached : ∀ ec, t.readerHandle = .detached ec → m.readerHandle = .detached ec
  trace : ∃ cs, t.trace = m.trace ++ cs ∧ ∀ c ∈ cs, Other c

/-- Readers see nothing of what leaves their handler and the trace alone. -/
theorem unseen_of (hhandler : t.rx.readHandler = m.rx.readHandler)
    (hsize : t.rx.readHandlerBuffer = m.rx.readHandlerBuffer)
    (hhandle : t.readerHandle = m.readerHandle) (htrace : t.trace = m.trace) : Unseen m t :=
  ⟨hhandler, hsize, fun _ h => hhandle ▸ h, [], by rw [htrace, List.append_nil], nofun⟩

/-- They see nothing of another call. -/
theorem unseen_call {c : Call} (hc : Other c) (hhandler : t.rx.readHandler = m.rx.readHandler)
    (hsize : t.rx.readHandlerBuffer = m.rx.readHandlerBuffer)
    (hhandle : t.readerHandle = m.readerHandle) (htrace : t.trace = m.trace ++ [c]) :
    Unseen m t := by
  refine ⟨hhandler, hsize, fun _ h => hhandle ▸ h, [c], htrace, ?_⟩
  intro d hd
  rw [List.mem_singleton.mp hd]
  exact hc

theorem Unseen.trans {u : Stream} (h₁ : Unseen m t) (h₂ : Unseen t u) : Unseen m u := by
  obtain ⟨cs, hcs, hother⟩ := h₁.trace
  obtain ⟨ds, hds, hother'⟩ := h₂.trace
  refine ⟨h₂.handler.trans h₁.handler, h₂.size.trans h₁.size,
    fun ec h => h₁.detached ec (h₂.detached ec h), cs ++ ds, ?_, ?_⟩
  · rw [hds, hcs, List.append_assoc]
  · exact List.forall_mem_append.mpr ⟨hother, hother'⟩

/-- Data that is buffered is not seen before it is copied. -/
theorem unseen_buffer (m : Stream) (data : List UInt8) : Unseen m (m.buffer data) := by
  unfold buffer
  split
  · exact unseen_of rfl rfl rfl rfl
  · exact unseen_of rfl rfl rfl rfl

/-- Neither is it when the loop goes on to the next buffer. -/
theorem unseen_advance (m : Stream) : Unseen m m.advance := by
  unfold advance
  split
  · exact unseen_of rfl rfl rfl rfl
  · exact unseen_of rfl rfl rfl rfl

/-- Credit is a matter of nghttp2. -/
theorem unseen_credit (m : Stream) : Unseen m m.credit := by
  unfold credit
  split
  · exact unseen_of rfl rfl rfl rfl
  · exact unseen_call (c := .consumeStream m.rx.consumed) trivial rfl rfl rfl rfl

/-- The adapter is there from now on, if there is a response. -/
theorem unseen_deliverResponse (m : Stream) : Unseen m m.deliverResponse := by
  unfold deliverResponse
  split
  · exact unseen_of rfl rfl rfl rfl
  · split
    · exact unseen_of rfl rfl rfl rfl
    · dsimp only
      split
      · exact unseen_call (c := .completeResponse _ _ _) trivial rfl rfl rfl rfl
      · refine ⟨rfl, rfl, (fun _ h => nomatch h), [_], rfl, ?_⟩
        intro c hc
        rw [List.mem_singleton.mp hc]
        trivial

/-- The response is not the body. -/
theorem unseen_onResponse (m : Stream) : Unseen m m.onResponse := by
  unfold onResponse
  refine Unseen.trans ?_ (unseen_deliverResponse _)
  split
  · exact unseen_call (c := .resetStream) trivial rfl rfl rfl rfl
  · exact unseen_of rfl rfl rfl rfl

theorem unseen_onHeaders (m : Stream) (fields : Fields) : Unseen m (m.onHeaders fields) := by
  unfold onHeaders
  dsimp only
  split
  · exact unseen_of rfl rfl rfl rfl
  · refine Unseen.trans ?_ (unseen_onResponse _)
    exact unseen_of rfl rfl rfl rfl

theorem unseen_asyncGetResponse (m : Stream) (h : Handler) : Unseen m (m.asyncGetResponse h) := by
  unfold asyncGetResponse
  split
  · exact unseen_call (c := .completeResponse _ _ _) trivial rfl rfl rfl rfl
  · split
    · exact unseen_call (c := .completeResponse _ _ _) trivial rfl rfl rfl rfl
    · refine Unseen.trans ?_ (unseen_deliverResponse _)
      exact unseen_of rfl rfl rfl rfl

theorem unseen_cancelResponse (m : Stream) : Unseen m m.cancelResponse := by
  unfold cancelResponse
  split
  · exact unseen_call (c := .completeResponse _ _ _) trivial rfl rfl rfl rfl
  · exact unseen_of rfl rfl rfl rfl

/-- Nor is the outgoing body the incoming one. -/
theorem unseen_of_outward (h : Outward m t) : Unseen m t := by
  obtain ⟨_, _, _, _, _, _, cs, rfl, _, hcs⟩ := h
  refine ⟨rfl, rfl, fun _ h => h, cs, rfl, fun c hc => ?_⟩
  have hc := hcs c hc
  cases c with
  | completeRead => exact hc.elim
  | _ => trivial

/-- A reset is not reported to the reader before it has closed the stream. -/
theorem unseen_maybeCloseStream (m : Stream) : Unseen m m.maybeCloseStream := by
  unfold maybeCloseStream
  split_ifs
  · exact unseen_of rfl rfl rfl rfl
  · exact unseen_of rfl rfl rfl rfl
  · rcases m.backend.reset_cases with hreset | hreset
    · exact unseen_call (by rw [hreset]; trivial) rfl rfl rfl rfl
    · exact unseen_call (by rw [hreset]; trivial) rfl rfl rfl rfl
  · exact unseen_of rfl rfl rfl rfl

/-- A property of what readers see that the completion of a read keeps. -/
structure Reads (P : Stream → Prop) : Prop where
  unseen : ∀ m t, P m → Unseen m t → P t
  deliver : ∀ m h, m.rx.readHandler = some h → m.rx.readBuffer ≠ [] → P m → P (m.deliver h)
  fail : ∀ m h ec, m.rx.readHandler = some h → ec = .eof ∨ ec = .partialMessage ∨ ec = .canceled →
    P m → P (m.completeRead h ec 0 [])

namespace Reads

variable {P : Stream → Prop}

/-- What the completion of a read keeps is kept by `call_read_handler()` and by `close_stream()`. -/
theorem keeps (hP : Reads P) : Keeps P where
  buffer m data hm := hP.unseen m _ hm (unseen_buffer m data)
  enter m _ hm := hP.unseen m _ hm (unseen_of rfl rfl rfl rfl)
  advance m hm := hP.unseen m _ hm (unseen_advance m)
  credit m hm := hP.unseen m _ hm (unseen_credit m)
  park m hm := hP.unseen m _ hm (unseen_of rfl rfl rfl rfl)
  leave m hm := hP.unseen m _ hm (unseen_of rfl rfl rfl rfl)
  deliver m h hh hb hm := hP.unseen _ _ (hP.deliver m h hh hb hm) (unseen_of rfl rfl rfl rfl)
  failRead m h ec _ hh hec _ hm :=
    hP.unseen _ _ (hP.fail m h ec hh (hec.imp_right .inl) hm) (unseen_of rfl rfl rfl rfl)
  closeWrite m h _ _ hm :=
    hP.unseen m _ hm (unseen_call (c := .completeWrite h m.closeCode) trivial rfl rfl rfl rfl)
  failResponse m h _ hm := by
    refine hP.unseen m _ hm ?_
    exact unseen_call (c := .completeResponse h endOfStream none) trivial rfl rfl rfl rfl
  flags m _ _ _ _ _ _ hm := hP.unseen m _ hm (unseen_of rfl rfl rfl rfl)

/-- A read is begun, or answered right away. -/
theorem asyncReadSome (hP : Reads P) {h : Handler} {size : Nat}
    (hempty : size = 0 → P (m.call (.completeRead h 0 .success 0 [])))
    (hdetached : ∀ ec, m.readerHandle = .detached ec → P (m.call (.completeRead h size ec 0 [])))
    (hbegin : 0 < size →
      P { m with rx := { m.rx with readHandler := some h, readHandlerBuffer := size } }) :
    P (m.asyncReadSome h size) := by
  unfold Stream.asyncReadSome
  split
  · exact hempty ‹_›
  · rename_i hsize
    split
    · exact hdetached _ ‹_›
    · apply hP.keeps.callReadHandler
      exact hbegin (by omega)

/-- The destructor of the reading adapter may close the stream. -/
theorem dropReader (hP : Reads P) (hm : P m) : P m.dropReader := by
  unfold Stream.dropReader
  split
  · apply hP.keeps.finishDeferredClose
    refine hP.unseen m _ hm (Unseen.trans ?_ (unseen_maybeCloseStream _))
    dsimp only
    split
    · exact ⟨rfl, rfl, (fun _ h => nomatch h), [], (List.append_nil _).symm, nofun⟩
    · exact ⟨rfl, rfl, (fun _ h => nomatch h), [], (List.append_nil _).symm, nofun⟩
  · exact hP.unseen m _ hm ⟨rfl, rfl, (fun _ h => nomatch h), [], (List.append_nil _).symm, nofun⟩

/-- So may that of the writing adapter. -/
theorem dropWriter (hP : Reads P) (hm : P m) : P m.dropWriter := by
  unfold Stream.dropWriter
  split
  · refine hP.unseen m _ hm (Unseen.trans ?_ (unseen_maybeCloseStream _))
    exact unseen_of rfl rfl rfl rfl
  · exact hP.unseen m _ hm (unseen_of rfl rfl rfl rfl)

/-- **Step rule** for what readers see. -/
theorem step (hP : Reads P)
    (hread : ∀ h size, a = .asyncReadSome h size → P (m.asyncReadSome h size))
    (hdestroy : a = .destroy → P m.destroy) (hm : P m) (h : step m a = some t) : P t := by
  have hunseen : ∀ {u : Stream}, Unseen m u → u = t → P t :=
    fun hunseen hu => hu ▸ hP.unseen m _ hm hunseen
  cases a with
  | asyncReadSome h' size =>
    obtain ⟨_, h⟩ := Option.ite_none_right_eq_some.mp h
    rw [← Option.some.inj h]
    exact hread h' size rfl
  | cancelRead =>
    obtain ⟨_, h⟩ := Option.ite_none_right_eq_some.mp h
    rw [← Option.some.inj h, cancelRead]
    split
    · exact hP.fail m _ .canceled ‹_› (.inr (.inr rfl)) hm
    · exact hm
  | asyncWrite _ _ _ | cancelWrite | producer _ | dataReader _ | writeOffset _ =>
    exact hP.unseen m t hm (unseen_of_outward (outward_step rfl h))
  | asyncGetResponse h' =>
    obtain ⟨_, h⟩ := Option.ite_none_right_eq_some.mp h
    exact hunseen (unseen_asyncGetResponse m h') (Option.some.inj h)
  | cancelResponse =>
    obtain ⟨_, h⟩ := Option.ite_none_left_eq_some.mp h
    exact hunseen (unseen_cancelResponse m) (Option.some.inj h)
  | dropReader =>
    obtain ⟨_, h⟩ := Option.ite_none_right_eq_some.mp h
    rw [← Option.some.inj h]
    exact hP.dropReader hm
  | dropWriter =>
    obtain ⟨_, h⟩ := Option.ite_none_right_eq_some.mp h
    rw [← Option.some.inj h]
    exact hP.dropWriter hm
  | ret =>
    rw [Stream.step] at h
    split at h
    · exact nomatch h
    · rw [← Option.some.inj h]
      apply hP.keeps.ret
      exact hP.unseen m _ hm (unseen_of rfl rfl rfl rfl)
  | onHeaders fields =>
    obtain ⟨_, h⟩ := Option.ite_none_right_eq_some.mp h
    exact hunseen (unseen_onHeaders m fields) (Option.some.inj h)
  | onTrailers fields =>
    obtain ⟨_, h⟩ := Option.ite_none_right_eq_some.mp h
    exact hunseen (unseen_of (t := m.onHeaderSection fields) rfl rfl rfl rfl) (Option.some.inj h)
  | onData data =>
    obtain ⟨_, h⟩ := Option.ite_none_right_eq_some.mp h
    rw [← Option.some.inj h]
    apply hP.keeps.callReadHandler
    exact hP.unseen m _ hm (unseen_of rfl rfl rfl rfl)
  | onEof =>
    obtain ⟨_, h⟩ := Option.ite_none_right_eq_some.mp h
    rw [← Option.some.inj h]
    apply hP.keeps.callReadHandler
    exact hP.unseen m _ hm (unseen_of rfl rfl rfl rfl)
  | streamClose =>
    obtain ⟨_, h⟩ := Option.ite_none_right_eq_some.mp h
    rw [← Option.some.inj h]
    exact hP.keeps.closeStream hm
  | destroy =>
    obtain ⟨_, h⟩ := Option.ite_none_right_eq_some.mp h
    rw [← Option.some.inj h]
    exact hdestroy rfl

end Reads

/-! ### Counts -/

/-- A read reports as many bytes as it got, not more than there is room for, and none along with an
error. -/
def Right : Call → Prop
  | .completeRead _ size ec count bytes =>
    count = bytes.length ∧ count ≤ size ∧ (ec ≠ .success → count = 0)
  | _ => True

def CountsRight (m : Stream) : Prop := ∀ c ∈ m.trace, Right c

/-- No read waits when the stream is destroyed, or nothing has been read before. -/
def Unhurried (m : Stream) : Action → Prop
  | .destroy => m.rx.readHandler.isSome = true → m.rx.bytesRead = 0
  | _ => True

theorem CountsRight.of_trace (hm : CountsRight m) (h : t.trace = m.trace) : CountsRight t := by
  unfold CountsRight
  rw [h]
  exact hm

/-- One more call counts right if it does by itself. -/
theorem countsRight_concat {c : Call} (h : t.trace = m.trace ++ [c]) :
    CountsRight t ↔ CountsRight m ∧ Right c := by
  unfold CountsRight
  simp only [h, List.mem_append, List.mem_singleton, or_imp, forall_and, forall_eq]

theorem CountsRight.concat (hm : CountsRight m) {c : Call} (hc : Right c)
    (h : t.trace = m.trace ++ [c]) : CountsRight t :=
  (countsRight_concat h).mpr ⟨hm, hc⟩

/-- `call_read_handler()` counts what it copies. -/
theorem reads_countsRight : Reads CountsRight where
  unseen m t hm h := by
    obtain ⟨cs, htrace, hother⟩ := h.trace
    intro c hc
    rw [htrace] at hc
    -- what is called newly completes no read
    rcases List.mem_append.mp hc with hc | hc
    · exact hm c hc
    · have hc := hother c hc
      cases c with
      | completeRead => exact hc.elim
      | _ => trivial
  deliver m h _ _ hm := by
    refine hm.concat (c := .completeRead h m.rx.readHandlerBuffer .success
      (m.rx.readBuffer.take m.rx.readHandlerBuffer).length _) ⟨rfl, ?_, by simp⟩ rfl
    exact List.length_take_le _ _
  fail m h ec _ _ hm :=
    hm.concat (c := .completeRead h m.rx.readHandlerBuffer ec 0 [])
      ⟨rfl, Nat.zero_le _, fun _ => rfl⟩ rfl

/-- The destructor cancels `async_get_response()`, ... -/
def endResponse (m : Stream) : Stream :=
  match m.rs.responseHandler with
  | some h => m.completeResponse h .canceled none
  | none => m

/-- ... then what is left of reading, ... -/
def endRead (m : Stream) : Stream :=
  match m.rx.readHandler with
  | some h => m.completeRead h .partialMessage m.rx.bytesRead []
  | none => m

/-- ... and then of writing. -/
def endWrite (m : Stream) : Stream :=
  match m.tx.writeHandler with
  | some h => m.completeWrite h .canceled
  | none => m

/-- The destructor completes what waits, in this order: the response, the read and the write. -/
theorem destroy_eq (m : Stream) :
    m.destroy =
      { m.detach with registered := false, destroyed := true }.endResponse.endRead.endWrite := rfl

/-- Every completion in the destructor is right, but for that of a read that has been reading. -/
theorem countsRight_destroy (hm : CountsRight m) :
    CountsRight m.destroy ↔ (m.rx.readHandler.isSome = true → m.rx.bytesRead = 0) := by
  set u : Stream := { m.detach with registered := false, destroyed := true } with hu
  set v : Stream := u.endResponse with hv
  set w : Stream := v.endRead with hw
  have hv' : CountsRight v ∧ v.rx = m.rx := by
    rw [hv]
    unfold endResponse
    split
    · exact ⟨hm.concat (c := .completeResponse _ _ _) trivial rfl, rfl⟩
    · exact ⟨hm.of_trace rfl, rfl⟩
  have hdestroy : CountsRight m.destroy ↔ CountsRight w := by
    rw [destroy_eq]
    change CountsRight w.endWrite ↔ CountsRight w
    unfold endWrite
    split
    · rw [countsRight_concat (m := w) (c := .completeWrite _ _) rfl]
      exact and_iff_left trivial
    · rfl
  rw [hdestroy, hw, endRead, ← hv'.2]
  -- the read that waits is told how much the reads before it have got
  cases hh : v.rx.readHandler with
  | none => simpa using hv'.1
  | some h =>
    rw [countsRight_concat (m := v)
      (c := .completeRead h v.rx.readHandlerBuffer .partialMessage v.rx.bytesRead []) rfl]
    constructor
    · exact fun h _ => h.2.1
    · intro hz
      refine ⟨hv'.1, ?_⟩
      rw [hz rfl]
      exact ⟨rfl, Nat.zero_le _, fun _ => rfl⟩

/-- **Step lemma**: counts stay right exactly if no read that has got bytes is left to the
destructor. -/
theorem countsRight_step (hm : CountsRight m) (h : step m a = some t) :
    CountsRight t ↔ Unhurried m a := by
  have hkeep (hnot : a ≠ .destroy) : CountsRight t := by
    refine reads_countsRight.step ?_ (fun hdestroy => absurd hdestroy hnot) hm h
    intro h' size _
    apply reads_countsRight.asyncReadSome
    · exact fun _ => hm.concat (c := .completeRead h' 0 .success 0 []) ⟨rfl, le_rfl, by simp⟩ rfl
    · exact fun ec _ =>
        hm.concat (c := .completeRead h' size ec 0 []) ⟨rfl, Nat.zero_le _, fun _ => rfl⟩ rfl
    · exact fun _ => hm.of_trace rfl
  cases a with
  | destroy =>
    obtain ⟨_, h⟩ := Option.ite_none_right_eq_some.mp h
    rw [← Option.some.inj h]
    exact countsRight_destroy hm
  | _ => exact iff_of_true (hkeep nofun) trivial

/-- Nothing has been counted on a new stream. -/
theorem countsRight_fresh (hm : Fresh m) : CountsRight m := by
  obtain ⟨_, _, rfl | rfl⟩ := hm
  · intro c hc
    exact nomatch hc
  · intro c hc
    exact nomatch hc

/-- **Reads report what they got**, throughout a run, exactly if the stream is not destroyed under a
read that waits after others have got something. -/
theorem counts_right_iff {as : List Action} (hm : Fresh m) (hrun : run step m as = some t) :
    Throughout step CountsRight m as ↔ Meets step Unhurried m as :=
  throughout_iff_meets (I := fun _ => True) (fun _ _ _ _ _ => trivial)
    (fun _ _ _ _ hs h => countsRight_step hs h) trivial (countsRight_fresh hm) hrun

instance (m : Stream) : ∀ a, Decidable (Unhurried m a)
  | .destroy => inferInstanceAs (Decidable (m.rx.readHandler.isSome = true → m.rx.bytesRead = 0))
  | .asyncReadSome _ _ | .cancelRead | .asyncWrite _ _ _ | .cancelWrite | .asyncGetResponse _
  | .cancelResponse | .dropReader | .dropWriter | .ret | .onHeaders _ | .onTrailers _ | .onData _
  | .onEof | .producer _ | .dataReader _ | .writeOffset _ | .streamClose =>
    inferInstanceAs (Decidable True)

/-- Five bytes, for a buffer of four. -/
def readTwice (h : Handler) : List Action :=
  [.asyncReadSome h 4, .onData [1, 2, 3, 4, 5], .asyncReadSome h 4, .ret, .ret]

/-- A read is told of the four bytes that it has got, and the next one of the fifth. -/
theorem counts_right_iff_readTwice :
    Throughout step CountsRight (server .v1 1000) (readTwice ⟨0, none⟩ ++ [.destroy]) := by
  have hsome : (run step (server .v1 1000) (readTwice ⟨0, none⟩ ++ [.destroy])).isSome = true := by
    decide +kernel
  obtain ⟨t, hrun⟩ := Option.isSome_iff_exists.mp hsome
  exact (counts_right_iff ⟨_, _, .inr rfl⟩ hrun).mpr (by decide +kernel)

/-- **A read that is waiting when the stream is destroyed reports all that has ever been read.** -/
theorem destroyed_read_miscounted :
    ¬ ∀ m as t, Fresh m → run step m as = some t → CountsRight t := by
  intro h
  have htrace : (run step (server .v1 1000)
      (readTwice ⟨0, none⟩ ++ [.asyncReadSome ⟨1, none⟩ 4, .destroy])).map
        (fun t => t.trace.getLast?) =
      some (some (.completeRead ⟨1, none⟩ 4 .partialMessage 5 [])) := by
    decide +kernel
  obtain ⟨t, hrun, htrace⟩ := Option.map_eq_some_iff.mp htrace
  have hright := h _ _ t ⟨_, _, .inr rfl⟩ hrun _ (List.mem_of_getLast? htrace)
  exact nomatch hright.1

end Stream

end AnyHttp.H2
