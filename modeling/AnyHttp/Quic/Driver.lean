import AnyHttp.Lib.Run
import AnyHttp.Quic.Stream

/-!
# Runs of a `QuicStream`

A stream is driven from three sides: by the user through its `QuicReader` and `QuicWriter`, by the
QUIC stack through `StreamApplication` (plain streams) or nghttp3 and `Http3Stream` (HTTP/3), and by
the session that closes or destroys it.  `Act` has one action for each way in, `Stream.step` what it
does, and a run is any list of actions that are possible one after the other.

*Re-entrancy.*  `call_read_handler()` and `fail()` invoke the handler of a read from the middle of
their work, and whatever the user does from there happens before they go on.  `frames` is the stack
of these unfinished calls: while there is one, only the user can act, until `ret` says that the
handler has returned.  The user may also close the session from there, which fails all its streams.

*The stack.*  Of ngtcp2 and nghttp3, the model has what they promise, as conditions on the actions:
they take a prefix of what they are offered, report as written what they took, acknowledge nothing
that they have not put into a packet, and report nothing about the incoming side after its end.
`wire` is what is queued for the stream below it, `true` for a byte of the body and `false` for one
of HTTP/3's framing, and `sent` of these have gone into packets.

*The past.*  `writes` are the writes accepted so far, `offers` the calls of `pending_data()` with
what became of them, `received` the incoming body, and `trace` everything the stream ever did.
-/

namespace AnyHttp.Quic

open Lib

/-- What `call_read_handler()` returns to: a caller that is done with that, or `on_data_chunk()`,
which goes on to park the rest of the chunk, and then reports the end if it came with the data. -/
inductive Cont
  | caller
  | chunk (fin : Bool)
deriving DecidableEq, Repr

/-- A call that is not over yet, while a handler it has invoked is running. -/
inductive Frame
  | loop (consumed : Nat) (k : Cont)
  | failing (ec : ErrorCode)
deriving DecidableEq, Repr

/-- The reading adapter, seen from the user: attached to the stream, detached from it with the
error code that `detach()` latched, or released. -/
inductive ReaderHandle
  | attached
  | detached (ec : ErrorCode)
  | released
deriving DecidableEq, Repr

/-- A write that `start_write()` accepted. -/
structure WriteRec where
  token : Nat
  handler : Option Handler
  base : Nat
  buffer : List UInt8
  eof : Bool
  /-- How much of the buffer counts: all of it, unless cancellation abandoned the rest. -/
  kept : Nat
  cancelled : Bool
deriving DecidableEq, Repr

/-- A call of `pending_data(start, …)`: what it returned, and how much of it the stack took. -/
structure Offer where
  start : Nat
  vecs : List IoVec
  fin : Bool
  taken : Nat
deriving DecidableEq, Repr

structure Stream where
  q : QuicStream
  frames : List Frame := []
  reader : ReaderHandle := .attached
  destroyed : Bool := false
  peerReset : Bool := false
  writes : List WriteRec := []
  offers : List Offer := []
  wire : List Bool := []
  sent : Nat := 0
  received : List UInt8 := []
  trace : List Call := []
deriving DecidableEq, Repr

/-- What became of the data a plain stream offered for a packet. -/
inductive PktResult
  | written (n : Nat)
  | notWritten
  | shutWr
deriving DecidableEq, Repr

inductive Act
  -- the user
  | startWrite (h : Option Handler) (buffer : List UInt8) (eof : Bool)
  | cancelWrite (token : Nat)
  | asyncReadSome (h : Handler) (size : Nat)
  | cancelRead
  | resetStream (code : Nat)
  | stopSending (code : Nat)
  | submitHeaders
  | dropReader
  | dropWriter
  | ret
  -- ngtcp2 and nghttp3, about the incoming side
  | recvStreamData (data : List UInt8) (fin : Bool)
  | recvData (data : List UInt8)
  | endStream
  | streamReset
  | streamStopSending
  -- ... and about the outgoing one
  | recvStopSending
  | writePkt (r : PktResult)
  | acked (stop : Nat)
  | frame (n : Nat)
  | dataReader (veccnt header : Nat)
  | packet (n : Nat)
  | writeAcked (n : Nat)
  -- the session
  | fail (ec : ErrorCode)
  | destroy
deriving DecidableEq, Repr

/-! ### What the applications do with a stream -/

namespace QuicStream

/-- `StreamApplication::next_stream_data()`, for the stream at the front of the write queue: it
gets the packet unless it has nothing (more) to send. -/
def nextStreamData (q : QuicStream) : QuicStream × List IoVec × Bool :=
  q.pendingData q.tx.txSent 16

/-- Whether `next_stream_data()` returns this stream. -/
def hasStreamData (q : QuicStream) (vecs : List IoVec) (fin : Bool) : Bool :=
  !(vecs.isEmpty && (!fin || q.tx.finOffered))

/-- `StreamApplication::on_stream_data_written()`. -/
def onStreamDataWritten (q : QuicStream) (n : Nat) (fin : Bool) : QuicStream :=
  let q := q.onOffered (q.tx.txSent + n) fin
  q.onSent (q.tx.txSent + n)

/-- `Http3Stream::data_reader()`, after `pending_data()` has returned something. -/
def takeOffer (q : QuicStream) (vecs : List IoVec) (fin : Bool) : QuicStream :=
  q.onOffered (q.tx.txOffered + vecLen vecs) fin

/-- `Http3Stream::on_write_acked()`. -/
def onWriteAcked (q : QuicStream) (n : Nat) : QuicStream :=
  if 0 < n then q.onAcked (q.tx.txAcked + n) else q

/-- `Http3Stream::on_write_offered()`. -/
def onWriteOffered (q : QuicStream) (n : Nat) : QuicStream :=
  if 0 < n then q.onSent (q.tx.txSent + min n (q.tx.txOffered - q.tx.txSent)) else q

/-- `Stream::reset_stream()`, for a plain stream. -/
def userReset (q : QuicStream) (code : Nat) : QuicStream :=
  if q.sendingOver then q else (q.call (.resetWriting code)).abortWriting .canceled

/-- Only one write at a time: none is active, or all that is left of it is a FIN whose handler is
gone. -/
def writeReady (q : QuicStream) : Bool :=
  !q.tx.writeActive || (q.tx.writeHandler.isNone && q.tx.writeSource.isEmpty)

end QuicStream

namespace Stream

/-! ### Reading -/

/-- The loop of `call_read_handler()`, up to the next handler it invokes, or to its end. -/
def readLoop (m : Stream) (consumed : Nat) (k : Cont) (after : Stream → Stream) : Stream :=
  match m.q.readPass with
  | some (q, copied) => { m with q := q, frames := .loop (consumed + copied) k :: m.frames }
  | none => after { m with q := m.q.leaveReadLoop consumed }

def callReadHandlerThen (m : Stream) (k : Cont) (after : Stream → Stream) : Stream :=
  -- nobody reads, or the loop is running already
  if m.q.rx.readHandler = none ∨ m.q.rx.callReadHandlerActive = true then
    after m
  else
    readLoop { m with q := { m.q with rx := { m.q.rx with callReadHandlerActive := true } } }
      0 k after

def onEof (m : Stream) : Stream :=
  callReadHandlerThen { m with q := { m.q with rx := { m.q.rx with eofReceived := true } } }
    .caller id

/-- What follows `call_read_handler()` in its caller. -/
def resume (m : Stream) : Cont → Stream
  | .caller => m
  | .chunk fin =>
    let m := { m with q := m.q.parkIncoming }
    if fin then m.onEof else m

def callReadHandler (m : Stream) (k : Cont) : Stream := m.callReadHandlerThen k fun m => m.resume k

/-- `on_data_chunk()`, and `on_eof()` if the end of the body came with the data. -/
def onDataChunk (m : Stream) (data : List UInt8) (fin : Bool) : Stream :=
  -- a bare FIN
  if data = [] then
    if fin then m.onEof else m
  else
    callReadHandler { m with
      q := { m.q with rx := { m.q.rx with incoming := data } }
      received := m.received ++ data } (.chunk fin)

def abortReading (m : Stream) : Stream :=
  if m.q.rx.eofReceived || m.q.readAborted then
    m
  else
    callReadHandler { m with q := { m.q.clearIncoming with readAborted := true } } .caller

/-- `QuicReader::async_read_some()`. -/
def asyncReadSome (m : Stream) (h : Handler) (size : Nat) : Stream :=
  if size = 0 then
    { m with q := m.q.call (.completeRead h 0 .success []) }
  else
    match m.reader with
    | .detached ec => { m with q := m.q.call (.completeRead h size ec []) }
    | _ =>
      let q := m.q.call (.onCancel h .read)
      callReadHandler { m with q := { q with rx := { q.rx with
        readHandler := some h
        readHandlerBuffer := size } } } .caller

/-- The function `async_read_some()` binds to the slot of its handler. -/
def cancelRead (m : Stream) : Stream :=
  match m.q.rx.readHandler with
  | none => m
  | some h =>
    let q := { m.q with rx := { m.q.rx with readHandler := none } }
    { m with q := q.call (.completeRead h m.q.rx.readHandlerBuffer .canceled []) }

/-! ### Lifecycle -/

/-- `fail()`. A read that is waiting is completed in the middle of it, and so is, by
`Http3ClientStream::on_failed()`, a `get_response()`. -/
def fail (m : Stream) (ec : ErrorCode) : Stream :=
  let q := m.q.failReading ec
  -- what follows the handler is left to `ret`
  if m.q.rx.readHandler.isSome ∨ m.q.kind = .http3 then
    { m with q := q, frames := .failing ec :: m.frames }
  else
    { m with q := q.failWriting ec }

/-- `~QuicWriter()`, which calls the `delete_writer()` of the most derived stream. -/
def dropWriter (m : Stream) : Stream :=
  let q := { m.q with writer := false }
  match q.kind with
  | .plain _ => { m with q := q.deleteWriter }
  | .http3 =>
    if q.closed then
      { m with q := q.maybeClose }
    -- not even a header was sent, so the peer is told that nothing is going to come
    else if !q.headersSubmitted then
      { m with q := { (q.call (.shutdownStream 0x100)).call .wakeWrite with
          closed := true }.maybeClose }
    -- the body has no end, and is not going to have one
    else if !q.tx.eofSubmitted then
      { m with q := q.call (.resetStream q.resetErrorCode) }.fail .partialMessage
    else
      { m with q := q.maybeClose }

/-- `~QuicReader()`. -/
def dropReader (m : Stream) : Stream :=
  { m with q := { m.q with reader := false }.deleteReader, reader := .released }

/-- `detach_all()`, from the destructor of the stream: the adapters are told first. -/
def detachAll (m : Stream) : Stream :=
  { m with
    q := { m.q with reader := false, writer := false }.detachReading.detachWriting
    reader := match m.reader with
      | .attached => .detached (if m.q.readingFinished then .eof else .partialMessage)
      | r => r
    destroyed := true }

/-! ### Writing -/

/-- The number of bytes of the body that have gone into packets. -/
def bodySent (m : Stream) : Nat := (m.wire.take m.sent).count true

/-- Cancellation abandons the part of the last write that is not queued any more. -/
def abandon (queued : Nat) (writes : List WriteRec) : List WriteRec :=
  match writes.getLast? with
  | none => []
  | some w => writes.dropLast ++ [{ w with kept := queued - w.base, cancelled := true }]

def startWrite (m : Stream) (h : Option Handler) (buffer : List UInt8) (eof : Bool) : Stream :=
  let q := m.q.startWrite h buffer eof
  { m with
    q := q
    writes :=
      -- a new token is what a write gets that is accepted
      if q.tx.nextWriteToken = m.q.tx.nextWriteToken then m.writes
      else m.writes ++ [⟨q.tx.writeToken, h, q.tx.writeBase, buffer, eof, buffer.length, false⟩] }

def cancelWrite (m : Stream) (token : Nat) : Stream :=
  let q := m.q.cancelWrite token
  { m with
    q := q
    writes :=
      -- it is the active write that is abandoned
      if m.q.tx.writeActive && !q.tx.writeActive then abandon q.tx.txQueued m.writes
      else m.writes }

/-- One stream's turn in `QuicSession::write_pkt()`: `next_stream_data()`, and what ngtcp2 reports
about it. -/
def writePkt (m : Stream) (r : PktResult) : Option Stream :=
  let (q, vecs, fin) := m.q.nextStreamData
  let offer : Nat → List Offer := fun n => m.offers ++ [⟨m.q.tx.txSent, vecs, fin, n⟩]
  if q.hasStreamData vecs fin then
    match r with
    | .written n =>
      if n ≤ vecLen vecs then
        -- the FIN goes out with the last of the data, so only if all of it went into the packet
        some { m with
          q := q.onStreamDataWritten n (fin && n == vecLen vecs)
          offers := offer n
          wire := m.wire ++ List.replicate n true
          sent := m.sent + n }
      else none
    | .notWritten => some { m with q := q, offers := offer 0 }
    | .shutWr => some { m with q := q.abortWriting .connectionReset, offers := offer 0 }
  else
    some { m with q := q, offers := offer 0 }

/-- nghttp3 asks for data, through `Http3Stream::data_reader()`, and queues what it gets behind
the header of a DATA frame. -/
def dataReader (m : Stream) (veccnt header : Nat) : Stream :=
  if veccnt = 0 then
    m
  else
    let (q, vecs, fin) := m.q.pendingData m.q.tx.txOffered veccnt
    -- nothing to send: nghttp3 waits to be resumed
    if vecs = [] ∧ fin = false then
      { m with q := q, offers := m.offers ++ [⟨m.q.tx.txOffered, vecs, fin, 0⟩] }
    else
      { m with
        q := q.takeOffer vecs fin
        offers := m.offers ++ [⟨m.q.tx.txOffered, vecs, fin, vecLen vecs⟩]
        wire := m.wire ++ List.replicate header false ++ List.replicate (vecLen vecs) true }

/-! ### Steps -/

/-- Nothing of the stream is running, so that the stack can act. -/
def idle (m : Stream) : Bool := m.frames.isEmpty

/-- Whether the stack may still report something about the incoming side. -/
def receiving (m : Stream) : Bool :=
  m.idle && !m.q.closed && !m.q.rx.eofReceived && !m.peerReset

def isPlain (m : Stream) : Bool := m.q.kind != .http3

def act (m : Stream) : Act → Option Stream
  | .startWrite h buffer eof =>
    if m.q.writer ∧ m.q.writeReady then some (m.startWrite h buffer eof) else none
  | .cancelWrite token => some (m.cancelWrite token)
  | .asyncReadSome h size =>
    if m.reader ≠ .released ∧ m.q.rx.readHandler = none then some (m.asyncReadSome h size)
    else none
  | .cancelRead => if m.reader = .attached then some m.cancelRead else none
  | .resetStream code =>
    if m.isPlain ∧ (m.q.reader ∨ m.q.writer) then some { m with q := m.q.userReset code } else none
  | .stopSending code =>
    if m.isPlain ∧ (m.q.reader ∨ m.q.writer) then
      if m.q.closed || m.q.readAborted || m.q.rx.eofReceived then some m
      else some { m with q := m.q.call (.stopReading code) }.abortReading
    else none
  | .submitHeaders =>
    if m.q.kind = .http3 ∧ m.q.writer ∧ m.q.closed = false then
      some { m with q := { m.q with headersSubmitted := true } }
    else none
  | .dropReader => if m.reader = .attached then some m.dropReader else none
  | .dropWriter => if m.q.writer then some m.dropWriter else none
  | .ret =>
    match m.frames with
    | [] => none
    | .loop consumed k :: frames =>
      some ({ m with frames := frames }.readLoop consumed k fun m => m.resume k)
    | .failing ec :: frames => some { m with frames := frames, q := m.q.failWriting ec }
  | .recvStreamData data fin =>
    if m.isPlain ∧ m.receiving then
      -- after STOP_SENDING, data is dropped
      if m.q.readAborted then some m else some (m.onDataChunk data fin)
    else none
  | .recvData data =>
    if m.q.kind = .http3 ∧ m.receiving then some (m.onDataChunk data false) else none
  | .endStream => if m.q.kind = .http3 ∧ m.receiving then some m.onEof else none
  | .streamReset =>
    if m.receiving then
      -- HTTP/3 tells nghttp3 only; the stream learns of it when it is closed
      if m.isPlain then some { m with peerReset := true }.abortReading
      else some { m with peerReset := true }
    else none
  | .streamStopSending => if m.isPlain ∧ m.idle then some m.abortReading else none
  | .recvStopSending =>
    if m.isPlain ∧ m.idle then some { m with q := m.q.abortWriting .connectionReset } else none
  | .writePkt r => if m.isPlain ∧ m.idle then m.writePkt r else none
  | .acked stop =>
    if m.isPlain ∧ m.idle ∧ stop ≤ m.bodySent then some { m with q := m.q.onAcked stop } else none
  | .frame n =>
    if m.q.kind = .http3 then some { m with wire := m.wire ++ List.replicate n false } else none
  | .dataReader veccnt header =>
    if m.q.kind = .http3 ∧ m.idle then some (m.dataReader veccnt header) else none
  | .packet n =>
    if m.q.kind = .http3 ∧ m.idle ∧ m.sent + n ≤ m.wire.length then
      some { m with q := m.q.onWriteOffered n, sent := m.sent + n }
    else none
  | .writeAcked n =>
    if m.q.kind = .http3 ∧ m.idle ∧ m.q.tx.txAcked + n ≤ m.bodySent then
      some { m with q := m.q.onWriteAcked n }
    else none
  -- from the stack, or by the user who closes the session from inside a handler
  | .fail ec => some (m.fail ec)
  | .destroy => if m.idle then some m.detachAll else none

/-- What can still be done with a stream that has been destroyed: reading through the detached
adapter. -/
def actDetached (m : Stream) : Act → Option Stream
  | .asyncReadSome h size =>
    if m.reader ≠ .released then some (m.asyncReadSome h size) else none
  | .dropReader => some { m with reader := .released }
  | _ => none

/-- Before a step: it has made no calls yet. -/
def fresh (m : Stream) : Stream := { m with q := { m.q with calls := [] } }

/-- After a step: its calls become part of the past. -/
def record (m : Stream) : Stream := { m with trace := m.trace ++ m.q.calls }

def step (m : Stream) (a : Act) : Option Stream :=
  (if m.destroyed then m.fresh.actDetached a else m.fresh.act a).map record

/-- A stream that has just been made, with both of its handles. -/
def init (kind : Kind) (mode : WriteMode) (headersSubmitted : Bool) : Stream :=
  { q := { kind := kind, writeMode := mode, headersSubmitted := headersSubmitted } }

/-- The states of the runs of a stream of this kind. -/
def Reachable (kind : Kind) (mode : WriteMode) (m : Stream) : Prop :=
  ∃ headers acts, run step (init kind mode headers) acts = some m

/-- The state that a run from the start ends in (and the first one, if the run is not possible). -/
def after (kind : Kind) (mode : WriteMode) (acts : List Act) : Stream :=
  (run step (init kind mode true) acts).getD (init kind mode true)

theorem reachable_after {kind : Kind} {mode : WriteMode} {acts : List Act}
    (h : (run step (init kind mode true) acts).isSome = true) :
    Reachable kind mode (after kind mode acts) := by
  refine ⟨true, acts, ?_⟩
  obtain ⟨m, hm⟩ := Option.isSome_iff_exists.mp h
  rw [after, hm]
  rfl

end Stream

end AnyHttp.Quic
