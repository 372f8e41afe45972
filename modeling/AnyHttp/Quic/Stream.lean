import AnyHttp.Common
import AnyHttp.Lib.Segments

/-!
# `QuicStream`: one QUIC stream

The byte stream itself, shared by the server and the client and by whatever protocol runs on top
(`quic/stream.hpp`, `quic/stream.cpp`).  The two directions are records of their own, `Incoming`
and `Outgoing`, with the fields of the class under the names they have there; everything outgoing
is counted in bytes of the body, from its start.

A function of the class that completes handlers or calls into the session appends what it does to
`calls`, in order.  A handler that is invoked or posted shows up as `completeRead` or
`completeWrite`; the two differ in when the caller resumes, not in what the stream is left with,
so they are not told apart.  What the resumed caller may do *before* the function returns is the
business of `Quic/Driver.lean`.

Positions are natural numbers: the subtractions of the source are unsigned, and that none of them
wraps is part of what is proved about them.
-/

namespace AnyHttp.Quic

open Lib

/-- How a stream hands the caller's buffer down to the QUIC stack. -/
inductive WriteMode
  | zeroCopy
  | staged
deriving DecidableEq, Repr

/-- The part of `quic::Config` that a plain stream reads. -/
structure Config where
  resetErrorCode : Nat
  stopSendingErrorCode : Nat
deriving DecidableEq, Repr

/-- The most derived class: what the virtual functions of `QuicStream` come down to. -/
inductive Kind
  | plain (config : Config)
  | http3
deriving DecidableEq, Repr

/-- Bound on how much of the caller's buffer a staged stream copies at a time. -/
def kWriteChunkSize : Nat := 16 * 1024

/-- A stream-owned copy of a piece of the body, kept until the peer has acknowledged it. -/
abbrev Chunk := Segment UInt8

/-- What `on_cancel` binds to a cancellation slot: the function it runs on emission. -/
inductive CancelFn
  | write (token : Nat)
  | read
deriving DecidableEq, Repr

/-- What a stream does to the outside. -/
inductive Call
  | onCancel (h : Handler) (fn : CancelFn)
  | completeWrite (h : Handler) (ec : ErrorCode)
  | completeRead (h : Handler) (size : Nat) (ec : ErrorCode) (bytes : List UInt8)
  | onWritable
  | resetWriting (code : Nat)
  | resetStream (code : Nat)
  | shutdownStream (code : Nat)
  | stopReading (code : Nat)
  | consumeStream (n : Nat)
  | wakeWrite
  | eraseStream
deriving DecidableEq, Repr

/-- Incoming body. -/
structure Incoming where
  pendingRead : List (List UInt8) := []
  readHead : List UInt8 := []
  incoming : List UInt8 := []
  eofReceived : Bool := false
  readHandler : Option Handler := none
  readHandlerBuffer : Nat := 0
  callReadHandlerActive : Bool := false
deriving DecidableEq, Repr

/-- Outgoing body. -/
structure Outgoing where
  writeActive : Bool := false
  writeSource : List UInt8 := []
  writeIsEof : Bool := false
  writeHandler : Option Handler := none
  writeToken : Nat := 0
  nextWriteToken : Nat := 1
  eofSubmitted : Bool := false
  finOffered : Bool := false
  writeBase : Nat := 0
  writeCopied : Nat := 0
  txQueued : Nat := 0
  txOffered : Nat := 0
  txSent : Nat := 0
  txAcked : Nat := 0
  chunks : List Chunk := []
deriving DecidableEq, Repr

structure QuicStream where
  kind : Kind
  writeMode : WriteMode
  rx : Incoming := {}
  tx : Outgoing := {}
  reader : Bool := true
  writer : Bool := true
  closed : Bool := false
  readAborted : Bool := false
  writeAborted : Bool := false
  headersSubmitted : Bool := false
  calls : List Call := []
deriving DecidableEq, Repr

/-- Memory handed down to the stack, as `ngtcp2_vec` and `nghttp3_vec` describe it: `len` bytes at
`off` within `mem`, which is the caller's buffer of the write with this token, or a chunk of the
stream's own. -/
structure IoVec where
  owner : Option Nat
  mem : List UInt8
  off : Nat
  len : Nat
deriving DecidableEq, Repr

/-- What is at the other end of the pointer. -/
def IoVec.bytes (v : IoVec) : List UInt8 := (v.mem.drop v.off).take v.len

/-- The bytes a list of vecs points at, one vec after the other. -/
def vecBytes (vecs : List IoVec) : List UInt8 := vecs.flatMap IoVec.bytes

/-- The number of bytes a list of vecs claims to point at. -/
def vecLen (vecs : List IoVec) : Nat := (vecs.map IoVec.len).sum

/-! ### The positions of the outgoing body -/

namespace Outgoing

/-- What `start_write()` records of a write it accepts: it starts where what is queued ends. -/
def begin (t : Outgoing) (mode : WriteMode) (h : Option Handler) (buffer : List UInt8)
    (eof : Bool) : Outgoing :=
  { t with
    eofSubmitted := t.eofSubmitted || eof
    nextWriteToken := t.nextWriteToken + 1
    writeActive := true
    writeSource := buffer
    writeBase := t.txQueued
    writeCopied := 0
    writeIsEof := eof
    writeToken := t.nextWriteToken
    writeHandler := h
    txQueued := match mode with
      | .zeroCopy => t.txQueued + buffer.length
      | .staged => t.txQueued }

/-- The active write is over, and the caller's buffer is its own again. -/
def release (t : Outgoing) : Outgoing :=
  { t with writeActive := false, writeSource := [], writeHandler := none }

/-- The active write, which is not a bare end-of-body, is cancelled: what was not handed over
(`zeroCopy`) or copied (`staged`) is no longer there to send, and neither is the end of the body,
unless it has been handed over. -/
def cancel (t : Outgoing) (mode : WriteMode) : Outgoing :=
  { t.release with
    txQueued := match mode with
      | .zeroCopy => t.txOffered
      | .staged => t.txQueued
    eofSubmitted := t.eofSubmitted &&
      !(t.writeIsEof && (mode == .zeroCopy || !t.finOffered)) }

/-- Staged: copies the next slice of the caller's buffer, once everything before it is in
packets. -/
def carve (t : Outgoing) (mode : WriteMode) : Outgoing :=
  if mode = .staged ∧ t.writeActive = true ∧ t.txQueued ≤ t.txSent ∧
      t.writeCopied < t.writeSource.length then
    { t with
      chunks := t.chunks ++ [⟨t.txQueued, (t.writeSource.drop t.writeCopied).take
        (min (t.writeSource.length - t.writeCopied) kWriteChunkSize)⟩]
      writeCopied := t.writeCopied + min (t.writeSource.length - t.writeCopied) kWriteChunkSize
      txQueued := t.txQueued + min (t.writeSource.length - t.writeCopied) kWriteChunkSize }
  else
    t

/-- Staged: the vecs for what the chunks have from `start` on, at most `room` of them, and where
the last of them ends (`stop`, if there is none). -/
def chunkVecs (start : Nat) : Nat → Nat → List Chunk → List IoVec × Nat
  | _, stop, [] => ([], stop)
  | room, stop, c :: cs =>
    if c.stop ≤ start then
      chunkVecs start room stop cs
    else
      match room with
      | 0 => ([], stop)
      | room + 1 =>
        let skip := if c.offset < start then start - c.offset else 0
        let rest := chunkVecs start room c.stop cs
        (⟨none, c.data, skip, c.data.length - skip⟩ :: rest.1, rest.2)

/-- The vecs for what there is to send from body offset `start` on, and where they end. -/
def sourceVecs (t : Outgoing) (mode : WriteMode) (start room : Nat) : List IoVec × Nat :=
  match mode with
  | .zeroCopy =>
    if t.writeActive = true ∧ start < t.txQueued then
      ([⟨some t.writeToken, t.writeSource, start - t.writeBase, t.txQueued - start⟩], t.txQueued)
    else
      ([], start)
  | .staged => chunkVecs start room start t.chunks

/-- Whether data that ends at `stop` ends the body. -/
def endsAt (t : Outgoing) (mode : WriteMode) (stop : Nat) : Bool :=
  t.writeActive && t.writeIsEof &&
    (mode == .zeroCopy || t.writeCopied == t.writeSource.length) && decide (t.txQueued ≤ stop)

/-- The stack has taken everything up to `stop`, and the FIN. -/
def offered (t : Outgoing) (stop : Nat) (fin : Bool) : Outgoing :=
  { t with
    txOffered := max t.txOffered (min stop t.txQueued)
    finOffered := t.finOffered || fin }

/-- Everything up to `stop` has gone into packets. -/
def sent (t : Outgoing) (stop : Nat) : Outgoing := { t with txSent := min stop t.txOffered }

/-- The peer has everything up to `stop`: a chunk below that is of no more use. -/
def acked (t : Outgoing) (stop : Nat) : Outgoing :=
  { t with txAcked := stop, chunks := dropBelow stop t.chunks }

end Outgoing

namespace QuicStream

def call (q : QuicStream) (c : Call) : QuicStream := { q with calls := q.calls ++ [c] }

/-- Completes a write handler; a handler that is empty is quietly dropped. -/
def completeWrite (q : QuicStream) (h : Option Handler) (ec : ErrorCode) : QuicStream :=
  match h with
  | none => q
  | some h => q.call (.completeWrite h ec)

/-- Both directions are over, or the outgoing one is: nothing more is handed out. -/
def sendingOver (q : QuicStream) : Bool := q.closed || q.writeAborted

/-! ### What the protocol on top decides -/

def resetErrorCode (q : QuicStream) : Nat :=
  match q.kind with
  | .plain config => config.resetErrorCode
  | .http3 => 0x10c  -- NGHTTP3_H3_REQUEST_CANCELLED

def stopSendingErrorCode (q : QuicStream) : Nat :=
  match q.kind with
  | .plain config => config.stopSendingErrorCode
  | .http3 => 0x100  -- NGHTTP3_H3_NO_ERROR

/-- `reset_writing()`: RESET_STREAM on a plain stream, while HTTP/3 resets the whole stream. -/
def resetWriting (q : QuicStream) : QuicStream :=
  match q.kind with
  | .plain _ => { q.call (.resetWriting q.resetErrorCode) with writeAborted := true }
  | .http3 => { q.call (.resetStream q.resetErrorCode) with closed := true }

/-! ### Outgoing body -/

/-- Arms cancellation; there is nothing to bind for a caller that passed no handler. -/
def bindWriteCancellation (q : QuicStream) (h : Option Handler) (token : Nat) : QuicStream :=
  match h with
  | none => q
  | some h => q.call (.onCancel h (.write token))

def startWrite (q : QuicStream) (h : Option Handler) (buffer : List UInt8) (eof : Bool) :
    QuicStream :=
  if buffer = [] ∧ eof = false then
    q.completeWrite h .success
  else if q.tx.eofSubmitted then
    if buffer ≠ [] then
      q.completeWrite h .brokenPipe
    else if q.tx.writeActive && q.tx.writeIsEof && !q.sendingOver then
      -- a FIN still pending: adopt this handler
      let q := q.bindWriteCancellation h q.tx.writeToken
      { q with tx := { q.tx with writeHandler := h } }
    else
      q.completeWrite h
        (if q.sendingOver && !q.tx.finOffered then .connectionReset else .success)
  else if q.sendingOver then
    q.completeWrite h .connectionReset
  else
    let q := q.bindWriteCancellation h q.tx.nextWriteToken
    { q with tx := q.tx.begin q.writeMode h buffer eof }.call .onWritable

/-- Zero-copy: what the stack holds of the caller's buffer has to stop being referenced before the
caller gets it back, which only a reset can guarantee. -/
def letGo (q : QuicStream) : QuicStream :=
  if q.writeMode = .zeroCopy ∧ q.tx.txAcked < q.tx.txOffered ∧ q.sendingOver = false then
    q.resetWriting
  else
    q

/-- The function `bind_write_cancellation()` binds for the write with this token. -/
def cancelWrite (q : QuicStream) (token : Nat) : QuicStream :=
  -- another write has begun, or the handler has been called
  if q.tx.writeToken ≠ token ∨ q.tx.writeHandler = none then
    q
  else if q.tx.writeIsEof = true ∧ q.tx.writeSource = [] then
    -- the FIN still goes out, only the handler is detached
    { q with tx := { q.tx with writeHandler := none } }.completeWrite q.tx.writeHandler .canceled
  else
    { q.letGo with tx := q.tx.cancel q.writeMode }.completeWrite q.tx.writeHandler .canceled

/-- `pending_data(from, vec, fin)`: the stream afterwards, the vecs, and `fin`. -/
def pendingData (q : QuicStream) (start room : Nat) : QuicStream × List IoVec × Bool :=
  -- without room, or when nothing more is to be sent
  if room = 0 ∨ q.sendingOver = true then
    (q, [], false)
  else
    let q := { q with tx := q.tx.carve q.writeMode }
    let vecs := q.tx.sourceVecs q.writeMode start room
    (q, vecs.1, q.tx.endsAt q.writeMode vecs.2)

/-- Completes the active write and releases the caller's buffer. -/
def finishActiveWrite (q : QuicStream) : QuicStream :=
  { q with tx := q.tx.release }.completeWrite q.tx.writeHandler .success

def onOffered (q : QuicStream) (stop : Nat) (fin : Bool) : QuicStream :=
  let q := { q with tx := q.tx.offered stop fin }
  if fin = true ∧ q.tx.writeActive = true ∧ q.tx.writeSource = [] then
    q.finishActiveWrite
  else
    q

def onSent (q : QuicStream) (stop : Nat) : QuicStream :=
  -- nothing new
  if stop ≤ q.tx.txSent then
    q
  else
    let q := { q with tx := q.tx.sent stop }
    if q.writeMode ≠ .staged ∨ q.tx.writeActive = false ∨ q.tx.txSent < q.tx.txQueued then
      q
    -- a bare end of the body is done when it is handed over
    else if q.tx.writeSource = [] then
      q
    -- ... and any other write when all of it is in packets, else its next slice is due
    else if q.tx.writeCopied = q.tx.writeSource.length then
      q.finishActiveWrite
    else
      q.call .onWritable

def onAcked (q : QuicStream) (stop : Nat) : QuicStream :=
  let stop := min stop q.tx.txOffered
  if stop ≤ q.tx.txAcked then
    q
  else
    let q := { q with tx := q.tx.acked stop }
    -- nothing refers to the caller's buffer any more
    if q.writeMode = .zeroCopy ∧ q.tx.writeActive = true ∧ q.tx.writeSource ≠ [] ∧
        q.tx.writeBase + q.tx.writeSource.length ≤ q.tx.txAcked then
      q.finishActiveWrite
    else
      q

/-! ### Incoming body -/

/-- Fills a buffer of `dest` bytes from the queued chunks: what is copied, what is left of the
view of the first one, and the chunks. -/
def takeParked : Nat → List UInt8 → List (List UInt8) →
    List UInt8 × List UInt8 × List (List UInt8)
  | dest, head, [] => (head.take dest, head.drop dest, [])
  | dest, head, chunk :: rest =>
    if dest = 0 ∨ head = [] then
      ([], head, chunk :: rest)
    else if head.length ≤ dest then
      -- the first chunk is used up: on to the next one
      let next := takeParked (dest - head.length) (rest.head?.getD []) rest
      (head ++ next.1, next.2)
    else
      (head.take dest, head.drop dest, chunk :: rest)

/-- One pass of the loop of `call_read_handler()`: completes the read that is waiting, if there is
something to complete it with, and tells how many bytes that took. `none` is where the loop
ends. -/
def readPass (q : QuicStream) : Option (QuicStream × Nat) :=
  match q.rx.readHandler with
  | none => none
  | some h =>
    let size := q.rx.readHandlerBuffer
    let q' := { q with rx := { q.rx with readHandler := none } }
    -- first what is parked, then the chunk that arrives
    if q.rx.readHead ≠ [] ∨ q.rx.incoming ≠ [] then
      let parked := takeParked size q.rx.readHead q.rx.pendingRead
      let dest := size - parked.1.length
      let copied := parked.1 ++ q.rx.incoming.take dest
      some ({ q' with rx := { q'.rx with
        readHead := parked.2.1
        pendingRead := parked.2.2
        incoming := q.rx.incoming.drop dest } }.call (.completeRead h size .success copied),
        copied.length)
    else if q.rx.eofReceived then
      some (q'.call (.completeRead h size .eof []), 0)
    -- without an end, no more is to come
    else if q.closed || q.readAborted then
      some (q'.call (.completeRead h size .partialMessage []), 0)
    else
      none

/-- The end of `call_read_handler()`: credit for what was delivered. -/
def leaveReadLoop (q : QuicStream) (consumed : Nat) : QuicStream :=
  { q with rx := { q.rx with callReadHandlerActive := false } }.call (.consumeStream consumed)

/-- True once the peer ended the body and every byte of it has been delivered to the reader. -/
def readingFinished (q : QuicStream) : Bool :=
  q.rx.eofReceived && q.rx.readHead.isEmpty && q.rx.incoming.isEmpty

/-- Parks what the reader did not take of the chunk being delivered. -/
def parkIncoming (q : QuicStream) : QuicStream :=
  if q.rx.incoming = [] then
    q
  else
    let pending := q.rx.pendingRead ++ [q.rx.incoming]
    { q with rx := { q.rx with
      pendingRead := pending
      readHead := if q.rx.readHead = [] then pending.head?.getD [] else q.rx.readHead
      incoming := [] } }

/-- Drops what is buffered of the incoming body. -/
def clearIncoming (q : QuicStream) : QuicStream :=
  { q with rx := { q.rx with pendingRead := [], readHead := [], incoming := [] } }

/-! ### Lifecycle -/

def maybeClose (q : QuicStream) : QuicStream :=
  -- somebody may still use it
  if q.reader || q.writer || !q.closed then q else q.call .eraseStream

def abortWriting (q : QuicStream) (ec : ErrorCode) : QuicStream :=
  let q := { q with writeAborted := true }
  if q.tx.writeActive = false then
    q
  else
    { q with tx := q.tx.release }.completeWrite q.tx.writeHandler ec

/-- The first half of `fail()`: the stream is closed, and a read that is waiting completes. -/
def failReading (q : QuicStream) (ec : ErrorCode) : QuicStream :=
  let q := { q with closed := true }
  match q.rx.readHandler with
  | none => q
  | some h =>
    let readEc : ErrorCode :=
      if ec ≠ ErrorCode.success ∧ q.rx.eofReceived = false then .partialMessage else ec
    { q with rx := { q.rx with readHandler := none } }.call
      (.completeRead h q.rx.readHandlerBuffer readEc [])

/-- The second half of `fail()`, after what the first one resumed has returned. -/
def failWriting (q : QuicStream) (ec : ErrorCode) : QuicStream :=
  let q :=
    if q.tx.writeActive then
      { q with tx := q.tx.release }.completeWrite q.tx.writeHandler
        (if ec = ErrorCode.success then .connectionReset else ec)
    else q
  q.maybeClose

/-- `delete_writer()` of a plain stream. -/
def deleteWriter (q : QuicStream) : QuicStream :=
  if q.sendingOver then
    q.maybeClose
  else
    let q := if q.tx.eofSubmitted then q else q.resetWriting.abortWriting .connectionReset
    q.maybeClose

/-- `delete_reader()`, with the reading adapter already detached. -/
def deleteReader (q : QuicStream) : QuicStream :=
  let q := q.clearIncoming
  let q :=
    if !q.rx.eofReceived && !q.closed && !q.readAborted then
      q.call (.stopReading q.stopSendingErrorCode)
    else q
  q.maybeClose

/-- `detach_all()`: a read that is still waiting when the stream is destroyed. -/
def detachReading (q : QuicStream) : QuicStream :=
  match q.rx.readHandler with
  | none => q
  | some h =>
    { q with rx := { q.rx with readHandler := none } }.call
      (.completeRead h q.rx.readHandlerBuffer .connectionReset [])

/-- ... and a write. -/
def detachWriting (q : QuicStream) : QuicStream :=
  if q.tx.writeActive then
    { q with tx := { q.tx with writeHandler := none } }.completeWrite q.tx.writeHandler
      .connectionReset
  else
    q

end QuicStream

end AnyHttp.Quic
