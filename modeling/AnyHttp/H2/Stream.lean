import AnyHttp.Common
import AnyHttp.Lib.Run

/-!
# `NGHttp2Stream`: one HTTP/2 stream

A stream of an HTTP/2 session, with either backend (`h2/stream.cpp` for version 1 of nghttp2 and
`h2v2/stream.cpp` for version 2), and `close_stream()` of the session it belongs to.  The two have
everything in common but the outgoing body, which version 1 copies and version 2 takes by reference,
or from a copy (`WriteMode`).

*Re-entrancy.*  Handlers are invoked from the middle of the functions that complete them, and what
the user does there happens before these go on.  `frames` is the stack of these unfinished calls, a
frame says where the call goes on when the handler has returned (`ret`).  `call_read_handler()` does
not nest, so that its locals, `view` and `consumed` (until there is credit for it), are fields.

*The engine.*  Of nghttp2, the model has what it promises, as conditions on the actions: it does not
call back into a stream while a callback of it is running, reports nothing about a stream after its
end or its close, and version 2 asks for more of the body only when all it has been given is framed.

*Undefined behaviour.*  An iterator into `streams_` that is used after its stream has been removed
is what sets `fault`.  The stream goes on as if nothing had been removed, but that is not what the
code does then: nothing is said about a stream with a `fault`, except how it has come to it.

*The past.*  `received` is the incoming body so far, `writes` the writes that have been accepted,
`handed` the bytes nghttp2 has been given, `ended` how many these were when the flag for the end of
the body was last set, and `trace` everything the stream ever did.
-/

namespace AnyHttp.H2

/-- How a stream hands the caller's buffer down to version 2 of nghttp2. -/
inductive WriteMode
  | zeroCopy
  | staged
deriving DecidableEq, Repr

inductive Backend
  | v1
  | v2 (mode : WriteMode)
deriving DecidableEq, Repr

/-- Header fields in the order they came. -/
abbrev Fields := List (List Char × List Char)

/-- `write_chunk_size`: one DATA frame. -/
def writeChunkSize : Nat := 16 * 1024

/-- `header_field_size()` -/
def headerFieldSize (field : List Char × List Char) : Nat :=
  field.1.length + field.2.length + 32

/-- `std::from_chars()` for an `unsigned int`, which keeps the value zero unless there is a number
in front. -/
def fromChars (value : List Char) : Nat :=
  (AnyHttp.fromChars charDigit 32 value).elim 0 Prod.fst

/-- `http::error::end_of_stream`, as Beast reports it. -/
def endOfStream : ErrorCode := .other 1

/-- What a stream does to the outside. -/
inductive Call
  /-- A read with a buffer of `size` bytes completes: `bytes` have been copied to it, and `count` is
  what the handler is told. -/
  | completeRead (h : Handler) (size : Nat) (ec : ErrorCode) (count : Nat) (bytes : List UInt8)
  | completeWrite (h : Handler) (ec : ErrorCode)
  /-- With the status code and the fields of the response, as they are at this time. -/
  | completeResponse (h : Handler) (ec : ErrorCode) (response : Option (Nat × Fields))
  | consumeStream (n : Nat)
  | resumeData
  | resetStream
  /-- What is posted resets the stream, unless it is closed by then. -/
  | postReset
deriving DecidableEq, Repr

/-- How `maybe_close_stream()` has a stream reset. Version 2 does not do it from there, as it may be
running inside of nghttp2, where the last frame of the body would be lost. -/
def Backend.reset : Backend → Call
  | .v1 => .resetStream
  | .v2 _ => .postReset

theorem Backend.reset_cases (b : Backend) : b.reset = .resetStream ∨ b.reset = .postReset := by
  cases b with
  | v1 => exact .inl rfl
  | v2 _ => exact .inr rfl

/-- Incoming body. -/
structure Incoming where
  bytesRead : Nat := 0
  eofReceived : Bool := false
  readBuffer : List UInt8 := []
  pendingReadBuffers : List (List UInt8) := []
  readHandler : Option Handler := none
  readHandlerBuffer : Nat := 0
  insideCallReadHandler : Bool := false
  view : List UInt8 := []
  consumed : Nat := 0
deriving DecidableEq, Repr

/-- Outgoing body. -/
structure Outgoing where
  writeBuffer : List UInt8 := []
  writeHandler : Option Handler := none
  isDeferred : Bool := false
  offered : Nat := 0
  written : Nat := 0
  writeCancelled : Bool := false
  eofRequested : Bool := false
  eofSubmitted : Bool := false
deriving DecidableEq, Repr

/-- The response, on the client side. -/
structure Exchange where
  responseHandler : Option Handler := none
  hasResponse : Bool := false
  responseDelivered : Bool := false
  responseError : Option ErrorCode := none
  statusCode : Option Nat := none
  fields : Fields := []
  headerSize : Nat := 0
  headerLimitExceeded : Bool := false
  /-- A header section has arrived: what nghttp2 version 1 tells a response from trailers by. -/
  headersSeen : Bool := false
deriving DecidableEq, Repr

/-- A reading adapter: not there yet, attached, detached with what `detach()` latched, or
released. -/
inductive ReaderHandle
  | absent
  | attached
  | detached (ec : ErrorCode)
  | released
deriving DecidableEq, Repr

/-- The user has it. -/
def ReaderHandle.held : ReaderHandle → Bool
  | .attached | .detached _ => true
  | .absent | .released => false

inductive WriterHandle
  | attached
  | detached (eofSubmitted : Bool)
  | released
deriving DecidableEq, Repr

/-- Where a call goes on after the handler it has invoked. -/
inductive Frame
  /-- `call_read_handler()`, after it has delivered data, the end, or a truncation. -/
  | data
  | eof
  | truncated
  /-- `close_stream()`, after the handlers of a write, a read, and `get_response()`. -/
  | closing
  | erasing
  | erased
  /-- `deliver_response()`, after an error. -/
  | failed
  /-- Nothing is left to do. -/
  | done
deriving DecidableEq, Repr

/-- A write that has been accepted. -/
structure WriteRec where
  handler : Handler
  buffer : List UInt8
  eof : Bool
  /-- How much of it nghttp2 has been given. -/
  taken : Nat := 0
  /-- The end of the body was given along with it, while it was waiting. -/
  ended : Bool := false
  /-- What it has completed with. -/
  result : Option ErrorCode := none
  /-- How much of it nghttp2 had been given then, ... -/
  settled : Nat := 0
  /-- ... how much of that was not framed yet, ... -/
  outstanding : Nat := 0
  /-- ... and whether the stream was closed, or about to be destroyed. -/
  closed : Bool := false
deriving DecidableEq, Repr

structure Stream where
  backend : Backend
  maxHeaderSize : Nat
  isServer : Bool
  rx : Incoming := {}
  tx : Outgoing := {}
  rs : Exchange := {}
  /-- The adapters that the stream knows. -/
  reader : Bool := false
  writer : Bool := true
  closed : Bool := false
  closeDeferred : Bool := false
  /-- In `streams_` of the session. -/
  registered : Bool := true
  /-- Something undefined has happened. -/
  fault : Bool := false
  deletePending : Bool := false
  destroyed : Bool := false
  frames : List Frame := []
  readerHandle : ReaderHandle := .absent
  writerHandle : WriterHandle := .attached
  /-- How much of `handed` has been framed. -/
  framed : Nat := 0
  received : List UInt8 := []
  writes : List WriteRec := []
  handed : List UInt8 := []
  ended : Option Nat := none
  trace : List Call := []
deriving DecidableEq, Repr

inductive Action
  -- the user
  | asyncReadSome (h : Handler) (size : Nat)
  | cancelRead
  | asyncWrite (h : Handler) (buffer : List UInt8) (eof : Bool)
  | cancelWrite
  | asyncGetResponse (h : Handler)
  | cancelResponse
  | dropReader
  | dropWriter
  | ret
  -- nghttp2
  | onHeaders (fields : Fields)
  | onTrailers (fields : Fields)
  | onData (data : List UInt8)
  | onEof
  | producer (length : Nat)
  | dataReader (veccnt : Nat)
  | writeOffset (len : Nat)
  | streamClose
  -- the session: the stream is destroyed
  | destroy
deriving DecidableEq, Repr

namespace Stream

def call (m : Stream) (c : Call) : Stream := { m with trace := m.trace ++ [c] }

def push (m : Stream) (f : Frame) : Stream := { m with frames := f :: m.frames }

/-- `reading_finished()` -/
def readingFinished (m : Stream) : Bool :=
  !m.reader || (m.rx.eofReceived && m.rx.readBuffer.isEmpty)

/-- `read_buffers_size()` -/
def readBuffersSize (m : Stream) : Nat :=
  m.rx.readBuffer.length + ((m.rx.pendingReadBuffers.drop 1).map List.length).sum

/-! ### Completing handlers -/

/-- Completes the read that is waiting, with `bytes` copied to its buffer. -/
def completeRead (m : Stream) (h : Handler) (ec : ErrorCode) (count : Nat) (bytes : List UInt8) :
    Stream :=
  { m with rx := { m.rx with readHandler := none } }.call
    (.completeRead h m.rx.readHandlerBuffer ec count bytes)

/-- What becomes of the last write. -/
def updateWrite (writes : List WriteRec) (f : WriteRec → WriteRec) : List WriteRec :=
  writes.modify (writes.length - 1) f

/-- Completes the write that is waiting. -/
def completeWrite (m : Stream) (h : Handler) (ec : ErrorCode) : Stream :=
  { m with
    tx := { m.tx with writeHandler := none }
    writes := updateWrite m.writes fun w =>
      { w with
        result := some ec
        settled := w.taken
        outstanding := m.tx.offered - m.tx.written
        closed := m.closed || m.destroyed } }.call (.completeWrite h ec)

def completeResponse (m : Stream) (h : Handler) (ec : ErrorCode)
    (response : Option (Nat × Fields)) :
    Stream :=
  { m with rs := { m.rs with responseHandler := none } }.call (.completeResponse h ec response)

/-! ### `call_read_handler()` -/

/-- Without a read that waits: the data is buffered. -/
def buffer (m : Stream) (data : List UInt8) : Stream :=
  -- nothing has come but the end of the body, or the close of the stream
  if data = [] then m
  else
    { m with rx := { m.rx with
      pendingReadBuffers := m.rx.pendingReadBuffers ++ [data]
      readBuffer := if m.rx.pendingReadBuffers = [] then data else m.rx.readBuffer } }

/-- With one: the new data comes after what is buffered. -/
def enter (m : Stream) (data : List UInt8) : Stream :=
  { m with rx := { m.rx with
    insideCallReadHandler := true
    view := if m.rx.pendingReadBuffers = [] then m.rx.readBuffer else data
    readBuffer := if m.rx.pendingReadBuffers = [] then data else m.rx.readBuffer } }

/-- One pass of the loop, up to the handler. -/
def deliver (m : Stream) (h : Handler) : Stream :=
  let copied := m.rx.readBuffer.take m.rx.readHandlerBuffer
  { m with rx := { m.rx with
    consumed := m.rx.consumed + copied.length
    bytesRead := m.rx.bytesRead + copied.length
    readBuffer := m.rx.readBuffer.drop m.rx.readHandlerBuffer } }.completeRead h .success
      copied.length copied

/-- The rest of the pass: on to the next buffer, or to the new data. -/
def advance (m : Stream) : Stream :=
  if m.rx.readBuffer ≠ [] then m
  else
    -- the buffer in front is done
    let pending := m.rx.pendingReadBuffers.tail
    { m with rx := { m.rx with
      pendingReadBuffers := pending
      readBuffer := if pending ≠ [] then pending.headD [] else m.rx.view
      view := if pending ≠ [] then m.rx.view else m.rx.readBuffer } }

/-- After the loop: credit for what has been delivered. -/
def credit (m : Stream) : Stream :=
  if m.rx.consumed = 0 then m
  else { m with rx := { m.rx with consumed := 0 } }.call (.consumeStream m.rx.consumed)

/-- What has not been delivered is kept. -/
def park (m : Stream) : Stream :=
  { m with rx := { m.rx with
    pendingReadBuffers :=
      if m.rx.pendingReadBuffers = [] then [m.rx.readBuffer]
      else if m.rx.view ≠ [] then m.rx.pendingReadBuffers ++ [m.rx.view]
      else m.rx.pendingReadBuffers } }

/-- The end of the outermost call. -/
def leave (m : Stream) : Stream :=
  { m with rx := { m.rx with insideCallReadHandler := false, view := [] } }

/-- The loop that delivers the end of the body, up to the next handler. -/
def eofLoopThen (m : Stream) (after : Stream → Stream) : Stream :=
  match m.rx.readHandler with
  | some h => (m.completeRead h .eof 0 []).push .eof
  | none => after m.leave

/-- What follows the loop that delivers data. -/
def finishLoopThen (m : Stream) (after : Stream → Stream) : Stream :=
  let m := m.credit
  -- nobody reads any more, and there is data left
  if m.rx.readBuffer ≠ [] then after m.park.leave
  else if m.rx.eofReceived then m.eofLoopThen after
  else
    match m.rx.readHandler with
    | none => after m.leave
    | some h =>
      -- who still waits is told once if nothing more can come
      if m.readingFinished || m.closed then
        (m.completeRead h .partialMessage 0 []).push .truncated
      else after m.leave

/-- The loop that delivers data, up to the next handler. -/
def readLoopThen (m : Stream) (after : Stream → Stream) : Stream :=
  match m.rx.readHandler with
  | some h => if m.rx.readBuffer ≠ [] then (m.deliver h).push .data else m.finishLoopThen after
  | none => m.finishLoopThen after

/-- `call_read_handler()`, where `after` is what it does in the end. -/
def callReadHandlerThen (m : Stream) (data : List UInt8) (after : Stream → Stream) : Stream :=
  if m.rx.readHandler = none then after (m.buffer data)
  -- a handler has begun another read: the loop that has called the handler goes on
  else if m.rx.insideCallReadHandler then after m
  else (m.enter data).readLoopThen after

/-! ### `close_stream()` -/

/-- The stream goes away when nothing is running any more. -/
def deleteLater (m : Stream) : Stream := { m with deletePending := true }

/-- After the read that was waiting, `get_response()`. -/
def failResponse (m : Stream) : Stream :=
  match m.rs.responseHandler with
  | some h => (m.completeResponse h endOfStream none).push .erased
  | none => m.deleteLater

/-- `close_stream()` goes on with the iterator that it has found the stream with. It is not valid
any more if the stream has been removed by another `close_stream()` from inside the handler of the
write. -/
def useIterator (m : Stream) : Stream := { m with fault := m.fault || !m.registered }

/-- The stream is removed from `streams_`, and the read that is waiting fails. -/
def erase (m : Stream) : Stream :=
  let m := { m.useIterator with registered := false }
  match m.rx.readHandler with
  | some h => (m.completeRead h .partialMessage 0 []).push .erasing
  | none => m.failResponse

/-- After the write that was waiting: the stream is kept for a response that has not been asked for,
or for a body that has not been read to its end. -/
def keepOrErase (m : Stream) : Stream :=
  if !m.rs.responseDelivered && (m.rs.hasResponse || m.rs.responseError.isSome) then
    -- `close_deferred` is not set here, so that is what there is to do in the end of that
    m.useIterator.callReadHandlerThen [] id
  -- the rest of the body is kept, and `finish_deferred_close()` erases the stream
  else if m.reader && m.rx.eofReceived && !m.readingFinished then { m with closeDeferred := true }
  else m.erase

/-- What a write completes with that is waiting when the stream is closed. -/
def closeCode (m : Stream) : ErrorCode :=
  if m.tx.writeCancelled then .canceled else .connectionReset

def closeStream (m : Stream) : Stream :=
  if !m.registered then m
  else
    let m := { m with closed := true }
    match m.tx.writeHandler with
    -- it goes on when the handler has returned
    | some h => (m.completeWrite h m.closeCode).push .closing
    | none => m.keepOrErase

def finishDeferredClose (m : Stream) : Stream :=
  if m.closeDeferred && m.readingFinished && m.rx.readHandler.isNone &&
      !m.rx.insideCallReadHandler then
    { m with closeDeferred := false }.closeStream
  else m

def callReadHandler (m : Stream) (data : List UInt8) : Stream :=
  m.callReadHandlerThen data finishDeferredClose

/-! ### Incoming -/

def onData (m : Stream) (data : List UInt8) : Stream :=
  { m with received := m.received ++ data }.callReadHandler data

def onEof (m : Stream) : Stream :=
  { m with rx := { m.rx with eofReceived := true } }.callReadHandler []

/-- `NGHttp2Reader::async_read_some()` -/
def asyncReadSome (m : Stream) (h : Handler) (size : Nat) : Stream :=
  if size = 0 then m.call (.completeRead h 0 .success 0 [])
  else
    match m.readerHandle with
    -- the stream is gone, and has left this behind
    | .detached ec => m.call (.completeRead h size ec 0 [])
    | _ =>
      { m with
        rx := { m.rx with
          readHandler := some h
          readHandlerBuffer := size } }.callReadHandler
        []

/-- The function `async_read_some()` binds to the slot of its handler. -/
def cancelRead (m : Stream) : Stream :=
  match m.rx.readHandler with
  | some h => m.completeRead h .canceled 0 []
  | none => m

/-! ### Responses -/

/-- `on_header_callback()` -/
def onHeader (e : Exchange) (maxHeaderSize : Nat) (field : List Char × List Char) : Exchange :=
  -- beyond the limit, all fields are dropped
  if e.headerLimitExceeded then e
  else
    let e := { e with headerSize := e.headerSize + headerFieldSize field }
    if maxHeaderSize < e.headerSize then { e with headerLimitExceeded := true }
    else
      { e with
        statusCode := if field.1 = ":status".toList then some (fromChars field.2) else e.statusCode
        fields := if field.1.head? = some ':' then e.fields else e.fields ++ [field] }

def onHeaderSection (m : Stream) (fields : Fields) : Stream :=
  { m with rs := fields.foldl (fun e f => onHeader e m.maxHeaderSize f) m.rs }

def deliverResponse (m : Stream) : Stream :=
  if !m.rs.hasResponse && m.rs.responseError.isNone then m
  else
    match m.rs.responseHandler with
    | none => m
    | some h =>
      let m := { m with rs := { m.rs with responseDelivered := true } }
      match m.rs.responseError with
      | some ec => (m.completeResponse h ec none).push .failed
      | none =>
        ({ m with reader := true, readerHandle := .attached }.completeResponse h .success
          (some (m.rs.statusCode.getD 0, m.rs.fields))).push .done

def onResponse (m : Stream) : Stream :=
  -- what exceeds the limit is not a response, and its stream is reset
  (if m.rs.headerLimitExceeded then
    { m with rs := { m.rs with responseError := some .headerLimit } }.call .resetStream
  else { m with rs := { m.rs with hasResponse := true } }).deliverResponse

/-- A header section that is not one of trailers: version 1 takes the first one for the response,
version 2 every one. -/
def onHeaders (m : Stream) (fields : Fields) : Stream :=
  let first := !m.rs.headersSeen
  let m := m.onHeaderSection fields
  let m := { m with rs := { m.rs with headersSeen := true } }
  if m.backend = .v1 ∧ first = false then m else m.onResponse

def asyncGetResponse (m : Stream) (h : Handler) : Stream :=
  match m.writerHandle with
  | .detached _ => m.call (.completeResponse h .connectionAborted none)
  | _ =>
    -- a response is delivered once
    if m.rs.responseDelivered then m.call (.completeResponse h .alreadyStarted none)
    else { m with rs := { m.rs with responseHandler := some h } }.deliverResponse

def cancelResponse (m : Stream) : Stream :=
  match m.rs.responseHandler with
  | some h => m.completeResponse h .canceled none
  | none => m

/-! ### Outgoing -/

def resume (m : Stream) : Stream :=
  if m.tx.isDeferred then { m with tx := { m.tx with isDeferred := false } }.call .resumeData else m

/-- What a write is answered with right away. -/
def writeAnswer (m : Stream) (buffer : List UInt8) (eof : Bool) : Option ErrorCode :=
  match m.writerHandle with
  | .detached eofSubmitted =>
    if buffer = [] ∧ eof = false then some .success
    else if eofSubmitted then some (if buffer = [] then .success else .brokenPipe)
    else some .connectionAborted
  | _ =>
    if buffer = [] ∧ eof = false then some .success
    -- no bytes after the end of the body, which may be asked for once more
    else if m.tx.eofRequested ∧ buffer ≠ [] then some .brokenPipe
    else if m.tx.eofRequested ∧ m.tx.eofSubmitted then some .success
    else if m.closed then some .connectionReset
    else none

/-- What `async_write()` records of a write it accepts. -/
def beginWrite (m : Stream) (h : Handler) (buffer : List UInt8) (eof : Bool) : Stream :=
  { m with
    tx := { m.tx with
      writeBuffer := buffer
      offered := 0
      written := 0
      eofRequested := m.tx.eofRequested || eof
      writeHandler := some h }
    writes := m.writes ++ [{ handler := h, buffer := buffer, eof := eof }] }

def asyncWrite (m : Stream) (h : Handler) (buffer : List UInt8) (eof : Bool) : Stream :=
  match m.writeAnswer buffer eof with
  | some ec => m.call (.completeWrite h ec)
  | none => (m.beginWrite h buffer eof).resume

/-- The function `async_write()` binds to the slot of its handler: with bytes that nghttp2 may still
read, the stream is reset, and the handler left to `close_stream()`. -/
def cancelWrite (m : Stream) : Stream :=
  if m.backend = .v2 .zeroCopy ∧ m.tx.written < m.tx.offered ∧ m.closed = false then
    { m with tx := { m.tx with writeCancelled := true } }.call .resetStream
  else
    match m.tx.writeHandler with
    | some h => m.completeWrite h .canceled
    | none => m

/-- nghttp2 is given the next `n` bytes of the buffer, of which `left` is what it has not seen. -/
def give (m : Stream) (left : List UInt8) (n : Nat) : Stream :=
  { m with
    handed := m.handed ++ left.take n
    writes := updateWrite m.writes fun w => { w with taken := w.taken + (left.take n).length } }

/-- nghttp2 is told that the body ends here. -/
def endBody (m : Stream) : Stream :=
  { m with
    tx := { m.tx with eofSubmitted := true }
    ended := some m.handed.length
    writes := updateWrite m.writes fun w => { w with ended := w.result.isNone } }

def deferData (m : Stream) : Stream := { m with tx := { m.tx with isDeferred := true } }

/-- `producer_callback()` of version 1. -/
def producerCallback (m : Stream) (length : Nat) : Stream :=
  if m.closed then m
  else
    match m.tx.writeHandler with
    -- nothing to send until there is a write
    | none => m.deferData
    | some h =>
      if m.tx.writeBuffer ≠ [] then
        let left := m.tx.writeBuffer.drop length
        let m := { m.give m.tx.writeBuffer length with tx := { m.tx with writeBuffer := left } }
        if left = [] then
          let m := if m.tx.eofRequested then m.endBody else m
          (m.completeWrite h .success).push .done
        else m
      -- an empty write, so it is the end of the body
      else (m.endBody.completeWrite h .success).push .done

/-- `data_reader()` of version 2. -/
def dataReader (m : Stream) (mode : WriteMode) (veccnt : Nat) : Stream :=
  match m.tx.writeHandler with
  | none =>
    -- asked again past the end of the body: say so once more
    if m.tx.eofSubmitted then { m with ended := some m.handed.length }
    else m.deferData
  | some h =>
    let left := m.tx.writeBuffer.drop m.tx.offered
    if left = [] then
      -- all of it has been offered before
      if !m.tx.eofRequested || m.tx.eofSubmitted then m.deferData
      else (m.endBody.completeWrite h .success).push .done
    -- there is no room for a vector now
    else if veccnt = 0 then m.deferData
    else
      let offer : Nat := match mode with
        | .zeroCopy => left.length
        | .staged => min left.length writeChunkSize
      let m : Stream :=
        { m.give left offer with tx := { m.tx with offered := m.tx.offered + offer } }
      let last := decide (m.tx.offered = m.tx.writeBuffer.length)
      let m := if last && m.tx.eofRequested then m.endBody else m
      if last && mode == .staged then (m.completeWrite h .success).push .done else m

/-- `on_write_offset()` of version 2. -/
def onWriteOffset (m : Stream) (mode : WriteMode) (len : Nat) : Stream :=
  let m := { m with framed := m.framed + len }
  -- what has been copied completes before
  if mode ≠ .zeroCopy then m
  else
    let m := { m with tx := { m.tx with written := m.tx.written + len } }
    match m.tx.writeHandler with
    | none => m
    | some h =>
      -- nghttp2 still refers to the rest of the buffer
      if m.tx.written < m.tx.writeBuffer.length then m
      else (m.completeWrite h .success).push .done

/-! ### Lifecycle -/

def maybeCloseStream (m : Stream) : Stream :=
  if m.closed then m
  -- the writer may still end the body
  else if m.writer then m
  -- a body that has no end, or one that nobody is going to read
  else if !m.tx.eofSubmitted || (!m.rx.eofReceived && !m.reader) then m.call m.backend.reset
  else m

/-- `~NGHttp2Reader()`, which tells the stream before it calls `delete_reader()`. -/
def dropReader (m : Stream) : Stream :=
  match m.readerHandle with
  | .attached =>
    let m := { m with reader := false, readerHandle := .released }
    let m :=
      -- nobody is going to read what is buffered
      if !m.closed && !m.readingFinished && m.readBuffersSize != 0 then
        { m with rx := { m.rx with readBuffer := [], pendingReadBuffers := [] } }
      else m
    m.maybeCloseStream.finishDeferredClose
  | _ => { m with readerHandle := .released }

/-- `~NGHttp2Writer()` -/
def dropWriter (m : Stream) : Stream :=
  match m.writerHandle with
  | .attached => { m with writer := false, writerHandle := .released }.maybeCloseStream
  | _ => { m with writerHandle := .released }

/-- `~NGHttp2Stream()`, of which the adapters are told first. -/
def detach (m : Stream) : Stream :=
  { m with
    reader := false
    readerHandle := if m.reader then .detached (if m.readingFinished then .eof else .partialMessage)
      else m.readerHandle
    writer := false
    writerHandle := if m.writer then .detached m.tx.eofSubmitted else m.writerHandle }

def destroy (m : Stream) : Stream :=
  let m := { m.detach with registered := false, destroyed := true }
  let m := match m.rs.responseHandler with
    | some h => m.completeResponse h .canceled none
    | none => m
  let m := match m.rx.readHandler with
    | some h => m.completeRead h .partialMessage m.rx.bytesRead []
    | none => m
  match m.tx.writeHandler with
  | some h => m.completeWrite h .canceled
  | none => m

/-! ### Steps -/

/-- Nothing of the stream is running, and nghttp2 knows it. -/
def open_ (m : Stream) : Bool := m.frames.isEmpty && m.registered && !m.closed && !m.destroyed

/-- nghttp2 calls `close_stream()` once, for a stream that it knows.  The send loop of version 2
calls it when it is over, for every stream that is left. -/
def closable (m : Stream) : Bool :=
  m.frames.isEmpty && m.registered && !m.destroyed && (!m.closed || m.backend != .v1)

/-- The call that has invoked the handler goes on. -/
def ret (m : Stream) : Frame → Stream
  | .data => m.advance.readLoopThen finishDeferredClose
  | .eof => m.eofLoopThen finishDeferredClose
  | .truncated => m.leave.finishDeferredClose
  | .closing => m.keepOrErase
  | .erasing => m.failResponse
  | .erased => m.deleteLater
  | .failed => if m.closed then m.closeStream else m
  | .done => m

def step (m : Stream) : Action → Option Stream
  | .asyncReadSome h size =>
    if m.readerHandle.held && m.rx.readHandler.isNone then some (m.asyncReadSome h size) else none
  | .cancelRead => if m.readerHandle = .attached then some m.cancelRead else none
  | .asyncWrite h buffer eof =>
    if m.writerHandle ≠ .released ∧ m.tx.writeHandler = none then some (m.asyncWrite h buffer eof)
    else none
  | .cancelWrite => if m.destroyed then none else some m.cancelWrite
  | .asyncGetResponse h =>
    if m.isServer = false ∧ m.writerHandle ≠ .released ∧ m.rs.responseHandler = none then
      some (m.asyncGetResponse h)
    else none
  | .cancelResponse => if m.destroyed then none else some m.cancelResponse
  | .dropReader =>
    if m.readerHandle.held && m.rx.readHandler.isNone then some m.dropReader else none
  | .dropWriter => if m.writerHandle ≠ .released then some m.dropWriter else none
  | .ret =>
    match m.frames with
    | [] => none
    | f :: frames => some ({ m with frames := frames }.ret f)
  | .onHeaders fields =>
    if m.open_ && !m.isServer && !m.rx.eofReceived then some (m.onHeaders fields) else none
  | .onTrailers fields =>
    if m.open_ && !m.rx.eofReceived then some (m.onHeaderSection fields) else none
  | .onData data =>
    if m.open_ && !m.rx.eofReceived && !data.isEmpty then some (m.onData data) else none
  | .onEof => if m.open_ && !m.rx.eofReceived then some m.onEof else none
  | .producer length =>
    if m.open_ && m.backend == .v1 && !m.tx.isDeferred && !m.tx.eofSubmitted &&
        decide (0 < length) then
      some (m.producerCallback length)
    else none
  | .dataReader veccnt =>
    match m.backend with
    | .v1 => none
    | .v2 mode =>
      if m.open_ && !m.tx.isDeferred && decide (m.framed = m.handed.length) then
        some (m.dataReader mode veccnt)
      else none
  | .writeOffset len =>
    match m.backend with
    | .v1 => none
    | .v2 mode =>
      if m.open_ && decide (0 < len) && decide (m.framed + len ≤ m.handed.length) then
        some (m.onWriteOffset mode len)
      else none
  | .streamClose => if m.closable then some m.closeStream else none
  | .destroy => if m.frames.isEmpty && !m.destroyed then some m.destroy else none

/-- A stream of a client, for a request that has just been submitted. -/
def client (backend : Backend) (maxHeaderSize : Nat) : Stream :=
  { backend := backend, maxHeaderSize := maxHeaderSize, isServer := false }

/-- A stream of a server, for a request that has just arrived. -/
def server (backend : Backend) (maxHeaderSize : Nat) : Stream :=
  { backend := backend, maxHeaderSize := maxHeaderSize, isServer := true, reader := true
    readerHandle := .attached }

/-- A stream that has just been made. -/
def Fresh (m : Stream) : Prop :=
  ∃ backend maxHeaderSize, m = client backend maxHeaderSize ∨ m = server backend maxHeaderSize

end Stream

end AnyHttp.H2
