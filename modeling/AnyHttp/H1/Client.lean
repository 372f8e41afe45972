import AnyHttp.H1.Writer
import AnyHttp.Lib.Run

/-!
# The HTTP/1.1 client session

`ClientSession`, the requests that are written on it and the responses that are read from it.  As
with the server, an `Action` is one step of the user, the peer or the runtime, and `step` says
whether it is possible and what it leads to.

What comes in is a stream of bytes with an end (`none`), which only ends a message that goes on
until then.  `requests` are all there have been, by their sequence number, and `readers` one for
every attempt to get a response.  A request is not released while it waits for its response.
-/

namespace AnyHttp.H1

namespace Client

/-- What a client session depends on. -/
structure Context (P : Type*) where
  beast : Beast
  /-- A parser for the response to a request of this method: with `skip()` for `HEAD`. -/
  init : Method → P
  /-- `put()` of another byte, or `put_eof()`. -/
  next : P → Option UInt8 → P
  headerDone : P → Bool
  done : P → Bool
  headerDone_of_done : ∀ p, done p = true → headerDone p = true
  /-- What the connection delivers. -/
  stream : Nat → Option UInt8

/-- `RequestWriter` -/
structure Request where
  method : Method
  writer : Writer
  /-- The user has it: from the end of `submit()` on, until it is released. -/
  held : Bool := false
  /-- It has been destroyed. -/
  released : Bool := false
  responseRequested : Bool := false
deriving DecidableEq, Repr

/-- `BeastResponseReader` -/
structure Reader (P : Type*) where
  /-- The request it belongs to. -/
  request : Nat
  attached : Bool := true
  /-- `get_response()` is over, and the user has the response. -/
  delivered : Bool := false
  held : Bool := false
  parser : P
  reading : Bool := true
  finished : Bool := false
  start : Nat
  consumed : Nat := 0
  /-- `reader_finished(true)` has been called for it. -/
  counted : Bool := false
  /-- `get_response()` was cancelled before anything had arrived. -/
  void : Bool := false
deriving DecidableEq, Repr

end Client

open H1.Client in
structure Client (P : Type*) where
  /-- The session exists. -/
  alive : Bool := true
  sending : Option Nat := none
  sendFailed : Bool := false
  receiveFailed : Bool := false
  shuttingDown : Bool := false
  responsesRead : Nat := 0
  requests : List Request := []
  readers : List (Reader P) := []
  /-- Nothing can be sent on the connection any more. -/
  shut : Bool := false
  /-- The receive side of the connection has been shut down. -/
  receiveShut : Bool := false
  /-- `closed_` -/
  closed : Bool := false
  /-- How far the incoming stream has been consumed. -/
  cursor : Nat := 0
  /-- What has been sent on the connection. -/
  wire : List UInt8 := []
deriving DecidableEq, Repr

namespace Client

inductive Action
  | submit (method : Method) (target host : List Char) (headers : Fields)
  | contentLength (k : Nat) (n : Option Nat)
  | write (k : Nat) (data : List UInt8) (eof : Bool)
  | emit (k n : Nat)
  | finish (k : Nat) (ec : ErrorCode)
  | releaseRequest (k : Nat)
  | getResponse (k : Nat)
  /-- Reader `i`, with an operation in progress, consumes the next byte. -/
  | receive (i : Nat)
  /-- `get_response()` is over. -/
  | deliver (i : Nat) (ec : ErrorCode)
  | readSome (i : Nat)
  | readDone (i : Nat)
  /-- The user releases the response: by `reset()` or the destructor, which call `destroy()`, or by
  assigning another one to the handle, which does not. -/
  | releaseResponse (i : Nat) (destroy : Bool)
  | shutdown
  /-- `~BeastSession()` -/
  | gone
deriving DecidableEq, Repr

variable {P : Type*} (Γ : Context P)

/-! ### Requests -/

/-- The head of a new request. -/
def requestHead (method : Method) (target host : List Char) (headers : Fields) : Head where
  start := .request method target
  fields :=
    let fields := addFields (Fields.set [] .userAgent "anyhttp".toList) headers
    let fields := fields.setDefault .host host
    -- without a length, the body is chunked
    if fields.hasContentLength then fields else Γ.beast.setChunked fields

/-- Why a request can not be submitted. -/
def submitError (s : Client P) : Option ErrorCode :=
  if s.sendFailed then some .connectionAborted
  else if s.sending.isSome then some .wouldBlock
  else none

def submit (s : Client P) (method : Method) (target host : List Char) (headers : Fields) :
    Client P :=
  if s.submitError.isSome then s
  else
    let head := requestHead Γ method target host headers
    let writer : Writer := { message := head }
    { s with
      sending := some s.requests.length
      requests :=
        s.requests ++
          [{ method := method, writer := writer.writeHead Γ.beast !Γ.beast.hasBody head }] }

/-- `request_failed()` -/
def requestFailed (s : Client P) : Client P := { s with sendFailed := true, sending := none }

/-- `request_released()`, by request `k` -/
def requestReleased (s : Client P) (k : Nat) (r : Request) : Client P :=
  -- a request that is not complete ends the sending, ...
  let s := if s.sending = some k then s.requestFailed else s
  -- ... and one without an attempt to get its response the receiving
  if r.responseRequested then s else { s with receiveFailed := true }

/-- `~RequestWriter()` -/
def destroyRequest (s : Client P) (k : Nat) (r : Request) : Client P :=
  let s := { s with requests := s.requests.set k { r with released := true } }
  -- a request that is complete, or has failed, is no concern of the session any more
  if r.writer.attached then s.requestReleased k r else s

def contentLength (s : Client P) (k : Nat) (n : Option Nat) : Option (Client P) :=
  s.requests[k]?.bind fun r =>
    if r.held then
      some
        { s with
          requests :=
            s.requests.set k { r with writer := r.writer.setContentLength Γ.beast n } }
    else none

def write (s : Client P) (k : Nat) (data : List UInt8) (eof : Bool) : Option (Client P) :=
  s.requests[k]?.bind fun r =>
    if !r.held || r.writer.writing.isSome then none
    else if (r.writer.answer data eof).isSome then some s
    else
      some
        { s with
          requests := s.requests.set k { r with writer := r.writer.write Γ.beast data eof } }

def emit (s : Client P) (k n : Nat) : Option (Client P) :=
  s.requests[k]?.bind fun r => r.writer.writing.bind fun p =>
    if s.shut then none
    else
      some
        { s with
          requests := s.requests.set k { r with writer := r.writer.emit p n }
          wire := s.wire ++ p.rest.take n }

/-- `request_complete()` or `request_failed()`, when request `k` is attached. -/
def afterPass (s : Client P) (w : Writer) : Client P :=
  if !w.attached then s
  -- the next request may be sent
  else if w.eofSubmitted then { s with sending := none }
  else if w.cancelled then s.requestFailed
  else s

/-- The end of a pass of request `k`: that of its header makes it the user's, and that of a request
that has been released meanwhile destroys it. -/
def finish (s : Client P) (k : Nat) (ec : ErrorCode) : Option (Client P) :=
  s.requests[k]?.bind fun r => r.writer.writing.bind fun p =>
    -- a pass does not succeed before all of it is written
    if ec = .success ∧ p.rest ≠ [] then none
    else
      let w := r.writer.finish p ec
      let r := { r with writer := w, held := r.held || p.head }
      let s := ({ s with
        requests := s.requests.set k r
        shut := s.shut || (!p.head && ec == ErrorCode.canceled && w.attached) }).afterPass w
      some (if r.held then s else s.destroyRequest k r)

/-- `get_response()` of request `k` is waiting. -/
def waitsForResponse (s : Client P) (k : Nat) : Bool :=
  s.readers.any fun r => r.request == k && !r.delivered

/-- The user destroys a request, which must not wait for its response: `get_response()` is a
coroutine of its writer, and would go on with one that does not exist any more. -/
def releaseRequest (s : Client P) (k : Nat) : Option (Client P) :=
  s.requests[k]?.bind fun r =>
    if r.held && !s.waitsForResponse k then
      let r := { r with held := false }
      let s := { s with requests := s.requests.set k r }
      some (if r.writer.writing.isSome then s else s.destroyRequest k r)
    else none

/-! ### Responses -/

/-- Why the response to request `k` can not be read. -/
def responseError (s : Client P) (k : Nat) (r : Request) : Option ErrorCode :=
  if r.responseRequested then some .alreadyStarted
  else if !r.writer.attached then some .connectionAborted
  else if s.receiveFailed then some .connectionAborted
  -- responses come in the order of the requests
  else if k ≠ s.responsesRead then some .wouldBlock
  else none

def getResponse (s : Client P) (k : Nat) : Option (Client P) :=
  s.requests[k]?.bind fun r =>
    if !r.held then none
    else if (s.responseError k r).isSome then some s
    else
      some
        { s with
          requests := s.requests.set k { r with responseRequested := true }
          readers :=
            s.readers ++ [{ request := k, parser := Γ.init r.method, start := s.cursor }] }

/-- Another byte, or the end of the stream, which is only for a message that has begun. -/
def receive (s : Client P) (i : Nat) : Option (Client P) :=
  s.readers[i]?.bind fun r =>
    if r.reading && !Γ.done r.parser && (r.delivered || !Γ.headerDone r.parser) &&
        ((Γ.stream s.cursor).isSome || decide (0 < r.consumed)) then
      some
        { s with
          readers := s.readers.set i
            { r with
              parser := Γ.next r.parser (Γ.stream s.cursor)
              consumed := r.consumed + 1 }
          cursor := s.cursor + 1 }
    else none

/-- `finish()` of reader `i`, and `reader_finished()` -/
def finishReader (s : Client P) (i : Nat) (r : Reader P) : Client P :=
  if r.attached && !r.finished then
    -- it is the turn of the next response
    if Γ.done r.parser then
      { s with
        responsesRead := s.responsesRead + 1
        readers := s.readers.set i { r with finished := true, counted := true } }
    else
      { s with
        receiveFailed := true
        readers := s.readers.set i { r with finished := true } }
  else { s with readers := s.readers.set i r }

/-- The request of a reader that was cancelled before anything had arrived may ask again. -/
def unrequest (s : Client P) (k : Nat) : Client P :=
  { s with requests := s.requests.modify k fun r => { r with responseRequested := false } }

/-- `get_response()` after reading the header: the response is the user's, with an error, too. -/
def deliver (s : Client P) (i : Nat) (ec : ErrorCode) : Option (Client P) :=
  s.readers[i]?.bind fun r =>
    if r.delivered || decide (ec = .success ↔ Γ.headerDone r.parser = false) then none
    else
      let r := { r with reading := false, delivered := true, held := true }
      -- nothing has been taken off the connection, so the attempt does not count
      if ec = .canceled ∧ r.consumed = 0 then
        some
          { s.unrequest r.request with
            readers := s.readers.set i { r with finished := true, void := true } }
      else if ec = .success ∧ Γ.done r.parser then some (s.finishReader Γ i r)
      else some { s with readers := s.readers.set i r }

def readSome (s : Client P) (i : Nat) : Option (Client P) :=
  s.readers[i]?.bind fun r =>
    if r.held && r.attached && !r.reading && !Γ.done r.parser then
      some { s with readers := s.readers.set i { r with reading := true } }
    else none

/-- The end of a read: that of the message has been reached, or the reader has been released
meanwhile, or neither. -/
def readDone (s : Client P) (i : Nat) : Option (Client P) :=
  s.readers[i]?.bind fun r =>
    if r.delivered && r.reading then
      let r := { r with reading := false }
      some
        (if Γ.done r.parser || !r.held then s.finishReader Γ i r
        else { s with readers := s.readers.set i r })
    else none

/-- Both `destroy()`, which shuts down the receive side in the middle of a message, and the
destructor `finish()`, the latter not before the end of an operation. -/
def releaseResponse (s : Client P) (i : Nat) (destroy : Bool) : Option (Client P) :=
  s.readers[i]?.bind fun r =>
    if r.delivered && r.held then
      let r := { r with held := false }
      let cut := destroy && !Γ.done r.parser && r.attached
      let s := { s with receiveShut := s.receiveShut || cut, closed := s.closed || cut }
      some
        (if destroy || !r.reading then s.finishReader Γ i r
        else { s with readers := s.readers.set i r })
    else none

/-! ### The session -/

def detach (s : Client P) : Client P :=
  { s with
    requests := s.requests.map fun r => { r with writer := r.writer.detach }
    readers := s.readers.map fun r => { r with attached := false } }

def shutdown (s : Client P) : Client P :=
  if s.shuttingDown then s
  else
    { s.detach with
      shuttingDown := true
      sendFailed := true
      receiveFailed := true
      sending := none }

def step (s : Client P) : Action → Option (Client P)
  | .submit method target host headers =>
    if s.alive then some (s.submit Γ method target host headers) else none
  | .contentLength k n => s.contentLength Γ k n
  | .write k data eof => s.write Γ k data eof
  | .emit k n => s.emit k n
  | .finish k ec => s.finish k ec
  | .releaseRequest k => s.releaseRequest k
  | .getResponse k => s.getResponse Γ k
  | .receive i => s.receive Γ i
  | .deliver i ec => s.deliver Γ i ec
  | .readSome i => s.readSome Γ i
  | .readDone i => s.readDone Γ i
  | .releaseResponse i destroy => s.releaseResponse Γ i destroy
  | .shutdown => if s.alive then some s.shutdown else none
  | .gone => some { s.detach with alive := false }

/-! ### With plain responses -/

/-- A peer that sends `input`, and ends the connection then. The response to `HEAD` has no body. -/
def Context.plain (input : List UInt8) : Context (Bool × PlainParser) where
  beast := .plain
  init m := (decide (m = .head), .header [])
  next p c := (p.1, (c.map p.2.next).getD p.2)
  headerDone p := p.2.inBody
  done p := p.2.inBody && (p.1 || decide (p.2 = .body 0))
  headerDone_of_done _ h := (Bool.and_eq_true_iff.mp h).1
  stream n := input[n]?

end Client

end AnyHttp.H1
