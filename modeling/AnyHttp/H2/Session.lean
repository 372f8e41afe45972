import AnyHttp.H2.SendLoop

/-!
# The end of an HTTP/2 session

`do_session()` of both backends, from where it starts `send_loop()` and `recv_loop()` to the end of
`end_connection()`, and `shutdown()` of a client, which may be called at any time.  The send loop is
that of `SendLoop`; what happens to it here is one of its steps.

What the two ends of a session promise each other is on the `wire`: the frames nghttp2 produces, the
TLS "close_notify" and the FIN, in this order.  Of nghttp2, the model has that it answers with
nothing to send only after a GOAWAY it has been asked for has gone out.  Streams and requests are
not part of the model.
-/

namespace AnyHttp.H2

open SendLoop (Version Answer)

/-- Where `recv_loop()` is. -/
inductive RecvLoop
  /-- Before the condition of its loop is checked for the first time. -/
  | starting
  | reading
  | over_
  /-- After an exception: its coroutine has been cancelled. -/
  | threw
deriving DecidableEq, Repr

/-- Where `do_session()` is. -/
inductive Stage
  | loops
  /-- In `async_teardown()`. -/
  | teardown
  /-- At `io::shutdown()`. -/
  | ending
  /-- In `io::drain()`. -/
  | draining
  | done
  /-- It has been left by an exception. -/
  | threw
deriving DecidableEq, Repr

/-- What the peer gets. -/
inductive Out
  | data (bytes : List UInt8)
  | closeNotify
  | fin
deriving DecidableEq, Repr

structure Session (capacity : Nat) where
  send : SendLoop.State capacity := {}
  recv : RecvLoop := .starting
  stage : Stage := .loops
  /-- `nghttp2_session_terminate_session()` has been called, or `nghttp2_conn_terminate()`. -/
  terminated : Bool := false
  goawaySent : Bool := false
  /-- `closing_`, of version 2. -/
  closing : Bool := false
  shutdownStarted : Bool := false
  sessionDone : Bool := false
  /-- The first call of `shutdown()` waits for `session_done_`. -/
  waiting : Bool := false
  /-- What that call has completed with, unless it has been cancelled. -/
  answer : Option ErrorCode := none
  /-- Nothing more goes out: `io::shutdown()` by `destroy()`, or `io::close()`. -/
  shut : Bool := false
  wire : List Out := []
  /-- A GOAWAY has gone out. -/
  goawayOut : Bool := false
  /-- The send loop has ended as there was nothing to send, and nothing to come in. -/
  drained : Bool := false
  history : SendLoop.History := {}
deriving DecidableEq

namespace Session

variable {capacity : Nat}

inductive Action
  /-- A pass of the send loop. nghttp2 reports whether it has sent a GOAWAY. -/
  | pass (answer : Answer) (wants started goaway : Bool)
  | progress (n : Nat)
  | writeDone
  | writeFailed
  /-- Somebody calls `start_write()`. -/
  | startWrite
  | resume
  /-- The coroutine of `do_session()`, and the loops with it, is cancelled. -/
  | cancel
  /-- The condition of the receive loop is checked for the first time; nghttp2 wants to go on. -/
  | recvStart (wants : Bool)
  /-- Something has been read and handed to nghttp2, which has failed on it, or wants to go on. -/
  | recvSome (failed wants : Bool)
  /-- The peer has ended the connection. -/
  | recvEof
  /-- Reading has failed otherwise. -/
  | recvError
  | recvThrow
  /-- `when_both()` is over. -/
  | join
  /-- `async_teardown()` is over. -/
  | teardown (ec : ErrorCode)
  /-- `io::shutdown()` is over. -/
  | ended (ec : ErrorCode)
  /-- `io::drain()` is over. -/
  | drained
  /-- An operation of `end_connection()` throws, as the coroutine has been cancelled. -/
  | unwind
  /-- `shutdown()` -/
  | shutdown
  /-- It goes on, as `session_done_` has been set. -/
  | shutdownDone
  | shutdownCancel
  /-- `destroy()` -/
  | destroy
deriving DecidableEq, Repr

/-- nghttp2 is asked to end the session with a GOAWAY. -/
def terminate (s : Session capacity) : Version → Session capacity
  | .v1 => if s.goawaySent then s else { s with terminated := true }
  | .v2 =>
    -- this version remembers that it has asked
    if s.goawaySent || s.closing then s
    else { s with terminated := true, goawaySent := true }

/-- A step of the send loop. -/
def sendStep (version : Version) (s : Session capacity) (a : SendLoop.Action) :
    Option (Session capacity) :=
  (SendLoop.step version s.send a).map fun send =>
    { s with send := send, history := SendLoop.note s.send a s.history }

def startWrite (s : Session capacity) : Session capacity :=
  { s with
    send := s.send.startWrite
    history := SendLoop.note s.send .startWrite s.history }

/-- Nothing more is expected to come in. -/
def recvDone (s : Session capacity) : Session capacity :=
  { s with
    send := ({ s.send with recvDone := true } : SendLoop.State capacity).startWrite
    history := SendLoop.note s.send .recvDone s.history }

/-- What the receive loop does in the end. -/
def leaveRecv (version : Version) (s : Session capacity) : Session capacity :=
  { (s.terminate version).recvDone with recv := .over_ }

/-- The receive loop goes on, or is left. -/
def recvNext (version : Version) (s : Session capacity) (wants : Bool) : Session capacity :=
  -- version 1 asks nghttp2 if it wants to read or write, version 2 does not
  let more := match version with
    | .v1 => wants
    | .v2 => !s.closing
  if more then { s with recv := .reading } else s.leaveRecv version

/-- `handle_buffer_contents()`, when nghttp2 fails. -/
def recvFailed (version : Version) (s : Session capacity) : Session capacity :=
  match version with
  | .v1 => { s with terminated := true }
  | .v2 => { s with closing := true }

/-- The end of a pass of the send loop. An error of nghttp2 closes the stream. -/
def sent (s : Session capacity) (version : Version) (answer : Answer) (goaway : Bool) :
    Session capacity :=
  { s with
    goawayOut := s.goawayOut || goaway
    goawaySent := s.goawaySent || (goaway && version == .v1)
    closing := s.closing || (version == .v2 && (answer == .closing || answer == .error))
    drained := s.drained || (s.send.phase == .ended && answer == .chunk [] && s.send.recvDone)
    shut := s.shut || (s.send.phase == .threw && (answer == .closing || answer == .error)) }

/-- `end_connection()`, or the end of `do_session()` by the exception of one of the loops. -/
def join (s : Session capacity) : Session capacity :=
  if s.send.phase = .threw ∨ s.recv = .threw then { s with stage := .threw, sessionDone := true }
  -- nothing can be sent any more, not even a "close_notify"
  else if s.send.sendFailed then { s with stage := .ending }
  else { s with stage := .teardown }

def put (s : Session capacity) (out : Out) : Session capacity :=
  { s with wire := s.wire ++ [out] }

/-- Nothing goes out after a FIN. -/
def putFin (s : Session capacity) : Session capacity :=
  if s.shut then s else { s with shut := true }.put .fin

def finished (s : Session capacity) : Session capacity :=
  { s with stage := .done, sessionDone := true, shut := true }

/-- `shutdown()`. A second call has nothing to wait for. -/
def shutdown (version : Version) (s : Session capacity) : Session capacity :=
  if s.shutdownStarted || s.sessionDone then { s with shutdownStarted := true }
  else { (s.terminate version).recvDone with shutdownStarted := true, waiting := true }

def step (version : Version) (s : Session capacity) : Action → Option (Session capacity)
  | .pass answer wants started goaway =>
    -- a GOAWAY that nghttp2 has been asked for goes out before it has nothing to send
    if s.stage = .loops ∧
        (answer = .chunk [] → s.terminated = true → s.goawayOut = true ∨ goaway = true) then
      (s.sendStep version (.pass answer wants started)).map fun t => t.sent version answer goaway
    else none
  | .progress n =>
    -- a connection that is shut does not take any bytes
    if s.shut then none
    else (s.sendStep version (.progress n)).map fun t => t.put (.data (s.send.rest.take n))
  | .writeDone => s.sendStep version .writeDone
  | .writeFailed => s.sendStep version .writeFailed
  | .startWrite => some s.startWrite
  | .resume => s.sendStep version .resume
  | .cancel => s.sendStep version .cancel
  | .recvStart wants => if s.recv = .starting then some (s.recvNext version wants) else none
  | .recvSome failed wants =>
    if s.recv = .reading then
      some ((if failed then s.recvFailed version else s).startWrite.recvNext version wants)
    else none
  | .recvEof | .recvError => if s.recv = .reading then some (s.leaveRecv version) else none
  | .recvThrow =>
    -- a loop that throws has the other one cancelled
    if s.recv = .reading ∧ (s.send.cancelled = true ∨ s.send.phase = .threw) then
      some { s with recv := .threw }
    else none
  | .join =>
    if s.stage = .loops ∧ (s.send.phase = .ended ∨ s.send.phase = .threw) ∧
        (s.recv = .over_ ∨ s.recv = .threw) then some s.join
    else none
  | .teardown ec =>
    if s.stage = .teardown ∧ (ec = .success → s.shut = false) then
      let s := { s with stage := .ending }
      some (if ec = .success then s.put .closeNotify else s)
    else none
  | .ended ec =>
    if s.stage = .ending then
      some (if ec = .success then { s with stage := .draining }.putFin else s.finished)
    else none
  | .drained => if s.stage = .draining then some s.finished else none
  | .unwind =>
    if s.send.cancelled = true ∧ (s.stage = .teardown ∨ s.stage = .draining) then
      some { s with stage := .threw, sessionDone := true }
    else none
  | .shutdown => some (s.shutdown version)
  | .shutdownDone =>
    if s.waiting && s.sessionDone then
      some
        { s with
          waiting := false
          answer := some (if s.send.sendFailed then .connectionAborted else .success) }
    else none
  | .shutdownCancel => if s.waiting then some { s with waiting := false } else none
  | .destroy => some (if s.stage = .done then s else s.putFin)

/-- A session that has just handed nghttp2 what had been received before. -/
def init (version : Version) (failed : Bool) : Session capacity :=
  if failed then ({} : Session capacity).recvFailed version else {}

end Session

end AnyHttp.H2
