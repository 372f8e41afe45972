import AnyHttp.Event
import AnyHttp.H1.Client

/-!
# The end of an HTTP/1.1 client session

`ClientSession::shutdown()` lets go of the readers and writers, cancels what is going on on the
stream, waits until that is over and ends the connection.  What is going on is counted by
`StreamOps`, which the operations share with the session, as a reader or writer may be left with a
pending one when it is detached.  The `log` is what has happened to the stream, in this order.

The two runtimes differ in what becomes of a coroutine that has been cancelled: with ASIO it
`throws` from its next `co_await`, with corosio it goes on.
-/

namespace AnyHttp.H1

/-- What happens to the stream. -/
inductive StreamEvent
  /-- A read or a write. -/
  | begins (write : Bool)
  | readOver
  | writeOver (ec : ErrorCode)
  /-- A reader or writer shuts down one direction of the socket. -/
  | cut
  /-- `shutdown()` has detached the readers and writers. -/
  | detached
  /-- `end_connection()`, with `close_notify` or without, while `pending` operations are in
  progress. -/
  | ended (notify : Bool) (pending : Nat)
deriving DecidableEq, Repr

/-- `StreamOps` -/
structure StreamOps where
  pending : Nat := 0
  /-- The writes among those. -/
  writes : Nat := 0
  /-- Set when the last one is over. -/
  idle : Event := {}
deriving DecidableEq, Repr

namespace StreamOps

/-- `StreamOp()` -/
def begin (o : StreamOps) (write : Bool) : StreamOps :=
  { o with pending := o.pending + 1, writes := o.writes + write.toNat }

/-- `~StreamOp()` -/
def finish (o : StreamOps) (write : Bool) : StreamOps where
  writes := o.writes - write.toNat
  pending := o.pending - 1
  idle := if o.pending - 1 = 0 then o.idle.set else o.idle

def apply (o : StreamOps) : StreamEvent → StreamOps
  | .begins write => o.begin write
  | .readOver => o.finish false
  | .writeOver _ => o.finish true
  | _ => o

end StreamOps

namespace ClientSession

/-- How far `shutdown()` has come. -/
inductive Progress
  | notYet
  /-- It waits for the operations in progress. -/
  | waiting (intact : Bool)
  | ended (intact : Bool)
  /-- It has been left with an exception. -/
  | left
deriving DecidableEq, Repr

end ClientSession

open ClientSession in
structure ClientSession (P : Type*) where
  client : Client P := {}
  ops : StreamOps := {}
  phase : Progress := .notYet
  /-- The coroutine that shuts down the session has been cancelled. -/
  cancelled : Bool := false
  log : List StreamEvent := []
deriving DecidableEq, Repr

namespace ClientSession

inductive Action
  /-- A step of the session, its readers and writers. -/
  | session (a : Client.Action)
  /-- A read that needs more input starts over. -/
  | round (i : Nat)
  | shutdown
  /-- The coroutine that shuts down the session is cancelled, before that or meanwhile. -/
  | cancel
  /-- The wait for the operations in progress is over. -/
  | resume
deriving DecidableEq, Repr

variable {P : Type*} (Γ : Client.Context P) (throws : Bool)

/-- What a step of the session does to the stream. -/
def events (s : Client P) : Client.Action → List StreamEvent
  | .submit _ _ _ _ => if s.submitError.isSome then [] else [.begins true]
  | .write k data eof =>
    match s.requests[k]? with
    | some r => if (r.writer.answer data eof).isSome then [] else [.begins true]
    | none => []
  | .finish k ec =>
    match s.requests[k]? with
    | some r =>
      -- a cancelled write leaves the stream in an undefined state
      if ec = .canceled ∧ r.writer.attached ∧ r.writer.writing.any (!·.head) then
        [.writeOver ec, .cut]
      else [.writeOver ec]
    | none => []
  | .getResponse k =>
    match s.requests[k]? with
    | some r => if (s.responseError k r).isSome then [] else [.begins false]
    | none => []
  | .deliver _ _ => [.readOver]
  | .readSome _ => [.begins false]
  | .readDone _ => [.readOver]
  | .releaseResponse i destroy =>
    match s.readers[i]? with
    | some r => if destroy && !Γ.done r.parser && r.attached then [.cut] else []
    | none => []
  | _ => []

def record (s : ClientSession P) (es : List StreamEvent) : ClientSession P :=
  { s with ops := es.foldl StreamOps.apply s.ops, log := s.log ++ es }

/-- The session is kept while it is being shut down. -/
def possible (s : ClientSession P) : Client.Action → Bool
  | .shutdown => false
  | .gone => match s.phase with
    | .waiting _ => false
    | _ => true
  | _ => true

/-- `end_connection()`, at the next `co_await` -/
def endConnection (s : ClientSession P) (intact : Bool) : ClientSession P :=
  if throws && s.cancelled then { s with phase := .left }
  else { s with phase := .ended intact, log := s.log ++ [.ended intact s.ops.pending] }

/-- `co_await ops->idle.wait()`, of an event that is not set -/
def waitIdle (s : ClientSession P) (intact : Bool) : ClientSession P :=
  if throws && s.cancelled then { s with phase := .left }
  else
    { s with
      phase := .waiting intact
      ops.idle := if s.cancelled then s.ops.idle.wait.cancel else s.ops.idle.wait }

def shutdown (s : ClientSession P) : ClientSession P :=
  if s.client.shuttingDown then s
  else
    let intact := !s.client.sendFailed && s.ops.writes == 0
    let s := { s with client := s.client.shutdown }.record [.detached]
    if s.ops.pending ≠ 0 then { s with ops.idle := s.ops.idle.clear }.waitIdle throws intact
    else s.endConnection throws intact

/-- `shutdown()` goes on. It does not look at how the wait has ended. -/
def resume (s : ClientSession P) : Option (ClientSession P) :=
  match s.phase with
  | .waiting intact => s.ops.idle.woken.map fun _ =>
      { s with ops.idle.woken := none }.endConnection throws intact
  | _ => none

def step (s : ClientSession P) : Action → Option (ClientSession P)
  | .session a =>
    if s.possible a then
      (s.client.step Γ a).map fun c => { s with client := c }.record (events Γ s.client a)
    else none
  | .round i => s.client.readers[i]?.bind fun r =>
    if r.delivered && r.reading && r.attached && !Γ.done r.parser then
      some (s.record [.readOver, .begins false])
    else none
  | .shutdown => if s.client.alive then some (s.shutdown throws) else none
  | .cancel => some { s with cancelled := true, ops.idle := s.ops.idle.cancel }
  | .resume => s.resume throws

end ClientSession

end AnyHttp.H1
