import AnyHttp.Lib.Run
import AnyHttp.Lib.Slots
import AnyHttp.Quic.Driver

/-!
# A connection: its streams, and the slots of their callers

The streams of a connection share two things.  `StreamApplication` hands the streams that the peer
opens to whoever waits for them in `async_accept_stream()` (`quic/streams.cpp`), and the callers of
all operations have cancellation slots, which they may use for one operation after the other.

`on_cancel()` puts a function into the slot of an operation that is about to wait, unless there is
one in it, and nothing takes it out when the operation completes: only the owner of the slot clears
it, or puts something else there.  What the function does when the slot is emitted depends on what
is waiting by then.  All of them hold a plain pointer to the object they were made in, which may
have been destroyed in the meantime; running one of these is what sets `fault`, and the end of what
there is to say about a run.

Handlers are numbered in the order in which operations are started, so that `completed` tells which
of them have been invoked (or posted), with what, and how often.
-/

namespace AnyHttp.Quic

open Lib

/-- What is in a cancellation slot: the function of a write or a read on the stream with this id,
that of `async_accept_stream()`, or something that has nothing to do with the connection. -/
inductive SlotFn
  | write (id token : Nat)
  | read (id : Nat)
  | accept
  | foreign
deriving DecidableEq, Repr

/-- What a stream binds, with the stream it was made in. -/
def CancelFn.at (id : Nat) : CancelFn → SlotFn
  | .write token => .write id token
  | .read => .read id

/-- The handlers that these calls complete, and with what. -/
def completions (cs : List Call) : List (Nat × ErrorCode) :=
  cs.filterMap fun
    | .completeRead h _ ec _ => some (h.id, ec)
    | .completeWrite h ec => some (h.id, ec)
    | _ => none

/-- The calls of `on_cancel()` among these. -/
def bindings (cs : List Call) : List (Handler × CancelFn) :=
  cs.filterMap fun
    | .onCancel h fn => some (h, fn)
    | _ => none

structure Connection where
  kind : Kind
  mode : WriteMode
  streams : Nat → Option Stream := fun _ => none
  acceptQueue : List Nat := []
  acceptHandler : Option Handler := none
  closedEc : ErrorCode := .success
  destroyed : Bool := false
  slots : Nat → Option SlotFn := fun _ => none
  started : Nat := 0
  completed : List (Nat × ErrorCode) := []
  fault : Bool := false

inductive Event
  -- operations, with the cancellation slot of the caller
  | startWrite (id : Nat) (slot : Option Nat) (buffer : List UInt8) (eof : Bool)
  | asyncReadSome (id : Nat) (slot : Option Nat) (size : Nat)
  | asyncAcceptStream (slot : Option Nat)
  /-- Anything else that happens to a stream. -/
  | stream (id : Nat) (a : Act)
  -- the owner of a slot
  | emit (slot : Nat)
  | clear (slot : Nat)
  | assign (slot : Nat)
  -- the session
  | openStream (id : Nat) (headers : Bool)
  | openRemoteStream (id : Nat) (headers : Bool)
  | onClosed
  | destroy
deriving DecidableEq, Repr

/-- Neither an operation that is started nor one that is cancelled: those have events of their
own. -/
def Act.isOther : Act → Bool
  | .startWrite h _ _ => h.isNone
  | .asyncReadSome .. => false
  | .cancelWrite _ => false
  | .cancelRead => false
  | _ => true

namespace Connection

/-! ### Streams -/

/-- `on_cancel()`, for each of the operations that reach it. -/
def onCancel (slots : Nat → Option SlotFn) (id : Nat) (cs : List Call) : Nat → Option SlotFn :=
  (bindings cs).foldl (fun slots b => Lib.assign slots b.1.slot (b.2.at id)) slots

/-- After a step of one of the streams. -/
def after (w : Connection) (id : Nat) (m : Stream) : Connection :=
  { w with
    streams := Function.update w.streams id (some m)
    slots := onCancel w.slots id m.q.calls
    completed := w.completed ++ completions m.q.calls }

def act (w : Connection) (id : Nat) (a : Act) : Option Connection :=
  (w.streams id).bind fun m => (m.step a).map fun m' => w.after id m'

def createStream (w : Connection) (id : Nat) (headers : Bool) : Connection :=
  { w with streams := Function.update w.streams id (some (Stream.init w.kind w.mode headers)) }

/-- The handler of the operation that is started next. -/
def handler (w : Connection) (slot : Option Nat) : Handler := ⟨w.started, slot⟩

def next (w : Connection) : Connection := { w with started := w.started + 1 }

/-! ### Accepting streams -/

def complete (w : Connection) (h : Handler) (ec : ErrorCode) : Connection :=
  { w with completed := w.completed ++ [(h.id, ec)] }

/-- `deliver_accepted()`. -/
def deliverAccepted (w : Connection) : Connection :=
  match w.acceptHandler, w.acceptQueue with
  | some h, _ :: rest =>
    { w with acceptHandler := none, acceptQueue := rest }.complete h .success
  | _, _ => w

/-- `open_remote_stream()`, for a stream of the peer's that there is nothing of yet. -/
def openRemoteStream (w : Connection) (id : Nat) (headers : Bool) : Connection :=
  if w.closedEc ≠ .success then
    w
  else
    let w := w.createStream id headers
    -- a request stream of HTTP/3 is not for `accept_stream()`
    if w.kind = .http3 then w
    else { w with acceptQueue := w.acceptQueue ++ [id] }.deliverAccepted

def asyncAcceptStream (w : Connection) (h : Handler) : Connection :=
  -- one call at a time
  if w.acceptHandler.isSome then
    w.complete h .alreadyStarted
  else
    match w.acceptQueue with
    | _ :: rest => { w with acceptQueue := rest }.complete h .success
    | [] =>
      -- no stream is going to come
      if w.closedEc ≠ .success then
        w.complete h w.closedEc
      else
        { w with
          slots := Lib.assign w.slots h.slot .accept
          acceptHandler := some h }

/-- The function `async_accept_stream()` binds to the slot of its handler. -/
def cancelAccept (w : Connection) : Connection :=
  match w.acceptHandler with
  | none => w
  | some h => { w with acceptHandler := none }.complete h .canceled

def onClosed (w : Connection) : Connection :=
  if w.closedEc ≠ .success then
    w
  else
    -- what has not been accepted is dropped
    let w := { w with closedEc := .connectionAborted, acceptQueue := [] }
    match w.acceptHandler with
    | none => w
    | some h => { w with acceptHandler := none }.complete h w.closedEc

/-! ### Cancellation -/

/-- The object that a function was made in is still there. -/
def alive (w : Connection) : SlotFn → Bool
  | .write id _ => (w.streams id).any fun m => !m.destroyed
  | .read id => (w.streams id).any fun m => m.reader != .released
  | .accept => !w.destroyed
  | .foreign => true

/-- Runs a function whose object is there. A reader that has been detached from its stream looks
at that first. -/
def runFn (w : Connection) : SlotFn → Option Connection
  | .write id token => w.act id (.cancelWrite token)
  | .read id =>
    if (w.streams id).any fun m => m.reader == .attached then w.act id .cancelRead else some w
  | .accept => some w.cancelAccept
  | .foreign => some w

/-- `emit()`: the function that is in the slot runs, and stays there. -/
def emit (w : Connection) (slot : Nat) : Option Connection :=
  match w.slots slot with
  | none => some w
  -- the object that the function belongs to has to be there
  | some fn => if w.alive fn then w.runFn fn else some { w with fault := true }

/-! ### Steps -/

/-- What happens to a connection that nothing undefined has happened to. -/
def event (w : Connection) : Event → Option Connection
  | .startWrite id slot buffer eof =>
    w.next.act id (.startWrite (some (w.handler slot)) buffer eof)
  | .asyncReadSome id slot size => w.next.act id (.asyncReadSome (w.handler slot) size)
  | .asyncAcceptStream slot =>
    if w.kind ≠ .http3 ∧ w.destroyed = false then
      some (w.next.asyncAcceptStream (w.handler slot))
    else none
  | .stream id a => if a.isOther then w.act id a else none
  | .emit slot => w.emit slot
  | .clear slot => some { w with slots := Function.update w.slots slot none }
  | .assign slot => some { w with slots := Function.update w.slots slot (some .foreign) }
  | .openStream id headers =>
    if (w.streams id).isNone ∧ w.closedEc = .success then some (w.createStream id headers) else none
  | .openRemoteStream id headers =>
    if (w.streams id).isNone ∧ w.destroyed = false then some (w.openRemoteStream id headers)
    else none
  | .onClosed => if w.destroyed = false then some w.onClosed else none
  | .destroy => if w.destroyed = false then some { w.onClosed with destroyed := true } else none

/-- After a function has run whose object is gone, anything can happen. -/
def step (w : Connection) (e : Event) : Option Connection := if w.fault then none else w.event e

def init (kind : Kind) (mode : WriteMode) : Connection := { kind := kind, mode := mode }

/-! ### What is waiting -/

/-- Where an operation waits. -/
inductive Place
  | read (id : Nat)
  | write (id : Nat)
  | accept
deriving DecidableEq, Repr

/-- The operation that waits there. -/
def pending (w : Connection) : Place → Option Handler
  | .read id => (w.streams id).bind fun m => m.q.rx.readHandler
  | .write id => (w.streams id).bind fun m => m.q.tx.writeHandler
  | .accept => w.acceptHandler

/-- The function that cancels what waits there. -/
def fnAt (w : Connection) : Place → SlotFn
  | .read id => .read id
  | .write id => .write id ((w.streams id).elim 0 fun m => m.q.tx.writeToken)
  | .accept => .accept

end Connection

end AnyHttp.Quic
