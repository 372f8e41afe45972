import AnyHttp.Quic.Driver

/-!
# The streams that the peer opens

`StreamApplication` of `quic/streams.cpp`, with the map of streams that the session keeps for it
(`quic/session.cpp`): how streams come into being, how they are handed out to the callers of
`async_accept_stream()`, and who keeps them.

A stream is kept by the map `streams_`, which it is erased from by its own `maybe_close()`, and by
the accept queue.  The handle that is made of it does not keep it: it has plain pointers.  Streams
are identified by the order they were made in, and `settle` destroys the ones that nobody keeps.

ngtcp2 promises not to report anything about a stream after it has closed it, and to give a stream
that we open an id of its own.  What happens to a stream apart from that is one of the actions of
`Quic/Driver.lean`.
-/

namespace AnyHttp.Quic

open Lib

/-- What the user does, through a handle. -/
def Act.fromUser : Act → Bool
  | .startWrite .. => true
  | .cancelWrite _ => true
  | .asyncReadSome .. => true
  | .cancelRead => true
  | .resetStream _ => true
  | .stopSending _ => true
  | .dropReader => true
  | .dropWriter => true
  | .ret => true
  | _ => false

/-- What ngtcp2 has to say to a stream that the application knows, and makes no others of. -/
def Act.fromEngine : Act → Bool
  | .streamStopSending => true
  | .writePkt _ => true
  | .acked _ => true
  | _ => false

/-- What ngtcp2 has to say to a stream before it closes it. -/
def Act.fromNgtcp2 : Act → Bool
  | .recvStreamData .. => true
  | .streamReset => true
  | .recvStopSending => true
  | a => a.fromEngine

namespace Accept

/-- What does not change. -/
structure Setup where
  server : Bool
  config : Config
  mode : WriteMode
deriving DecidableEq, Repr

/-- `remote_stream()`: the ids of the streams that a client opens are even. -/
def Setup.remoteStream (c : Setup) (id : Nat) : Bool := (id % 2 == 0) == c.server

structure PlainStream where
  id : Nat
  stream : Stream
  /-- There is, or has been, a handle. -/
  handedOut : Bool := false
deriving DecidableEq, Repr

/-- A stream without a handle. -/
def Setup.makeStream (c : Setup) (id : Nat) : PlainStream :=
  let m := Stream.init (.plain c.config) c.mode true
  { id := id, stream := { m with q := { m.q with reader := false, writer := false } } }

/-- What a call of `async_accept_stream()` has been completed with. -/
structure Completion where
  accept : Nat
  ec : ErrorCode
  stream : Option Nat := none
deriving DecidableEq, Repr

structure StreamApplication where
  /-- Every stream that has been made. -/
  made : List PlainStream := []
  /-- `streams_` of the session. -/
  streams : List Nat := []
  acceptQueue : List Nat := []
  /-- The call of `async_accept_stream()` that waits. -/
  acceptHandler : Option Nat := none
  closedEc : ErrorCode := .success
  /-- The ids of the streams that ngtcp2 has closed. -/
  ended : List Nat := []
  /-- How often `async_accept_stream()` has been called. -/
  accepts : Nat := 0
  completed : List Completion := []
deriving DecidableEq, Repr

inductive Action
  | streamOpen (id : Nat)
  | recvStreamData (id : Nat) (data : List UInt8) (fin : Bool)
  | streamReset (id : Nat)
  | recvStopSending (id : Nat)
  /-- `flag` is the error code, if `NGTCP2_STREAM_CLOSE_FLAG_APP_ERROR_CODE_SET` is set. -/
  | streamClose (id : Nat) (flag : Option Nat)
  /-- Anything else that happens to a stream. -/
  | stream (k : Nat) (a : Act)
  | asyncAcceptStream
  /-- The function that `async_accept_stream()` has bound to the slot of a handler runs. -/
  | cancelAccept
  | openStream (id : Nat)
  | onClosed
  /-- `fail_streams()` goes on with a stream, after `on_closed()`. -/
  | failStream (k : Nat) (ec : ErrorCode)
  /-- `clear_streams()` goes on, after `on_closed()`. -/
  | clearStreams
deriving DecidableEq, Repr

namespace StreamApplication

/-! ### Who keeps a stream -/

def put (s : StreamApplication) (k : Nat) (o : PlainStream) : StreamApplication :=
  { s with made := s.made.set k o }

/-- A stream that nobody keeps any more is destroyed, if none of its functions is running. -/
def settle (s : StreamApplication) (k : Nat) : StreamApplication :=
  -- the map or the queue keeps it
  if k ∈ s.streams ∨ k ∈ s.acceptQueue then s
  else
    match s.made[k]? with
    | none => s
    | some o =>
      if o.stream.destroyed then s
      else
        match o.stream.step .destroy with
        | none => s
        | some m => s.put k { o with stream := m }

/-- Something happens to a stream, which may erase itself from the map. -/
def act (s : StreamApplication) (k : Nat) (a : Act) : Option StreamApplication :=
  (s.made[k]?).bind fun o =>
    (o.stream.step a).map fun m =>
      ({ s.put k { o with stream := m } with
        -- `erase_stream()`
        streams :=
          if Call.eraseStream ∈ m.q.calls then s.streams.filter (· ≠ k) else s.streams }).settle k

def findStream (s : StreamApplication) (id : Nat) : Option Nat :=
  s.streams.find? fun k => (s.made[k]?).any (·.id == id)

def createStream (c : Setup) (s : StreamApplication) (id : Nat) : StreamApplication :=
  { s with made := s.made ++ [c.makeStream id], streams := s.streams ++ [s.made.length] }

/-! ### Accepting and opening streams -/

/-- `make_handle()`: the adapters attach themselves to the stream. -/
def makeHandle (s : StreamApplication) (k : Nat) : StreamApplication :=
  match s.made[k]? with
  | none => s
  | some o =>
    s.put k
      { o with
        stream := { o.stream with q := { o.stream.q with reader := true, writer := true } }
        handedOut := true }

def complete (s : StreamApplication) (c : Completion) : StreamApplication :=
  { s with completed := s.completed ++ [c] }

/-- The first stream of the queue is handed out; nothing but the map may keep it after that. -/
def handOut (s : StreamApplication) (accept k : Nat) (rest : List Nat) : StreamApplication :=
  ((({ s with acceptQueue := rest }).makeHandle k).complete ⟨accept, .success, some k⟩).settle k

def deliverAccepted (s : StreamApplication) : StreamApplication :=
  match s.acceptHandler, s.acceptQueue with
  | some h, k :: rest => { s with acceptHandler := none }.handOut h k rest
  | _, _ => s

def openRemoteStream (c : Setup) (s : StreamApplication) (id : Nat) :
    StreamApplication × Option Nat :=
  match s.findStream id with
  | some k => (s, some k)
  | none =>
    -- a stream of our own, or one that comes too late
    if c.remoteStream id = false ∨ s.closedEc ≠ .success then (s, none)
    else
      -- it waits in the queue until somebody accepts it
      let k := s.made.length
      let s := s.createStream c id
      ({ s with acceptQueue := s.acceptQueue ++ [k] }.deliverAccepted, some k)

def asyncAcceptStream (s : StreamApplication) : StreamApplication :=
  let h := s.accepts
  let s := { s with accepts := s.accepts + 1 }
  -- one call at a time
  if s.acceptHandler.isSome then s.complete ⟨h, .alreadyStarted, none⟩
  else
    match s.acceptQueue with
    | k :: rest => s.handOut h k rest
    | [] =>
      -- no stream is going to come
      if s.closedEc ≠ .success then s.complete ⟨h, s.closedEc, none⟩
      else { s with acceptHandler := some h }

/-- The accept that waits, if there is one, is completed without a stream. -/
def completeAccept (s : StreamApplication) (ec : ErrorCode) : StreamApplication :=
  match s.acceptHandler with
  | none => s
  | some h => { s with acceptHandler := none }.complete ⟨h, ec, none⟩

def openStream (c : Setup) (s : StreamApplication) (id : Nat) : StreamApplication :=
  (s.createStream c id).makeHandle s.made.length

def onClosed (s : StreamApplication) : StreamApplication :=
  if s.closedEc ≠ .success then s
  else
    -- streams that have not been accepted are destroyed before the accept is completed
    (s.acceptQueue.foldl settle
      { s with
        closedEc := .connectionAborted
        acceptQueue := [] }).completeAccept .connectionAborted

/-- The streams of the map are destroyed. -/
def clearStreams (s : StreamApplication) : StreamApplication :=
  s.streams.foldl settle { s with streams := [] }

/-- What ngtcp2 reports about a stream that the peer may just have opened. -/
def report (c : Setup) (s : StreamApplication) (id : Nat) (a : Option Act) :
    Option StreamApplication :=
  -- ngtcp2 has nothing more to say about it
  if id ∈ s.ended then none
  else
    match s.openRemoteStream c id, a with
    | (s, some k), some a => s.act k a
    | (s, _), _ => some s

end StreamApplication

open StreamApplication

def step (c : Setup) (s : StreamApplication) : Action → Option StreamApplication
  | .streamOpen id => s.report c id none
  | .recvStreamData id data fin => s.report c id (some (.recvStreamData data fin))
  | .streamReset id => s.report c id (some .streamReset)
  | .recvStopSending id => s.report c id (some .recvStopSending)
  | .streamClose id flag =>
    if id ∈ s.ended then none
    else
      let s := { s with ended := id :: s.ended }
      match s.findStream id with
      | none => some s
      | some k => s.act k (.fail (if flag.isSome then .connectionReset else .success))
  | .stream k a =>
    (s.made[k]?).bind fun o =>
      if a.fromUser && o.handedOut || a.fromEngine && decide (k ∈ s.streams) then s.act k a
      else none
  | .asyncAcceptStream => some s.asyncAcceptStream
  | .cancelAccept => some (s.completeAccept .canceled)
  | .openStream id =>
    if s.closedEc = .success ∧ c.remoteStream id = false ∧ id ∉ s.ended ∧
        id ∉ s.made.map PlainStream.id then
      some (s.openStream c id)
    else none
  | .onClosed => some s.onClosed
  | .failStream k ec =>
    if s.closedEc ≠ .success ∧ k ∈ s.streams then s.act k (.fail ec) else none
  | .clearStreams => if s.closedEc ≠ .success then some s.clearStreams else none

end Accept

end AnyHttp.Quic
