import AnyHttp.Lib.Run
import AnyHttp.Lib.Update

/-!
# The connections of a QUIC server

`QuicServerImpl` and `QuicServerSession` of `quic/server.cpp`, on top of `quic/session.cpp`: the
table `sessions_` that finds the session of a datagram by its connection ID, `udp_on_read()`, which
collects datagrams and makes the sessions, and the jobs that run on a session's executor.

`udp_on_read()` runs on another executor than the sessions, so that what it does with a datagram
interleaves with their jobs; a job is one step.  Every result of ngtcp2 and of the system calls is
part of the action.  Sessions are identified by the order they were made in, and never freed: what
is left of one that the table has forgotten are the jobs that have been posted for it.

Streams and the application, what is sent, and `done_`, which only ends `do_session()`, are not part
of the model.
-/

namespace AnyHttp.Quic.Demux

open Lib

/-! ### What there is -/

/-- A connection ID, as `cid_key()` has it. -/
abbrev Key := List UInt8

/-- A datagram that `udp_on_read()` has received. -/
structure Datagram where
  /-- The connection ID that `ngtcp2_pkt_decode_version_cid()` finds. -/
  dcid : Option Key
  /-- If `ngtcp2_accept()` takes it for the first packet of a connection. -/
  accepted : Bool
  data : List UInt8
deriving DecidableEq, Repr

structure QuicBatch where
  isNew : Bool := false
  datagrams : List Datagram
deriving DecidableEq, Repr

/-- The period that a connection of ngtcp2's is in. -/
inductive Period
  | active
  | closing
  | draining
deriving DecidableEq, Repr

/-- What `timer_` has been armed with. -/
inductive Timer
  | idle
  | expiry
  | close
deriving DecidableEq, Repr

/-- What has been called for a session, see `QuicServerSession.log`. -/
inductive Call
  | processQuicBatch
  | init (first : Datagram)
  /-- `QuicSession::on_read()`; `usable` tells if the session has a connection and TLS, and is not
  closed. -/
  | onRead (usable : Bool)
deriving DecidableEq, Repr

structure QuicServerSession where
  /-- The Initial that it was made for. -/
  created : Datagram
  /-- `conn_`. -/
  conn : Option Period := none
  /-- `setup_tls()` has succeeded. -/
  tls : Bool := false
  closed : Bool := false
  timer : Timer := .idle
  /-- `timer_` has been armed for ngtcp2 before, so that its callback may be on the way. -/
  armed : Bool := false
  /-- It is in the registry of the server. -/
  registered : Bool := false
  /-- What this pass of `udp_on_read()` has for it. -/
  collecting : Option QuicBatch := none
  /-- The batches that have been posted to it, in that order. -/
  queue : List QuicBatch := []
  log : List Call := []
deriving DecidableEq, Repr

/-- `sessions_`. -/
abbrev Table := List (Key × Nat)

/-- `std::unordered_map::emplace()`, which leaves an entry that exists. -/
def Table.emplace (table : Table) (key : Key) (i : Nat) : Table :=
  if table.any (·.1 == key) then table else (key, i) :: table

structure QuicServerImpl where
  sessions : Table := []
  /-- Every session that has been made. -/
  made : List QuicServerSession := []
  /-- The Initial that `udp_on_read()` has not found a session for, and is making one. -/
  accepted : Option (Key × Datagram) := none
  /-- The server is being destroyed. -/
  destroyed : Bool := false
deriving DecidableEq, Repr

/-! ### What ngtcp2 answers -/

/-- ngtcp2 has a new connection ID, or gives up one. -/
inductive CidEvent
  | new (cid : Key)
  | removed (cid : Key)
deriving DecidableEq, Repr

/-- What `handle_error()` finds. -/
structure Failure where
  /-- `last_error_` is of the type `NGTCP2_CCERR_TYPE_IDLE_CLOSE` or
  `NGTCP2_CCERR_TYPE_DROP_CONN`. -/
  silent : Bool := false
  /-- What `write_connection_close()` returns. -/
  packet : List UInt8
  /-- The period that the connection is in after that, if the packet is empty. -/
  period : Period := .active
deriving DecidableEq, Repr

/-- `ngtcp2_conn_read_pkt()`. -/
structure ReadResult where
  cids : List CidEvent := []
  /-- The period that it leaves the connection in. -/
  period : Period := .active
  /-- If it fails. -/
  error : Option Failure := none
deriving DecidableEq, Repr

inductive Written
  | sent
  /-- `send_datagrams()` fails. -/
  | notSent
  | error (f : Failure)
deriving DecidableEq, Repr

/-- `ngtcp2_conn_write_aggregate_pkt2()`, and what becomes of the packets. -/
structure WriteResult where
  cids : List CidEvent := []
  written : Written := .sent
  /-- `ngtcp2_conn_get_expiry2()` is not `UINT64_MAX`. -/
  pending : Bool := true
deriving DecidableEq, Repr

/-- `QuicServerSession::init()`. -/
inductive InitResult
  | randBytesFails
  | connServerNewFails
  | setupTlsFails
  | read (r : ReadResult)
deriving DecidableEq, Repr

/-- Everything that ngtcp2 answers during `process_quic_batch()`. -/
structure BatchResult where
  init : InitResult := .read {}
  /-- `ngtcp2_conn_get_scid()`. -/
  scids : List Key := []
  /-- One for each datagram that is left after `init()`. -/
  reads : List ReadResult
  write : WriteResult := {}
deriving DecidableEq, Repr

/-- `ngtcp2_conn_handle_expiry()`, and the write pass after it. -/
structure ExpiryResult where
  error : Option Failure := none
  write : WriteResult := {}
deriving DecidableEq, Repr

/-! ### The jobs of a session -/

namespace QuicServerSession

/-- There is a connection with TLS. -/
def initialized (session : QuicServerSession) : Bool := session.conn.isSome && session.tls

def usable (session : QuicServerSession) : Bool := session.initialized && !session.closed

/-- In the closing or the draining period. -/
def ending (session : QuicServerSession) : Bool :=
  session.conn == some .closing || session.conn == some .draining

end QuicServerSession

/-- What the job of a session can change. -/
structure Job where
  sessions : Table
  session : QuicServerSession
deriving DecidableEq, Repr

namespace Job

def note (w : Job) (c : Call) : Job :=
  { w with session := { w.session with log := w.session.log ++ [c] } }

def setConn (w : Job) (conn : Option Period) : Job :=
  { w with session := { w.session with conn := conn } }

def setTimer (w : Job) (timer : Timer) : Job :=
  { w with session := { w.session with timer := timer } }

def close (w : Job) : Job := { w with session := { w.session with closed := true } }

def associateQuicCid (i : Nat) (w : Job) (cid : Key) : Job :=
  { w with sessions := w.sessions.emplace cid i }

def dissociateQuicCid (w : Job) (cid : Key) : Job :=
  { w with sessions := w.sessions.filter (·.1 ≠ cid) }

def eraseQuicSession (i : Nat) (w : Job) : Job :=
  { w with sessions := w.sessions.filter (·.2 ≠ i) }

def onCid (i : Nat) (w : Job) : CidEvent → Job
  | .new cid => w.associateQuicCid i cid
  | .removed cid => w.dissociateQuicCid cid

def handleError (i : Nat) (w : Job) (f : Failure) : Job :=
  if w.session.closed then w
  else if f.silent then (w.close.setTimer .idle).eraseQuicSession i
  -- the peer is told why, and the session stays for a while
  else if w.session.conn = some .active then
    -- an empty packet is the one case that leaves the timer alone
    if f.packet.isEmpty then w.close.setConn (some f.period)
    else (w.close.setConn (some .closing)).setTimer .close
  else w.close.setTimer .close

/-- `on_read()`, and if it returns 0. -/
def onRead (i : Nat) (w : Job) (r : ReadResult) : Job × Bool :=
  let w := r.cids.foldl (onCid i) (w.note (.onRead w.session.usable))
  let w := w.setConn (w.session.conn.map fun _ => r.period)
  match r.error with
  | none => (w, true)
  | some f => (w.handleError i f, false)

/-- `init()`, and if it returns 0. -/
def init (i : Nat) (w : Job) (first : Datagram) (r : InitResult) : Job × Bool :=
  let w := w.note (.init first)
  match r with
  | .randBytesFails => (w, false)
  | .connServerNewFails => (w, false)
  -- the connection is there, without TLS
  | .setupTlsFails => (w.setConn (some .active), false)
  | .read r =>
    let w := w.setConn (some .active)
    { w with session := { w.session with tls := true } }.onRead i r

/-- `arm_timer_from_ngtcp2()`. -/
def updateTimer (w : Job) (pending : Bool) : Job :=
  if w.session.closed || w.session.conn.isNone then w
  else if pending then
    { w with session := { w.session with timer := .expiry, armed := true } }
  else w.setTimer .idle

/-- `write_streams()`, and if it returns 0. -/
def writeStreams (i : Nat) (w : Job) (r : WriteResult) : Job × Bool :=
  if w.session.conn.isNone then (w, true)
  -- nothing is sent in these periods
  else if w.session.ending then (w, true)
  else
    let w := r.cids.foldl (onCid i) w
    match r.written with
    | .sent => (w, true)
    | .notSent => (w, false)
    | .error f => (w.handleError i f, false)

/-- `flush_write()`, and if it returns 0. -/
def flushWrite (i : Nat) (w : Job) (r : WriteResult) : Job × Bool :=
  if w.session.closed || w.session.conn.isNone then (w, true)
  else
    match w.writeStreams i r with
    | (w, false) => (w, false)
    -- the timer is armed anew only if the pass has not failed
    | (w, true) => (w.updateTimer r.pending, true)

/-- What `wake_write()` posts. -/
def wakeWrite (i : Nat) (w : Job) (r : WriteResult) : Job :=
  if w.session.closed then w else (w.flushWrite i r).1

def handleExpiry (i : Nat) (w : Job) (r : ExpiryResult) : Job :=
  match r.error with
  | some f => w.handleError i f
  | none => (w.flushWrite i r.write).1

/-- The callback of the timer that `schedule_close_timer()` arms. -/
def closeTimer (i : Nat) (w : Job) : Job := (w.setTimer .idle).eraseQuicSession i

/-- What `close_connection()` posts; the error is one of the application's. -/
def closeConnection (i : Nat) (w : Job) (f : Failure) : Job :=
  if w.session.closed || w.session.conn.isNone then w
  else w.handleError i { f with silent := false }

def doDestroy (w : Job) : Job := w.close.setTimer .idle

/-- A session that is closed is erased, unless its connection is in the closing or the draining
period. -/
def forget (i : Nat) (w : Job) : Job :=
  if w.session.closed && !w.session.ending then w.eraseQuicSession i else w

/-- One datagram of a batch, and `read_ok`. -/
def feed (i : Nat) : Job × Bool → Datagram × ReadResult → Job × Bool
  | (w, readOk), (_, r) =>
    -- what comes in these periods is not for the connection
    if w.session.ending then (w, readOk)
    else if w.session.closed then (w, readOk)
    else
      match w.onRead i r with
      | (w, true) => (w, true)
      | (w, false) => (w.forget i, readOk)

/-- The write pass for a whole batch. -/
def writePass (i : Nat) (write : WriteResult) : Job × Bool → Job
  | (w, false) => w
  | (w, true) =>
    match w.flushWrite i write with
    | (w, true) => w
    | (w, false) => w.forget i

/-- The datagrams of a batch, and the write pass at its end. -/
def feedAll (i : Nat) (w : Job) (readOk : Bool) (datagrams : List (Datagram × ReadResult))
    (write : WriteResult) : Job :=
  writePass i write (datagrams.foldl (feed i) (w, readOk))

/-- `destroyed` is what makes `add_session()` return false. -/
def processQuicBatch (i : Nat) (destroyed : Bool) (w : Job) (batch : QuicBatch) (r : BatchResult) :
    Job :=
  let w := w.note .processQuicBatch
  match batch.isNew, batch.datagrams with
  | true, first :: rest =>
    match w.init i first r.init with
    | (w, false) => w.eraseQuicSession i
    | (w, true) =>
      -- the array has room for that many
      let w := if r.scids.length ≤ 8 then r.scids.foldl (associateQuicCid i) w else w
      -- the server is going down, and does not want any more sessions
      if destroyed then (w.eraseQuicSession i).doDestroy
      else
        { w with session := { w.session with registered := true } }.feedAll i true
          (rest.zip r.reads) r.write
  | _, datagrams => w.feedAll i false (datagrams.zip r.reads) r.write

end Job

/-! ### The server -/

namespace QuicServerSession

/-- `batches[session].datagrams.push_back()`. -/
def collect (session : QuicServerSession) (d : Datagram) : QuicServerSession :=
  { session with
    collecting :=
      match session.collecting with
      | none => some { datagrams := [d] }
      | some batch => some { batch with datagrams := batch.datagrams ++ [d] } }

/-- What has been collected is posted. -/
def post (session : QuicServerSession) : QuicServerSession :=
  { session with queue := session.queue ++ session.collecting.toList, collecting := none }

end QuicServerSession

/-- How many datagrams of a batch are left for `on_read()`. -/
def QuicBatch.toRead (batch : QuicBatch) : Nat :=
  if batch.isNew then batch.datagrams.length - 1 else batch.datagrams.length

inductive Action
  /-- `udp_on_read()` looks for the session of a datagram. -/
  | datagram (d : Datagram)
  /-- It makes the session that it has not found. -/
  | emplace
  /-- It has come to its end. -/
  | post
  | processQuicBatch (i : Nat) (r : BatchResult)
  | wakeWrite (i : Nat) (r : WriteResult)
  /-- The callback of the timer that `arm_timer_from_ngtcp2()` arms, possibly too late. -/
  | expiry (i : Nat) (r : ExpiryResult)
  | closeTimer (i : Nat)
  | closeConnection (i : Nat) (f : Failure)
  /-- The server is destroyed. -/
  | destroy
  /-- What it has dispatched to a session then. -/
  | doDestroy (i : Nat)
deriving DecidableEq, Repr

namespace QuicServerImpl

/-- What a session's job leaves. -/
def put (s : QuicServerImpl) (i : Nat) (w : Job) : QuicServerImpl :=
  { s with sessions := w.sessions, made := s.made.set i w.session }

/-- A job of a session. -/
def job (s : QuicServerImpl) (i : Nat) (f : Job → Option Job) : Option QuicServerImpl :=
  (s.made[i]?).bind fun session => (f ⟨s.sessions, session⟩).map (s.put i)

end QuicServerImpl

/-- `process_quic_batch()` with the first batch that is queued. -/
def Job.next (i : Nat) (destroyed : Bool) (r : BatchResult) (w : Job) : Option Job :=
  match w.session.queue with
  | [] => none
  | batch :: queue =>
    if r.reads.length = batch.toRead then
      some ({ w with session := { w.session with queue := queue } }.processQuicBatch i destroyed
        batch r)
    else none

def step (s : QuicServerImpl) : Action → Option QuicServerImpl
  | .datagram d =>
    if s.accepted.isSome then none
    else
      match d.dcid with
      | none => some s
      | some key =>
        match s.sessions.lookup key with
        | some i =>
          (s.made[i]?).map fun session => { s with made := s.made.set i (session.collect d) }
        | none => some (if d.accepted then { s with accepted := some (key, d) } else s)
  | .emplace =>
    s.accepted.map fun (key, d) =>
      { s with
        accepted := none
        sessions := s.sessions.emplace key s.made.length
        made := s.made ++
          [{ created := d, collecting := some { isNew := true, datagrams := [d] } }] }
  | .post =>
    if s.accepted.isSome then none
    else some { s with made := s.made.map QuicServerSession.post }
  | .processQuicBatch i r => s.job i (Job.next i s.destroyed r)
  | .wakeWrite i r => s.job i fun w => some (w.wakeWrite i r)
  | .expiry i r =>
    s.job i fun w =>
      if w.session.armed then
        some ((if w.session.timer = .expiry then w.setTimer .idle else w).handleExpiry i r)
      else none
  | .closeTimer i =>
    s.job i fun w => if w.session.timer = .close then some (w.closeTimer i) else none
  | .closeConnection i f => s.job i fun w => some (w.closeConnection i f)
  | .destroy => some { s with destroyed := true }
  | .doDestroy i =>
    s.job i fun w =>
      if s.destroyed && w.session.registered then some w.doDestroy else none

end AnyHttp.Quic.Demux
