import AnyHttp.Common
import AnyHttp.Lib.Run
import AnyHttp.Lib.Update

/-!
# Streams that the peer may open

A client may have so many bidirectional streams open at once.  For each one that is over, the server
has to let it open another one (`ngtcp2_conn_extend_max_streams_bidi()`), which the two applications
do in different places: `StreamApplication` (`quic/streams.cpp`) where ngtcp2 closes the stream, and
`Http3Application` (`h3/application.cpp`) in a callback of nghttp3.

nghttp3 is a parameter.  What a stream does when it is closed is not part of this model, see
`Quic/Driver.lean`; that it is told shows up as the call of `fail()`.  Before the handshake has
completed, when the applications are not ready, there are no streams.
-/

namespace AnyHttp.Quic.Credit

open Lib

/-! ### nghttp3 -/

/-- What `nghttp3_conn_close_stream()` returns. -/
inductive CloseResult
  | ok
  | streamNotFound
  | error
deriving DecidableEq, Repr

/-- nghttp3, as far as it keeps streams: it has those that it has been given data of, until they are
closed, and its callback is called for these. -/
structure Nghttp3 where
  State : Type
  init : State
  /-- `nghttp3_conn_read_stream()`, if it does not fail. -/
  readStream : State → Nat → List UInt8 → Bool → Option State
  /-- `nghttp3_conn_shutdown_stream_read()`, if it does not fail. -/
  shutdownStreamRead : State → Nat → Option State
  /-- `nghttp3_conn_close_stream()`, and the `stream_close` callbacks from inside it. -/
  closeStream : State → Nat → Nat → State × CloseResult × List (Nat × Nat)
  /-- Whatever else is called, such as to submit a response. -/
  other : State → Nat → State
  knows : State → Nat → Bool
  knows_init : ∀ id, knows init id = false
  knows_readStream : ∀ s t id data fin, readStream s id data fin = some t →
    ∀ j, knows t j = (j == id || knows s j)
  knows_shutdownStreamRead : ∀ s t id, shutdownStreamRead s id = some t → ∀ j, knows t j = knows s j
  knows_other : ∀ s k j, knows (other s k) j = knows s j
  closeStream_known : ∀ s id code, knows s id = true →
    ∃ t, closeStream s id code = (t, .ok, [(id, code)]) ∧ ∀ j, knows t j = (j != id && knows s j)
  closeStream_unknown : ∀ s id code, knows s id = false →
    ∃ t, closeStream s id code = (t, .streamNotFound, []) ∧ ∀ j, knows t j = knows s j

/-! ### The applications -/

/-- What the applications call when a stream is closed. -/
inductive Call
  | fail (id : Nat) (ec : ErrorCode)
  | extendMaxStreamsBidi (n : Nat)
deriving DecidableEq, Repr

/-- `StreamApplication::stream_close()`. `found` tells if the session still has the stream, `flag`
is the error code, if `NGTCP2_STREAM_CLOSE_FLAG_APP_ERROR_CODE_SET` is set. -/
def StreamApplication.streamClose (found remoteStream : Bool) (id : Nat) (flag : Option Nat) :
    List Call :=
  (if found then [.fail id (if flag.isSome then .connectionReset else .success)] else []) ++
    (if remoteStream then [.extendMaxStreamsBidi 1] else [])

/-- `NGHTTP3_H3_NO_ERROR`. -/
def h3NoError : Nat := 0x100

/-- `h3_cb_stream_close()`, of a server. -/
def Http3Application.h3CbStreamClose (found : Bool) (id appErrorCode : Nat) : List Call :=
  (if found then
    [.fail id (if appErrorCode = h3NoError then .success else .connectionReset)] else []) ++
    [.extendMaxStreamsBidi 1]

/-- `Http3Application::stream_close()`, if it does not fail. -/
def Http3Application.streamClose (lib : Nghttp3) (h3 : lib.State) (found : Bool) (id : Nat)
    (flag : Option Nat) : Option (lib.State × List Call) :=
  let appErrorCode := flag.getD h3NoError
  let (h3, rv, callbacks) := lib.closeStream h3 id appErrorCode
  let calls := callbacks.flatMap fun c => Http3Application.h3CbStreamClose found c.1 c.2
  match rv with
  | .ok => some (h3, calls)
  | .streamNotFound => some (h3, calls)
  | .error => none

/-! ### A connection -/

inductive Application
  | plain
  | http3
deriving DecidableEq, Repr

/-- A bidirectional stream of the peer's. -/
structure PeerStream where
  /-- ngtcp2 has passed on data of it, or the end of it. -/
  sawData : Bool := false
  /-- ngtcp2 has closed it. -/
  closed : Bool := false
deriving DecidableEq, Repr

structure Connection (lib : Nghttp3) where
  /-- In the order of their ids. -/
  streams : List PeerStream := []
  /-- How many streams the peer may have opened so far. -/
  maxStreams : Nat
  h3 : lib.State := lib.init
  /-- A callback has failed, and with it the connection. -/
  failed : Bool := false

inductive Action
  /-- The peer opens a stream, explicitly or not. -/
  | opens
  | recvStreamData (n : Nat) (data : List UInt8) (fin : Bool)
  /-- The peer resets a stream. -/
  | streamReset (n : Nat)
  /-- We stop reading from a stream. -/
  | streamStopSending (n : Nat)
  /-- The peer stops reading from a stream. -/
  | recvStopSending (n : Nat)
  | streamClose (n : Nat) (flag : Option Nat) (found : Bool)
  /-- A stream that we have opened is closed. -/
  | localStreamClose (id : Nat) (flag : Option Nat) (found : Bool)
  /-- Something else is called of nghttp3. -/
  | other (k : Nat)
deriving DecidableEq, Repr

/-- The id of a bidirectional stream of the client's. -/
def streamId (n : Nat) : Nat := 4 * n

variable {lib : Nghttp3}

namespace Connection

/-- The stream, if ngtcp2 still has it. -/
def open? (s : Connection lib) (n : Nat) : Option PeerStream :=
  if s.failed then none else (s.streams[n]?).filter (!·.closed)

/-- ngtcp2 carries out these calls. -/
def perform (s : Connection lib) (calls : List Call) : Connection lib :=
  calls.foldl (fun s call =>
    match call with
    | .fail .. => s
    | .extendMaxStreamsBidi n => { s with maxStreams := s.maxStreams + n }) s

def fail (s : Connection lib) : Connection lib := { s with failed := true }

def close (s : Connection lib) (n : Nat) (stream : PeerStream) : Connection lib :=
  { s with streams := s.streams.set n { stream with closed := true } }

/-- `nghttp3_conn_shutdown_stream_read()`, which both `stream_reset()` and `stream_stop_sending()`
call. -/
def shutdownStreamRead (s : Connection lib) (id : Nat) : Connection lib :=
  match lib.shutdownStreamRead s.h3 id with
  | none => s.fail
  | some h3 => { s with h3 := h3 }

end Connection

def step (app : Application) (s : Connection lib) : Action → Option (Connection lib)
  | .opens =>
    if s.failed = false ∧ s.streams.length < s.maxStreams then
      some { s with streams := s.streams ++ [{}] }
    else none
  | .recvStreamData n data fin =>
    (s.open? n).map fun stream =>
      let s' := { s with streams := s.streams.set n { stream with sawData := true } }
      match app with
      | .plain => s'
      | .http3 =>
        match lib.readStream s.h3 (streamId n) data fin with
        | none => s.fail
        | some h3 => { s' with h3 := h3 }
  | .streamReset n | .streamStopSending n =>
    (s.open? n).map fun _ =>
      match app with
      | .plain => s
      | .http3 => s.shutdownStreamRead (streamId n)
  | .recvStopSending n => (s.open? n).map fun _ => s
  | .streamClose n flag found =>
    (s.open? n).map fun stream =>
      match app with
      | .plain =>
        (s.close n stream).perform (StreamApplication.streamClose found true (streamId n) flag)
      | .http3 =>
        match Http3Application.streamClose lib s.h3 found (streamId n) flag with
        | none => s.fail
        | some (h3, calls) => { s.close n stream with h3 := h3 }.perform calls
  | .localStreamClose id flag found =>
    if app = .plain ∧ s.failed = false then
      some (s.perform (StreamApplication.streamClose found false id flag))
    else none
  | .other k => if s.failed then none else some { s with h3 := lib.other s.h3 k }

end AnyHttp.Quic.Credit
