import AnyHttp.Lib.Run
import AnyHttp.Quic.Packing

/-!
# The write queue of plain streams

`StreamApplication` of `quic/streams.cpp`, as far as it has to do with `write_queue_`, over the
whole life of a connection.  `Quic/Packing.lean` has what `write_pkt()` does with it; here, streams
come and go between its calls, are written to, fail, and get credit and acknowledgements.

The functions of a stream are taken one at a time, in any order whatsoever: the scheduler does not
depend on what their callers know.  `fail()` is two of them, because it invokes the handler of a
read in between.  ngtcp2 is a parameter, and so is what becomes of the connection; but ngtcp2 does
not give a stream the id of an earlier one.
-/

namespace AnyHttp.Quic.Packing

open Lib

/-! ### What happens to a stream -/

inductive Operation
  | makeHandle
  | startWrite (h : Option Handler) (buffer : List UInt8) (eof : Bool)
  | cancelWrite (token : Nat)
  | resetStream (code : Nat)
  | dropWriter
  | dropReader
  | onAcked (stop : Nat)
  | abortWriting (ec : ErrorCode)
  | failReading (ec : ErrorCode)
  | failWriting (ec : ErrorCode)
  /-- Anything that is about the incoming body. -/
  | reading (rx : Incoming) (readAborted : Bool)
deriving DecidableEq, Repr

def Operation.apply (q : QuicStream) : Operation → QuicStream
  | .makeHandle => { q with reader := true, writer := true }
  | .startWrite h buffer eof => q.startWrite h buffer eof
  | .cancelWrite token => q.cancelWrite token
  | .resetStream code => q.userReset code
  | .dropWriter => { q with writer := false }.deleteWriter
  | .dropReader => { q with reader := false }.deleteReader
  | .onAcked stop => q.onAcked stop
  | .abortWriting ec => q.abortWriting ec
  | .failReading ec => q.failReading ec
  | .failWriting ec => q.failWriting ec
  | .reading rx readAborted => { q with rx := rx, readAborted := readAborted }

/-- A stream without a handle. -/
def makeStream (config : Config) (mode : WriteMode) : PlainStream where
  q := { (Stream.init (.plain config) mode true).q with reader := false, writer := false }

namespace StreamApplication

def createStream (config : Config) (mode : WriteMode) (app : StreamApplication) (id : Nat) :
    StreamApplication :=
  { app with streams := app.streams ++ [(id, makeStream config mode)] }

def eraseStream (app : StreamApplication) (id : Nat) : StreamApplication :=
  { app with streams := app.streams.filter fun x => x.1 ≠ id }

/-- The function of the stream, and what it calls: `on_writable()` while it runs, and at its end
what `maybe_close()` does. -/
def operate (app : StreamApplication) (id : Nat) (o : Operation) : StreamApplication :=
  match app.findStream id with
  | none => app
  | some stream =>
    let calls := (o.apply stream.q).calls.drop stream.q.calls.length
    let app := app.modify id fun stream => { stream with q := o.apply stream.q }
    let app := if .onWritable ∈ calls then app.schedule id true else app
    if .eraseStream ∈ calls then app.eraseStream id else app

def extendMaxStreamData (app : StreamApplication) (id : Nat) : StreamApplication :=
  match app.findStream id with
  | none => app
  | some _ => (app.modify id fun stream => { stream with blocked := false }).schedule id true

def onClosed (app : StreamApplication) : StreamApplication :=
  { app with closed := true, writeQueue := [] }

end StreamApplication

/-! ### A connection -/

variable {κ : Type}

/-- ngtcp2 holds back a stream for want of credit only if it has been given bytes of it. -/
def Ngtcp2.Crediting (api : Ngtcp2 κ) : Prop :=
  ∀ k data k', api.writev k (some data) = (k', .streamDataBlocked) → data.vecs ≠ []

/-- The session after a pass of the loop of `write_pkt()`, whether it goes on or not. -/
def QuicSession.after : QuicSession κ ⊕ (QuicSession κ × Packed) → QuicSession κ
  | .inl p => p
  | .inr r => r.1

/-- `made` are the ids of the streams that there have been. -/
structure Scheduler (κ : Type) where
  session : QuicSession κ
  made : List Nat := []

namespace Scheduler

/-- A connection without streams. -/
def init (conn : Option κ) : Scheduler κ where
  session := { app := { streams := [] }, conn := conn }

def app (s : Scheduler κ) : StreamApplication := s.session.app

def setApp (s : Scheduler κ) (app : StreamApplication) : Scheduler κ :=
  { s with session := { s.session with app := app } }

end Scheduler

inductive Event (κ : Type)
  | createStream (id : Nat)
  | stream (id : Nat) (o : Operation)
  | extendMaxStreamData (id : Nat)
  /-- `write_pkt()` is called, with whatever has become of the session. -/
  | writePkt (conn : Option κ) (closed applicationReady : Bool)
  /-- One pass of the loop of `write_pkt()`. -/
  | pass
  | onClosed
deriving DecidableEq, Repr

namespace Scheduler

def step (api : Ngtcp2 κ) (config : Config) (mode : WriteMode) (s : Scheduler κ) :
    Event κ → Option (Scheduler κ)
  | .createStream id =>
    if id ∈ s.made ∨ s.app.closed = true then none
    else some { s.setApp (s.app.createStream config mode id) with made := id :: s.made }
  | .stream id o => some (s.setApp (s.app.operate id o))
  | .extendMaxStreamData id => some (s.setApp (s.app.extendMaxStreamData id))
  | .writePkt conn closed applicationReady =>
    some { s with
      session := { s.session with
        conn := conn
        closed := closed
        applicationReady := applicationReady
        shutDownStream := none } }
  | .pass => some { s with session := QuicSession.after (s.session.pass api) }
  | .onClosed => some (s.setApp s.app.onClosed)

end Scheduler

end AnyHttp.Quic.Packing
