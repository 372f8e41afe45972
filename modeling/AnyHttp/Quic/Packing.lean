import AnyHttp.Lib.Loop
import AnyHttp.Quic.Driver

/-!
# Packing a packet

`QuicSession::write_pkt()` fills one packet with what the streams of a `StreamApplication` have to
send: the stream at the front of `write_queue_` is offered, ngtcp2 tells what became of it, and the
stream goes to the back of the queue, or leaves it.

The streams are those of `Quic/Stream.lean`.  ngtcp2 is a parameter: what it answers may depend on
all that it has been asked before.  Handlers that complete on the way are posted, so that nobody
else has anything to do with the application meanwhile.
-/

namespace AnyHttp.Quic.Packing

open Lib

/-- What `write_pkt()` has to do with of a `PlainStream`. -/
structure PlainStream where
  q : QuicStream
  scheduled : Bool := false
  blocked : Bool := false
deriving DecidableEq, Repr

/-- `streams` are those of the session; `woken` tells if there has been a `wake_write()`. -/
structure StreamApplication where
  streams : List (Nat × PlainStream)
  writeQueue : List Nat := []
  closed : Bool := false
  woken : Bool := false
deriving DecidableEq, Repr

/-- What `next_stream_data()` returns. -/
structure StreamData where
  id : Nat
  vecs : List IoVec
  fin : Bool
deriving DecidableEq, Repr

namespace StreamApplication

def findStream (app : StreamApplication) (id : Nat) : Option PlainStream := app.streams.lookup id

/-- The stream becomes another one. -/
def modify (app : StreamApplication) (id : Nat) (f : PlainStream → PlainStream) :
    StreamApplication :=
  { app with streams := app.streams.map fun x => if x.1 = id then (x.1, f x.2) else x }

def schedule (app : StreamApplication) (id : Nat) (wake : Bool) : StreamApplication :=
  match app.findStream id with
  | none => app
  | some stream =>
    -- it has its place, or can not send
    if stream.scheduled || stream.blocked || app.closed then app
    else
      { app.modify id fun stream => { stream with scheduled := true } with
        writeQueue := app.writeQueue ++ [id]
        woken := app.woken || wake }

def unscheduleFront (app : StreamApplication) (id : Nat) : StreamApplication :=
  { app.modify id fun stream => { stream with scheduled := false } with
    writeQueue := if app.writeQueue.head? = some id then app.writeQueue.tail else app.writeQueue }

/-- One pass of the loop of `next_stream_data()`. -/
def nextPass (app : StreamApplication) :
    StreamApplication ⊕ (StreamApplication × Option StreamData) :=
  match app.writeQueue with
  | [] => .inr (app, none)
  | id :: rest =>
    match app.findStream id with
    -- the stream has been erased since
    | none => .inl { app with writeQueue := rest }
    | some stream =>
      if stream.blocked then .inl (app.unscheduleFront id)
      else
        let next := stream.q.nextStreamData
        let app := app.modify id fun stream => { stream with q := stream.q.nextStreamData.1 }
        if next.1.hasStreamData next.2.1 next.2.2 then .inr (app, some ⟨id, next.2.1, next.2.2⟩)
        -- nothing (more) to send, until `on_writable()`
        else .inl (app.unscheduleFront id)

theorem nextPass_variant : Variant nextPass (fun app => app.writeQueue.length) := by
  intro app app' h
  unfold nextPass at h
  cases hqueue : app.writeQueue with
  | nil =>
    rw [hqueue] at h
    exact nomatch h
  | cons id rest =>
    rw [hqueue] at h
    dsimp only at h
    have hfront (app₁ : StreamApplication) (happ₁ : app₁.writeQueue = app.writeQueue) :
        (app₁.unscheduleFront id).writeQueue = rest := by
      unfold unscheduleFront
      dsimp only
      rw [happ₁, hqueue, if_pos List.head?_cons, List.tail_cons]
    have hrest : app'.writeQueue = rest := by
      split at h
      · exact Sum.inl.inj h ▸ rfl
      · split at h
        · exact Sum.inl.inj h ▸ hfront app rfl
        · split at h
          · exact nomatch h
          · exact Sum.inl.inj h ▸ hfront _ rfl
    dsimp only
    rw [hrest, hqueue, List.length_cons]
    exact Nat.lt_succ_self _

def nextStreamData (app : StreamApplication) : StreamApplication × Option StreamData :=
  loop nextPass_variant app

def onStreamDataWritten (app : StreamApplication) (id n : Nat) (fin : Bool) : StreamApplication :=
  match app.findStream id with
  | none => app
  | some stream =>
    let app := app.unscheduleFront id
    let q := stream.q.onStreamDataWritten n fin
    let app := app.modify id fun stream => { stream with q := stream.q.onStreamDataWritten n fin }
    -- `on_writable()`
    let app :=
      if .onWritable ∈ q.calls.drop stream.q.calls.length then app.schedule id true else app
    -- to the back, round robin
    app.schedule id false

def onStreamBlocked (app : StreamApplication) (id : Nat) : StreamApplication :=
  match app.findStream id with
  | none => app
  | some _ => (app.modify id fun stream => { stream with blocked := true }).unscheduleFront id

def onStreamShutWr (app : StreamApplication) (id : Nat) : StreamApplication :=
  match app.findStream id with
  | none => app
  | some _ =>
    (app.unscheduleFront id).modify id fun stream =>
      { stream with q := stream.q.abortWriting .connectionReset }

end StreamApplication

/-! ### ngtcp2 -/

/-- What `ngtcp2_conn_writev_stream()` returns. `ndatalen` is `none` if it is less than zero. -/
inductive Writev
  | packet (nwrite : Nat) (ndatalen : Option Nat)
  | streamDataBlocked
  | streamShutWr
  | streamNotFound
  | writeMore (ndatalen : Option Nat)
  | error (code : Int)
deriving DecidableEq, Repr

/-- `κ` are the states of a connection. -/
structure Ngtcp2 (κ : Type) where
  maxDataLeft : κ → Nat
  /-- What is left of the buffer that the packet is written to. -/
  room : κ → Nat
  writev : κ → Option StreamData → κ × Writev

variable {κ : Type}

/-- Something about a stream is said only where there is one, and more can be written only where
something has been. -/
structure Ngtcp2.Promises (api : Ngtcp2 κ) : Prop where
  blocked : ∀ k data k', api.writev k data = (k', .streamDataBlocked) → data ≠ none
  shutWr : ∀ k data k', api.writev k data = (k', .streamShutWr) → data ≠ none
  notFound : ∀ k data k', api.writev k data = (k', .streamNotFound) → data ≠ none
  more : ∀ k data k' n, api.writev k data = (k', .writeMore n) → api.room k' < api.room k
  /-- What has been used of the buffer stays used. -/
  room : ∀ k data, api.room (api.writev k data).1 ≤ api.room k

/-! ### A packet -/

inductive Packed
  | packet (nwrite : Nat)
  | callbackFailure (code : Int)
deriving DecidableEq, Repr

/-- `write_pkt()`, at the top of its loop. -/
structure QuicSession (κ : Type) where
  app : StreamApplication
  conn : Option κ
  closed : Bool := false
  applicationReady : Bool := true
  shutDownStream : Option Nat := none

namespace QuicSession

/-- What the application has to send, if anything can be sent. -/
def offer (api : Ngtcp2 κ) (p : QuicSession κ) (conn : κ) : StreamApplication × Option StreamData :=
  if p.applicationReady = true ∧ 0 < api.maxDataLeft conn then p.app.nextStreamData
  else (p.app, none)

/-- The application is told about the stream it has named. -/
def tell (p : QuicSession κ) (data : Option StreamData)
    (f : StreamApplication → StreamData → StreamApplication) : QuicSession κ :=
  match data with
  | none => p
  | some data => { p with app := f p.app data }

/-- The FIN goes out with the last of the data, so only if all of it went into the packet. -/
def written (p : QuicSession κ) (data : Option StreamData) (ndatalen : Option Nat) :
    QuicSession κ :=
  match ndatalen with
  | none => p
  | some n =>
    p.tell data fun app data =>
      app.onStreamDataWritten data.id n (data.fin && n == vecLen data.vecs)

/-- What is made of the result of `ngtcp2_conn_writev_stream()`. -/
def handle (p : QuicSession κ) (data : Option StreamData) :
    Writev → QuicSession κ ⊕ (QuicSession κ × Packed)
  | .streamDataBlocked => .inl (p.tell data fun app data => app.onStreamBlocked data.id)
  | .streamShutWr => .inl (p.tell data fun app data => app.onStreamShutWr data.id)
  | .streamNotFound =>
    match data with
    | none => .inr (p, .packet 0)
    | some data =>
      if p.shutDownStream = some data.id then .inr (p, .packet 0)
      else
        .inl { p with
          app := (p.app.onStreamShutWr data.id).onStreamBlocked data.id
          shutDownStream := some data.id }
  | .writeMore ndatalen => .inl (p.written data ndatalen)
  | .error code => .inr (p, .callbackFailure code)
  | .packet nwrite ndatalen => .inr (p.written data ndatalen, .packet nwrite)

/-- One pass of the loop. -/
def pass (api : Ngtcp2 κ) (p : QuicSession κ) : QuicSession κ ⊕ (QuicSession κ × Packed) :=
  match p.conn with
  | none => .inr (p, .packet 0)
  | some conn =>
    if p.closed then .inr (p, .packet 0)
    else
      let offer := p.offer api conn
      let answer := api.writev conn offer.2
      handle { p with app := offer.1, conn := some answer.1 } offer.2 answer.2

end QuicSession

end AnyHttp.Quic.Packing
