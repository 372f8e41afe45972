import AnyHttp.H2.Stream
import AnyHttp.Lib.Window

/-!
# The bodies on an HTTP/2 connection

A connection with a session of this repository at either end, in one direction: the bodies of all
requests, or of all responses.  Each stream has an end that sends its body and one that receives it,
both of them an `NGHttp2Stream`; all of them share the connection that carries the DATA frames, in
order.

What the sessions do here is in the callbacks: those that nghttp2 gets a body from, and
`on_data_chunk_recv_callback()`, or `on_recv_data()` with version 2, which gives the credit of the
connection back at once.  That of a stream is given back by `call_read_handler()`.  Of nghttp2, the
model has flow control (RFC 9113, section 5.2), that it puts the bytes it has been given into frames
in order, and END_STREAM behind the last of them.  Everything else may happen to a stream at any
time, in particular its close.
-/

namespace AnyHttp.H2

open Lib

/-- What a DATA frame carries. Both, the bytes and the flag, is the one and then the other. -/
inductive Payload
  | bytes (data : List UInt8)
  | endStream
deriving DecidableEq, Repr

def Payload.data : Payload → List UInt8
  | .bytes data => data
  | .endStream => []

/-- What nghttp2 reports when it arrives. -/
def Payload.event : Payload → Action
  | .bytes data => .onData data
  | .endStream => .onEof

/-- Data is taken by nghttp2 in this step. -/
def Action.takes : Action → Bool
  | .producer _ | .dataReader _ | .writeOffset _ => true
  | _ => false

/-- Data, or its end, arrives in this step. -/
def Action.arrives : Action → Bool
  | .onData _ | .onEof => true
  | _ => false

namespace Stream

/-- The session does not know the stream any more, or nghttp2 does not. -/
def gone (m : Stream) : Bool := m.closed || m.destroyed || !m.registered

/-- The credit that has been given back. -/
def extended (m : Stream) : Nat :=
  (m.trace.map fun
    | .consumeStream n => n
    | _ => 0).sum

end Stream

/-- The two ends of a stream, as far as a body goes from the one to the other. -/
structure Lane (maxStreamData : Nat) where
  sender : Stream
  receiver : Stream
  window : Window maxStreamData := .fresh
  /-- END_STREAM has been sent. -/
  ended : Bool := false
deriving DecidableEq

structure Transfer (maxStreamData maxData : Nat) where
  /-- The bodies are those of requests. -/
  requests : Bool
  client : Backend
  server : Backend
  clientMaxHeaderSize : Nat
  serverMaxHeaderSize : Nat
  /-- The streams, in the order of their ids. -/
  lanes : List (Lane maxStreamData) := []
  /-- The DATA frames on their way, and whose they are. -/
  wire : List (Nat × Payload) := []
  window : Window maxData := .fresh
  /-- The credit of the connection that has been given back. -/
  extended : Nat := 0
deriving DecidableEq

namespace Transfer

variable {maxStreamData maxData : Nat}

inductive Action
  /-- A stream is opened. -/
  | streamOpen
  /-- Whatever happens at the one end, or at the other. -/
  | sender (i : Nat) (a : H2.Action)
  | receiver (i : Nat) (a : H2.Action)
  /-- Version 1 calls `producer_callback()`, and sends what it gets. -/
  | produce (i length : Nat)
  /-- Version 2 calls `data_reader()`. -/
  | ask (i veccnt : Nat)
  /-- It sends some of what it has got, and tells `on_write_offset()`. -/
  | transmit (i len : Nat)
  | endStream (i : Nat)
  /-- The next frame arrives. -/
  | deliver
  /-- Credit arrives, for a stream or for the connection. -/
  | windowUpdate (i n : Nat)
  | connectionUpdate (n : Nat)
deriving DecidableEq, Repr

/-- A stream that has just been opened. -/
def newLane (s : Transfer maxStreamData maxData) : Lane maxStreamData :=
  let client := Stream.client s.client s.clientMaxHeaderSize
  let server := Stream.server s.server s.serverMaxHeaderSize
  if s.requests then { sender := client, receiver := server }
  else { sender := server, receiver := client }

def setLane (s : Transfer maxStreamData maxData) (i : Nat) (l : Lane maxStreamData) :
    Transfer maxStreamData maxData :=
  { s with lanes := s.lanes.set i l }

/-- Data is sent as far as the windows are open. Without any, there is no frame. -/
def send (s : Transfer maxStreamData maxData) (i : Nat) (l : Lane maxStreamData)
    (data : List UInt8) : Option (Transfer maxStreamData maxData) :=
  if h : data.length ≤ l.window.room ∧ data.length ≤ s.window.room then
    some { s.setLane i { l with window := l.window.spend data.length h.1 } with
      wire := if data = [] then s.wire else s.wire ++ [(i, .bytes data)]
      window := s.window.spend data.length h.2 }
  else none

def deliver (s : Transfer maxStreamData maxData) : Option (Transfer maxStreamData maxData) :=
  match s.wire with
  | [] => none
  | (i, payload) :: wire =>
    -- the credit of the connection comes back with or without a stream
    let s := { s with wire := wire, extended := s.extended + payload.data.length }
    s.lanes[i]?.bind fun l =>
      if l.receiver.gone then some s
      else (l.receiver.step payload.event).map fun m => s.setLane i { l with receiver := m }

def step (s : Transfer maxStreamData maxData) : Action → Option (Transfer maxStreamData maxData)
  | .streamOpen => some { s with lanes := s.lanes ++ [s.newLane] }
  | .sender i a =>
    if a.takes then none
    else s.lanes[i]?.bind fun l =>
      (l.sender.step a).map fun m => s.setLane i { l with sender := m }
  | .receiver i a =>
    if a.arrives then none
    else s.lanes[i]?.bind fun l =>
      (l.receiver.step a).map fun m => s.setLane i { l with receiver := m }
  | .produce i length =>
    s.lanes[i]?.bind fun l =>
      (l.sender.step (.producer length)).bind fun m =>
        s.send i { l with sender := m } (m.handed.drop l.window.sent)
  | .ask i veccnt =>
    s.lanes[i]?.bind fun l =>
      (l.sender.step (.dataReader veccnt)).map fun m => s.setLane i { l with sender := m }
  | .transmit i len =>
    s.lanes[i]?.bind fun l =>
      (l.sender.step (.writeOffset len)).bind fun m =>
        s.send i { l with sender := m } ((m.handed.drop l.window.sent).take len)
  | .endStream i =>
    s.lanes[i]?.bind fun l =>
      if l.ended = false ∧ l.sender.ended = some l.window.sent then
        some { s.setLane i { l with ended := true } with wire := s.wire ++ [(i, .endStream)] }
      else none
  | .deliver => s.deliver
  | .windowUpdate i n =>
    s.lanes[i]?.bind fun l =>
      if l.window.granted + n ≤ l.receiver.extended then
        some (s.setLane i { l with window := l.window.grant n })
      else none
  | .connectionUpdate n =>
    if s.window.granted + n ≤ s.extended then some { s with window := s.window.grant n } else none

/-- A connection that has just been established. -/
def init (requests : Bool) (client server : Backend)
    (clientMaxHeaderSize serverMaxHeaderSize : Nat) : Transfer maxStreamData maxData :=
  { requests := requests
    client := client
    server := server
    clientMaxHeaderSize := clientMaxHeaderSize
    serverMaxHeaderSize := serverMaxHeaderSize }

end Transfer

end AnyHttp.H2
