import AnyHttp.H2.Transfer

/-!
# Requests and responses on an HTTP/2 connection

Both directions of a connection at once.  A stream has one end at the client, which sends the body
of the request and receives that of the response, and one at the server, where it is the other way
round; each direction has flow control and DATA frames of its own (`Transfer`).
-/

namespace AnyHttp.H2

open Lib

/-- One direction of a stream. -/
structure Half (maxStreamData : Nat) where
  window : Window maxStreamData := .fresh
  /-- END_STREAM has been sent. -/
  ended : Bool := false
deriving DecidableEq

/-- A stream, from end to end. -/
structure Line (maxStreamData : Nat) where
  client : Stream
  server : Stream
  request : Half maxStreamData := {}
  response : Half maxStreamData := {}
deriving DecidableEq

/-- One direction of the connection. -/
structure Direction (maxData : Nat) where
  wire : List (Nat × Payload) := []
  window : Window maxData := .fresh
  extended : Nat := 0
deriving DecidableEq

structure Duplex (maxStreamData maxData : Nat) where
  client : Backend
  server : Backend
  clientMaxHeaderSize : Nat
  serverMaxHeaderSize : Nat
  /-- The streams, in the order of their ids. -/
  lines : List (Line maxStreamData) := []
  requests : Direction maxData := {}
  responses : Direction maxData := {}
deriving DecidableEq

variable {maxStreamData maxData : Nat}

namespace Line

/-- The end of the stream at the client, or at the server. -/
def side (l : Line maxStreamData) (client : Bool) : Stream := if client then l.client else l.server

def withSide (l : Line maxStreamData) (client : Bool) (m : Stream) : Line maxStreamData :=
  if client then { l with client := m } else { l with server := m }

/-- The direction of the request, or of the response. -/
def lane (l : Line maxStreamData) (requests : Bool) : Lane maxStreamData :=
  let half := if requests then l.request else l.response
  { sender := l.side requests
    receiver := l.side !requests
    window := half.window
    ended := half.ended }

def withLane (l : Line maxStreamData) (requests : Bool) (k : Lane maxStreamData) :
    Line maxStreamData :=
  let half : Half maxStreamData := { window := k.window, ended := k.ended }
  if requests then { l with client := k.sender, server := k.receiver, request := half }
  else { l with client := k.receiver, server := k.sender, response := half }

end Line

namespace Duplex

/-- All that matters to the requests, or to the responses. -/
def view (s : Duplex maxStreamData maxData) (requests : Bool) : Transfer maxStreamData maxData :=
  let direction := if requests then s.requests else s.responses
  { requests := requests
    client := s.client
    server := s.server
    clientMaxHeaderSize := s.clientMaxHeaderSize
    serverMaxHeaderSize := s.serverMaxHeaderSize
    lanes := s.lines.map fun l => l.lane requests
    wire := direction.wire
    window := direction.window
    extended := direction.extended }

/-- What has become of it, for the same streams. -/
def withView (s : Duplex maxStreamData maxData) (requests : Bool)
    (v : Transfer maxStreamData maxData) : Duplex maxStreamData maxData :=
  let lines := List.zipWith (fun l k => l.withLane requests k) s.lines v.lanes
  let direction : Direction maxData :=
    { wire := v.wire, window := v.window, extended := v.extended }
  if requests then { s with lines := lines, requests := direction }
  else { s with lines := lines, responses := direction }

inductive Action
  /-- A stream is opened. -/
  | streamOpen
  /-- Whatever happens at the one end, or at the other. -/
  | side (client : Bool) (i : Nat) (a : H2.Action)
  /-- What a connection does in one direction. -/
  | transport (requests : Bool) (a : Transfer.Action)
deriving DecidableEq, Repr

def isTransport : Transfer.Action → Bool
  | .streamOpen | .sender _ _ | .receiver _ _ => false
  | _ => true

/-- A stream that has just been opened. -/
def newLine (s : Duplex maxStreamData maxData) : Line maxStreamData :=
  { client := Stream.client s.client s.clientMaxHeaderSize
    server := Stream.server s.server s.serverMaxHeaderSize }

def setLine (s : Duplex maxStreamData maxData) (i : Nat) (l : Line maxStreamData) :
    Duplex maxStreamData maxData :=
  { s with lines := s.lines.set i l }

def step (s : Duplex maxStreamData maxData) : Action → Option (Duplex maxStreamData maxData)
  | .streamOpen => some { s with lines := s.lines ++ [s.newLine] }
  | .side client i a =>
    if a.takes || a.arrives then none
    else s.lines[i]?.bind fun l =>
      ((l.side client).step a).map fun m => s.setLine i (l.withSide client m)
  | .transport requests a =>
    if isTransport a then ((s.view requests).step a).map (s.withView requests) else none

/-- A connection that has just been established. -/
def init (client server : Backend) (clientMaxHeaderSize serverMaxHeaderSize : Nat) :
    Duplex maxStreamData maxData :=
  { client := client
    server := server
    clientMaxHeaderSize := clientMaxHeaderSize
    serverMaxHeaderSize := serverMaxHeaderSize }

end Duplex

end AnyHttp.H2
