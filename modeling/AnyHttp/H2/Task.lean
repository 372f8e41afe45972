import AnyHttp.H2.Duplex
import AnyHttp.RequestHandlers

/-!
# A coroutine on an HTTP/2 connection

One end of one stream of a connection is used by a coroutine, which may be a request handler at the
server, or read a response at the client: it begins one operation at a time, and is resumed once
that has completed, be it in the middle of what completes it.  Nobody else reads or writes there,
but everything else may happen at any time, there and on the rest of the connection (`Duplex`).

What comes of the submission of a header is left to the environment: nothing of the body depends on
it but whether the coroutine goes on.
-/

namespace AnyHttp.H2

open Lib

/-- The user reads or writes. -/
def Action.uses : Action → Bool
  | .asyncReadSome _ _ | .asyncWrite _ _ _ => true
  | _ => false

/-- How an operation is begun. -/
def begins : Op → Option Action
  | .submit _ _ => none
  | .readSome size => some (.asyncReadSome ⟨0, none⟩ size)
  | .write buffer => some (.asyncWrite ⟨0, none⟩ buffer false)
  | .writeEof buffer => some (.asyncWrite ⟨0, none⟩ buffer true)

namespace Stream

/-- What a call answers a read with. -/
def readReply : Call → Option OpResult
  | .completeRead _ _ ec _ bytes => some { ec := ec, bytes := bytes }
  | _ => none

def readReplies (m : Stream) : List OpResult := m.trace.filterMap readReply

/-- What a write is answered with right away. -/
def refuses (m : Stream) : Op → Option ErrorCode
  | .write buffer => m.writeAnswer buffer false
  | .writeEof buffer => m.writeAnswer buffer true
  | _ => none

/-- What the operation that has been begun last has completed with, if it has. -/
def reply (m : Stream) (refused : Option ErrorCode) : Op → Option OpResult
  | .submit _ _ => none
  -- a read that has been answered is not waiting any more
  | .readSome _ => if m.rx.readHandler.isNone then m.readReplies.getLast? else none
  | .write _ | .writeEof _ =>
    -- refused, or completed later
    (refused.or (m.writes.getLast?.bind WriteRec.result)).map fun ec => { ec := ec }

end Stream

/-- A coroutine, and what it has done so far. -/
structure Task (σ : Type) where
  state : σ
  /-- The operation that it waits for has been begun, and what it has been refused with, if it
  has. -/
  begun : Option (Option ErrorCode) := none
  dialogue : List (Op × OpResult) := []
deriving DecidableEq

namespace Task

variable {σ : Type} (C : Coroutine Op OpResult σ)

def begin (t : Task σ) (m : Stream) : Option (Task σ × Stream) :=
  if t.begun.isSome then none
  else (C.next t.state).bind fun op =>
    (begins op).bind fun a =>
      (m.step a).map fun m' => ({ t with begun := some (m.refuses op) }, m')

/-- The answer to `op` has arrived. -/
def answered (t : Task σ) (op : Op) (answer : OpResult) : Task σ :=
  { state := C.resume t.state answer, dialogue := t.dialogue ++ [(op, answer)] }

def resume (t : Task σ) (m : Stream) : Option (Task σ) :=
  t.begun.bind fun refused =>
    (C.next t.state).bind fun op => (m.reply refused op).map fun answer => t.answered C op answer

/-- The header has been submitted, or could not be. -/
def submitted (t : Task σ) (ec : ErrorCode) : Option (Task σ) :=
  (C.next t.state).bind fun op =>
    if (begins op).isNone then some (t.answered C op { ec := ec }) else none

end Task

structure Service (σ : Type) (maxStreamData maxData : Nat) where
  duplex : Duplex maxStreamData maxData
  /-- The stream, and the end of it. -/
  i : Nat
  client : Bool
  task : Task σ
deriving DecidableEq

namespace Service

variable {σ : Type} {maxStreamData maxData : Nat} (C : Coroutine Op OpResult σ)

inductive Action
  | connection (a : Duplex.Action)
  | begin
  | resume
  | submitted (ec : ErrorCode)
deriving DecidableEq, Repr

/-- The coroutine is the only one that reads or writes at its end. -/
def interferes (s : Service σ maxStreamData maxData) : Duplex.Action → Bool
  | .side client i a => decide (client = s.client ∧ i = s.i) && a.uses
  | _ => false

def step (s : Service σ maxStreamData maxData) :
    Action → Option (Service σ maxStreamData maxData)
  | .connection a =>
    if s.interferes a then none else (s.duplex.step a).map fun d => { s with duplex := d }
  | .begin =>
    s.duplex.lines[s.i]?.bind fun l =>
      (s.task.begin C (l.side s.client)).map fun (t, m) =>
        { s with task := t, duplex := s.duplex.setLine s.i (l.withSide s.client m) }
  | .resume =>
    s.duplex.lines[s.i]?.bind fun l =>
      (s.task.resume C (l.side s.client)).map fun t => { s with task := t }
  | .submitted ec =>
    -- there is no coroutine without its stream
    s.duplex.lines[s.i]?.bind fun _ =>
      (s.task.submitted C ec).map fun t => { s with task := t }

/-- A connection that has just been established, where `state` waits for stream `i`. -/
def init (client server : Backend) (clientMaxHeaderSize serverMaxHeaderSize : Nat) (i : Nat)
    (atClient : Bool) (state : σ) : Service σ maxStreamData maxData :=
  { duplex := Duplex.init client server clientMaxHeaderSize serverMaxHeaderSize
    i := i
    client := atClient
    task := { state := state } }

end Service

end AnyHttp.H2
