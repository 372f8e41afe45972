import AnyHttp.H1.Writer
import AnyHttp.Lib.Run

/-!
# The HTTP/1.1 server session

`ServerSession::do_session`, the readers and writers it hands to the request handler, and the
connection they share.  What happens next is up to the peer, the handlers and the runtime: an
`Action` is one step of any of them, and `step` says whether it is possible and what it leads to.

The incoming bytes are a `stream`, consumed through the one buffer of the session.  Beast's parser
is a parameter, an automaton that is fed byte by byte.  `readers` and `writers` are all there have
been, in order, so that the `i`-th request has reader `i` and writer `i`; a response the session
writes on its own (431 or 101) takes the place of the one a handler would have written.
-/

namespace AnyHttp.H1

/-- What the code uses of Beast's parser. -/
structure Parser (P : Type*) where
  init : P
  next : P → UInt8 → P
  /-- `is_header_done()` -/
  headerDone : P → Bool
  /-- `is_done()` -/
  done : P → Bool
  /-- `get().need_eof()` -/
  needEof : P → Bool
  /-- `h2c_upgrade()`: the request asks for an upgrade to h2c that can be granted. -/
  upgrade : P → Bool

/-- `BeastReader`, as far as the session and the connection are concerned. -/
structure Reader (P : Type*) where
  /-- `session` is set. -/
  attached : Bool := true
  /-- The user has not released it. -/
  held : Bool := true
  parser : P
  /-- An operation of it is in progress. -/
  reading : Bool := false
  /-- Where on the incoming stream it starts. -/
  start : Nat
  /-- The number of bytes it has consumed. -/
  consumed : Nat := 0
deriving DecidableEq, Repr

namespace Reader

variable {P : Type*}

def detach (r : Reader P) : Reader P := { r with attached := false }

/-- The parser takes another byte from the buffer. -/
def receive (π : Parser P) (r : Reader P) (byte : UInt8) : Reader P :=
  { r with parser := π.next r.parser byte, consumed := r.consumed + 1 }

end Reader

/-- Where `do_session` is. -/
inductive Phase
  /-- It reads the header of the next request. -/
  | waiting
  /-- It has called the request handler. -/
  | handling (needEof : Bool)
  /-- It writes its last words: a 431 response, or a 101 for an upgrade. -/
  | farewell (upgrade : Bool)
  | isOver
deriving DecidableEq, Repr

structure Server (P : Type*) where
  /-- `closed_` -/
  closed : Bool := false
  /-- Nothing can be sent on the connection any more. -/
  shut : Bool := false
  phase : Phase
  readers : List (Reader P)
  writers : List Writer := []
  /-- How far the incoming stream has been consumed. -/
  cursor : Nat := 0
  /-- For each byte consumed, the reader that did. -/
  taken : List Nat := []
  /-- What has been sent on the connection. -/
  wire : List UInt8 := []
deriving DecidableEq, Repr

/-- What a server session depends on. -/
structure Context (P : Type*) where
  beast : Beast
  parser : Parser P
  /-- What the peer sends. -/
  stream : Nat → UInt8
  /-- `server().alt_svc()` -/
  altSvc : List Char

inductive Action
  /-- Reader `i`, with an operation in progress, consumes the next byte. -/
  | receive (i : Nat)
  | readSome (i : Nat)
  | readDone (i : Nat)
  /-- The user releases request `i`: by `reset()` or the destructor, which call `destroy()`, or by
  assigning another one to the handle, which does not. -/
  | releaseReader (i : Nat) (destroy : Bool)
  /-- The header of the next request is there. -/
  | takeUp
  /-- The header could not be read, in case of `limit` as it is too large. -/
  | reject (limit : Bool)
  | handlerReturn
  | handlerThrow
  | contentLength (i : Nat) (n : Option Nat)
  | submit (i : Nat) (status : Nat) (headers : Fields) (date : List Char)
  | write (i : Nat) (data : List UInt8) (eof : Bool)
  /-- `n` more bytes of what writer `i` emits have been written. -/
  | emit (i : Nat) (n : Nat)
  | finish (i : Nat) (ec : ErrorCode)
  /-- The session is destroyed by its owner. -/
  | destroy
  /-- `end_connection()` -/
  | endConnection
  /-- `~BeastSession()` -/
  | gone
deriving DecidableEq, Repr

namespace Server

variable {P : Type*} (Γ : Context P)

/-- The response to a request whose header is too large. -/
def headerTooLarge : Head where
  start := .response 431
  fields :=
    [(.server, "anyhttp".toList), (.connection, "close".toList), (.contentLength, "0".toList)]

/-- The response to a request that is upgraded to h2c. -/
def switchingProtocols : Head where
  start := .response 101
  fields := [(.connection, "Upgrade".toList), (.upgrade, "h2c".toList)]

/-- The response as it is handed to the handler. -/
def freshResponse (needEof : Bool) : Head where
  start := .response 200
  fields :=
    let fields : Fields := Fields.set [] .server "anyhttp".toList
    let fields := if Γ.altSvc = [] then fields else fields.set .altSvc Γ.altSvc
    if needEof then Γ.beast.setClose fields else fields

/-- `ResponseWriter::submit()` up to the header's pass: what the response says by then. -/
def submitted (message : Head) (status : Nat) (headers : Fields) (date : List Char) : Head where
  start := .response status
  fields :=
    (Γ.beast.submitHeaders (message.fields.setDefault .date date) headers).setDefault .server
      "anyhttp".toList

/-- Whether the response says "close", which ends the session. -/
def saysClose (message : Head) (headers : Fields) (date : List Char) : Bool :=
  !Γ.beast.keepAlive (Γ.beast.submitHeaders (message.fields.setDefault .date date) headers)

/-- The reader of the next request. -/
def fresh (s : Server P) : Reader P where
  held := false
  parser := Γ.parser.init
  reading := true
  start := s.cursor

def detachWriters (s : Server P) : Server P := { s with writers := s.writers.map Writer.detach }

def detachReaders (s : Server P) : Server P := { s with readers := s.readers.map Reader.detach }

/-- The top of the loop: on to the next request, unless the session is closed. -/
def loop (s : Server P) : Server P :=
  if s.closed then { s with phase := .isOver }
  else
    -- a reader that is left over can not reach the connection any more
    let s := s.detachReaders
    { s with phase := .waiting, readers := s.readers ++ [s.fresh Γ] }

/-- The session writes a response on its own, the last one. -/
def farewell (s : Server P) (head : Head) (upgrade : Bool) : Server P :=
  { s with
    phase := .farewell upgrade
    writers :=
      s.writers ++ [({ attached := false, message := head : Writer }).writeHead Γ.beast true] }

def init : Server P := loop Γ { phase := .waiting, readers := [] }

/-- Reader `i` is the one of the header the session waits for. -/
def awaits (s : Server P) (i : Nat) : Bool :=
  decide (s.phase = .waiting) && i + 1 == s.readers.length

def receive (s : Server P) (i : Nat) : Option (Server P) :=
  s.readers[i]?.bind fun r =>
    if r.reading && !Γ.parser.done r.parser && !(s.awaits i && Γ.parser.headerDone r.parser) then
      some
        { s with
          readers := s.readers.set i (r.receive Γ.parser (Γ.stream s.cursor))
          cursor := s.cursor + 1
          taken := s.taken ++ [i] }
    else none

/-- `read_some()`, as far as it gets to the connection. -/
def readSome (s : Server P) (i : Nat) : Option (Server P) :=
  s.readers[i]?.bind fun r =>
    if r.held && r.attached && !r.reading && !Γ.parser.done r.parser then
      some { s with readers := s.readers.set i { r with reading := true } }
    else none

def readDone (s : Server P) (i : Nat) : Option (Server P) :=
  s.readers[i]?.bind fun r =>
    if r.reading && !s.awaits i then
      some { s with readers := s.readers.set i { r with reading := false } }
    else none

/-- `BeastReader::destroy()` closes the session if the parser is not done. -/
def releaseReader (s : Server P) (i : Nat) (destroy : Bool) : Option (Server P) :=
  s.readers[i]?.bind fun r =>
    if r.held then
      some
        { s with
          closed := s.closed || (destroy && !Γ.parser.done r.parser && r.attached)
          readers := s.readers.set i { r with held := false } }
    else none

def takeUp (s : Server P) : Option (Server P) :=
  s.readers.getLast?.bind fun r =>
    if s.phase = .waiting ∧ Γ.parser.headerDone r.parser then
      -- an upgrade to h2c, which has to be a request without a body
      if Γ.parser.upgrade r.parser && Γ.parser.done r.parser then
        some (s.farewell Γ switchingProtocols true)
      else
        let needEof := Γ.parser.needEof r.parser
        let s := s.detachWriters
        some
          { s with
            phase := .handling needEof
            readers := s.readers.set (s.readers.length - 1)
              { r with held := true, reading := false }
            writers := s.writers ++ [{ message := freshResponse Γ needEof }] }
    else none

def reject (s : Server P) (limit : Bool) : Option (Server P) :=
  s.readers.getLast?.bind fun r =>
    if s.phase = .waiting ∧ Γ.parser.headerDone r.parser = false then
      some (if limit then s.farewell Γ headerTooLarge false else { s with phase := .isOver })
    else none

def handlerReturn (s : Server P) : Option (Server P) :=
  match s.phase with
  -- the request may have asked for the connection to be closed
  | .handling needEof => some (if needEof then { s with phase := .isOver } else s.loop Γ)
  | _ => none

def handlerThrow (s : Server P) : Option (Server P) :=
  match s.phase with
  | .handling _ => some { s with shut := true, phase := .isOver }
  | _ => none

def contentLength (s : Server P) (i : Nat) (n : Option Nat) : Option (Server P) :=
  s.writers[i]?.bind fun w =>
    some { s with writers := s.writers.set i (w.setContentLength Γ.beast n) }

def submit (s : Server P) (i status : Nat) (headers : Fields) (date : List Char) :
    Option (Server P) :=
  s.writers[i]?.bind fun w =>
    if w.writing.isSome then none
    else if !w.attached then some s
    else
      let message := submitted Γ w.message status headers date
      some
        { s with
          closed := s.closed || saysClose Γ w.message headers date
          writers := s.writers.set i ({ w with message := message }.writeHead Γ.beast false) }

def write (s : Server P) (i : Nat) (data : List UInt8) (eof : Bool) : Option (Server P) :=
  s.writers[i]?.bind fun w =>
    if w.writing.isSome then none
    else if (w.answer data eof).isSome then some s
    else some { s with writers := s.writers.set i (w.write Γ.beast data eof) }

def emit (s : Server P) (i n : Nat) : Option (Server P) :=
  s.writers[i]?.bind fun w => w.writing.bind fun p =>
    if s.shut then none
    else some { s with writers := s.writers.set i (w.emit p n), wire := s.wire ++ p.rest.take n }

/-- Where the session is after writer `i` has finished a pass. -/
def phaseAfter (s : Server P) (i : Nat) : Phase :=
  match s.phase with
  | .farewell upgrade => if i + 1 = s.writers.length then .isOver else .farewell upgrade
  | phase => phase

/-- Whether writer `i` has finished the last thing that HTTP/1.1 has to say: a write was cancelled,
or the connection is HTTP/2's now. -/
def shutAfter (s : Server P) (i : Nat) (w : Writer) (p : Pass) (ec : ErrorCode) : Bool :=
  s.shut || (!p.head && decide (ec = .canceled) && w.attached) ||
    (decide (s.phase = .farewell true) && i + 1 == s.writers.length)

/-- The end of a pass of writer `i`. A response that could not be written closes the session. -/
def finish (s : Server P) (i : Nat) (ec : ErrorCode) : Option (Server P) :=
  s.writers[i]?.bind fun w => w.writing.bind fun p =>
    if ec = .success ∧ p.rest ≠ [] then none
    else
      some
        { s with
          closed := s.closed || (w.attached && decide (ec ≠ .success))
          shut := s.shutAfter i w p ec
          phase := s.phaseAfter i
          writers := s.writers.set i (w.finish p ec) }

def destroy (s : Server P) : Server P := { s with closed := true, shut := true }

def endConnection (s : Server P) : Option (Server P) :=
  if s.phase = .isOver then some { s with shut := true } else none

def gone (s : Server P) : Option (Server P) :=
  if s.phase = .isOver then some s.detachWriters.detachReaders else none

def step (s : Server P) : Action → Option (Server P)
  | .receive i => s.receive Γ i
  | .readSome i => s.readSome Γ i
  | .readDone i => s.readDone i
  | .releaseReader i destroy => s.releaseReader Γ i destroy
  | .takeUp => s.takeUp Γ
  | .reject limit => s.reject Γ limit
  | .handlerReturn => s.handlerReturn Γ
  | .handlerThrow => s.handlerThrow
  | .contentLength i n => s.contentLength Γ i n
  | .submit i status headers date => s.submit Γ i status headers date
  | .write i data eof => s.write Γ i data eof
  | .emit i n => s.emit i n
  | .finish i ec => s.finish i ec
  | .destroy => some s.destroy
  | .endConnection => s.endConnection
  | .gone => s.gone

end Server

/-! ### With plain requests -/

def Parser.plain : Parser PlainParser where
  init := .header []
  next := PlainParser.next
  headerDone := PlainParser.inBody
  done p := decide (p = .body 0)
  needEof _ := false
  upgrade _ := false

/-- A server without an `Alt-Svc`, and a peer that sends `input`. -/
def Context.plain (input : List UInt8) : Context PlainParser where
  beast := .plain
  parser := .plain
  stream n := input.getD n 0
  altSvc := []

end AnyHttp.H1
