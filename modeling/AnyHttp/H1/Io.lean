import AnyHttp.H1.Message
import AnyHttp.Lib.Incremental
import AnyHttp.Lib.Loop
import Mathlib.Data.ENat.Basic

/-!
# Reading and writing HTTP/1.1 on a stream

The algorithms of `h1/io.hpp`: what has been read from a stream goes through a buffer to Beast's
parser, which takes what it can make something of and says when it needs more.  What a stream brings
is a list of `Incoming`, in the pieces it arrives in.  Beast's `basic_parser` is a parameter, as it
is called here: with pieces of the input, and with some room for the body.

On top of that, `BeastReader.readSome` is what the user of a reader calls for a body.
-/

namespace AnyHttp.H1

/-- `http::error::end_of_stream` -/
def endOfStream : ErrorCode := .other 1

/-- `http::error::buffer_overflow` -/
def bufferOverflow : ErrorCode := .other 7

/-- An error code that counts as an error, and is not the end of a body. -/
abbrev Failure := { ec : ErrorCode // ec ≠ .success ∧ ec ≠ .eof }

/-- `http::error::partial_message`, which comes out as `errors::partial_message`. -/
def partialMessage : Failure := ⟨.partialMessage, by decide⟩

/-- What Beast's parsers and serializers say. -/
inductive Say
  | ok
  | needMore
  | needBuffer
  | error (ec : Failure)
deriving DecidableEq, Repr

/-- The error code that comes out: `need_buffer` is what these are called to get to. -/
def Say.toErrorCode : Say → ErrorCode
  | .error ec => ec.val
  | _ => .success

/-- What the code uses of Beast's parsers. -/
structure BasicParser (P : Type*) where
  /-- `put()`, with room for so many bytes in the body buffer. -/
  put : P → Nat → List UInt8 → Lib.Taken P UInt8 × Say
  putEof : P → P × Say
  gotSome : P → Bool
  isHeaderDone : P → Bool
  isDone : P → Bool

/-- What happens to a reader of a stream. -/
inductive Incoming
  | bytes (data : List UInt8)
  | eof
  /-- Over TLS, the connection ends without a "close_notify". -/
  | truncated
  | error (ec : Failure)
  /-- The session lets go of the reader. -/
  | detach
deriving DecidableEq, Repr

/-- The parser, the buffer it reads from, and the body buffer. -/
structure Input (P : Type*) where
  parser : P
  buffer : List UInt8 := []
  /-- What is left of the body buffer. -/
  room : Nat := 0
  /-- What has been stored in it. -/
  payload : List UInt8 := []
  parsed : Nat := 0
  /-- `session` is set. -/
  attached : Bool := true
deriving DecidableEq, Repr

/-- The body buffer of a new read. -/
def Input.fresh {P : Type*} (s : Input P) (size : Nat) : Input P :=
  { s with room := size, payload := [] }

structure Outcome (P : Type*) where
  ec : ErrorCode
  input : Input P
  /-- What is still to come from the stream. -/
  incoming : List Incoming
deriving DecidableEq, Repr

namespace BasicParser

variable {P : Type*} (β : BasicParser P) (maxSize : Nat)

/-- The parser gets what the buffer holds. -/
def feed (s : Input P) : Input P × Say :=
  let r := β.put s.parser s.room s.buffer
  ({ s with
      parser := r.1.parser
      buffer := s.buffer.drop r.1.used
      room := s.room - r.1.payload.length
      payload := s.payload ++ r.1.payload
      parsed := s.parsed + r.1.used }, r.2)

/-- The end of the stream, which the caller sees again with the next read. -/
def atEof (s : Input P) (incoming : List Incoming) : Outcome P :=
  if β.gotSome s.parser then
    let r := β.putEof s.parser
    ⟨r.2.toErrorCode, { s with parser := r.1 }, incoming⟩
  else ⟨endOfStream, s, incoming⟩

/-- The loop of `read_some()` from where it reads; `none` if it waits for the peer. -/
def fill : List Incoming → Input P → Option (Outcome P) := fun incoming s =>
  -- the buffer is full, and the parser wants more
  if maxSize ≤ s.buffer.length then some ⟨bufferOverflow, s, incoming⟩
  else
    match incoming with
    | [] => none
    -- the session lets go of the reader while it waits
    | .detach :: rest => fill rest { s with attached := false }
    | .bytes data :: rest =>
      let r := β.feed { s with buffer := s.buffer ++ data }
      if r.2 = .needMore then fill rest r.1 else some ⟨r.2.toErrorCode, r.1, rest⟩
    | .eof :: rest => some (β.atEof s (.eof :: rest))
    | .truncated :: rest =>
      some ⟨if β.gotSome s.parser then .partialMessage else endOfStream, s, .truncated :: rest⟩
    | .error ec :: rest => some ⟨ec.val, s, rest⟩

/-- `read_some()` -/
def readSome (incoming : List Incoming) (s : Input P) : Option (Outcome P) :=
  -- the parser is not asked before there is data
  if s.buffer = [] then β.fill maxSize incoming s
  else
    let r := β.feed s
    if r.2 = .needMore then β.fill maxSize incoming r.1
    else some ⟨r.2.toErrorCode, r.1, incoming⟩

/-- One pass of `read_header()`. -/
def readPass (s : Input P × List Incoming) : (Input P × List Incoming) ⊕ Option (Outcome P) :=
  if β.isHeaderDone s.1.parser then .inr (some ⟨.success, s.1, s.2⟩)
  else
    match β.readSome maxSize s.2 s.1 with
    | none => .inr none
    | some o =>
      if o.ec = .success then .inl (o.input, o.incoming)
      -- the size of the header is the sum of the passes that have succeeded
      else .inr (some { o with input := { o.input with parsed := s.1.parsed } })

/-- `read_header()`, for at most `fuel` passes. -/
def readHeader (fuel : Nat) (incoming : List Incoming) (s : Input P) :
    Option (Option (Outcome P)) :=
  Lib.iterate (β.readPass maxSize) fuel (s, incoming)

end BasicParser

/-! ### Reading a body -/

namespace BeastReader

variable {P : Type*} (β : BasicParser P) (maxSize : Nat)

/-- One round of `read_some()`, with a body buffer of `size` bytes. -/
def readPass (size : Nat) (s : Input P × List Incoming) :
    (Input P × List Incoming) ⊕ Option (Outcome P) :=
  match β.readSome maxSize s.2 (s.1.fresh size) with
  | none => .inr none
  | some o =>
    if o.ec = .success ∧ o.input.payload = [] then
      if β.isDone o.input.parser then .inr (some { o with ec := .eof })
      else if !o.input.attached then .inr (some { o with ec := .partialMessage })
      else .inl (o.input, o.incoming)
    else .inr (some o)

/-- `read_some()` of a reader, for at most `fuel` rounds. -/
def readSome (fuel size : Nat) (incoming : List Incoming) (s : Input P) :
    Option (Option (Outcome P)) :=
  if size = 0 then some (some ⟨.success, s.fresh size, incoming⟩)
  else if β.isDone s.parser then some (some ⟨.eof, s.fresh size, incoming⟩)
  else if !s.attached then some (some ⟨.partialMessage, s.fresh size, incoming⟩)
  else Lib.iterate (readPass β maxSize size) fuel (s, incoming)

/-- What a caller has got that reads until there is an error. -/
structure BodyRead (P : Type*) where
  data : List UInt8
  /-- The last error code, unless the last read still waits for the peer. -/
  ec : Option ErrorCode
  input : Input P
  incoming : List Incoming
deriving DecidableEq, Repr

/-- A caller that reads with body buffers of these sizes, as long as there is no error. -/
def readAll (fuel : Nat) : List Nat → List Incoming → Input P → Option (BodyRead P)
  | [], incoming, s => some ⟨[], some .success, s, incoming⟩
  | size :: sizes, incoming, s =>
    (readSome β maxSize fuel size incoming s).bind fun
      | none => some ⟨[], none, s, incoming⟩
      | some o =>
        if o.ec = .success then
          (readAll fuel sizes o.incoming o.input).map fun b =>
            { b with data := o.input.payload ++ b.data }
        else some ⟨o.input.payload, some o.ec, o.input, o.incoming⟩

end BeastReader

/-! ### What a parser is expected to do -/

/-- How a part of a message stops: it is done, or invalid. -/
inductive Verdict
  | done
  | failed (ec : Failure)
deriving DecidableEq, Repr

/-- What the code relies on when it calls a parser for the header of a message, or for all of it.

An automaton says what such a part is, byte by byte.  The parser keeps back what it cannot make
something of yet, say a line that is not complete, and takes of the others what the automaton would
take; it asks for more only where the part is not done.  What is invalid, it need not notice when
the automaton does: it may wait for the end of a line or of the header first, so that it depends on
how the bytes are cut when it says so, and with which error.  What is not shorter than `limit`, it
may refuse.  The end of the stream only ends messages that have no other end. -/
structure BasicParser.Parses {P Q : Type*} (β : BasicParser P)
    (A : Lib.Transducer Q UInt8 UInt8 Verdict) (view : P → Q) (done : P → Bool)
    (endsWithStream : Q → Bool) (limit : P → ℕ∞) : Prop where
  takes : ∀ p room xs, A.stop (view p) = none → (∀ ec, (β.put p room xs).2 ≠ .error ec) →
    Lib.Takes A view p xs (β.put p room xs).1
  room : ∀ p room xs, (β.put p room xs).1.payload.length ≤ room
  gotSome : ∀ p room xs,
    β.gotSome (β.put p room xs).1.parser = true ↔ β.gotSome p = true ∨ xs ≠ []
  /-- What has been taken counts for the limit, if the parser counts it. -/
  counts : ∀ p room xs, (∀ ec, (β.put p room xs).2 ≠ .error ec) →
    limit p ≤ limit (β.put p room xs).1.parser + (β.put p room xs).1.used
  stop_done : ∀ p, A.stop (view p) = some .done ↔ done p = true
  needMore : ∀ p room xs, A.stop (view p) = none → (β.put p room xs).2 = .needMore →
    A.stop (view (β.put p room xs).1.parser) = none ∧ A.Avoids .done (view p) xs ∧
      (endsWithStream (view (β.put p room xs).1.parser) = true →
        (β.put p room xs).1.used = xs.length) ∧
      (A.Open (view p) xs → endsWithStream (A.feed (view p) xs) = true →
        (β.put p room xs).1.used = xs.length)
  ok : ∀ p room xs, A.stop (view p) = none → (β.put p room xs).2 ≠ .needMore →
    (β.put p room xs).2.toErrorCode = .success →
      (∀ ec, A.stop (view (β.put p room xs).1.parser) ≠ some (.failed ec)) ∧
        (xs ≠ [] → (β.put p room xs).1.used ≠ 0 ∨
          A.stop (view (β.put p room xs).1.parser) = some .done ∨
          (β.put p room xs).2 = .needBuffer ∧ room = 0)
  error : ∀ p room xs ec, A.stop (view p) = none → (β.put p room xs).2 = .error ec →
    (β.put p room xs).1.payload <+: A.output (view p) (A.upToStop (view p) xs) ∧
      ((∃ n ec', A.firstStop (view p) xs = some (n, .failed ec')) ∨
        limit p ≤ xs.length ∧ ∀ n, A.firstStop (view p) xs = some (n, .done) → limit p ≤ n)
  putEof : ∀ p, A.stop (view p) = none →
    (β.putEof p).2 = (if endsWithStream (view p) then .ok else .error partialMessage) ∧
      (endsWithStream (view p) = true → done (β.putEof p).1 = true)

/-! ### With plain messages

What Beast's parser does with requests whose last header field, if it is `Content-Length`, is the
length of their body: it takes the header as a whole. -/

/-- The plain parser, and whether it has got something. -/
structure PlainState where
  at_ : PlainParser
  got : Bool := false
deriving DecidableEq, Repr

namespace PlainState

/-- The number of bytes up to the end of the header, and the state behind it. -/
def header : PlainParser → List UInt8 → Option (Nat × PlainParser)
  | .body left, _ => some (0, .body left)
  | .header _, [] => none
  | .header seen, c :: cs =>
    (header (PlainParser.next (.header seen) c) cs).map fun r => (r.1 + 1, r.2)

def put (p : PlainState) (room : Nat) (xs : List UInt8) : Lib.Taken PlainState UInt8 × Say :=
  let got := p.got || decide (xs ≠ [])
  match p.at_ with
  | .header seen =>
    match header (.header seen) xs with
    | none => (⟨⟨.header seen, got⟩, 0, []⟩, .needMore)
    | some (n, q) => (⟨⟨q, got⟩, n, []⟩, .ok)
  | .body left =>
    let n := min left (min room xs.length)
    (⟨⟨.body (left - n), got⟩, n, xs.take n⟩, if n < xs.length ∧ n < left then .needBuffer else .ok)

end PlainState

def BasicParser.plain : BasicParser PlainState where
  put := PlainState.put
  putEof p := (p, if p.at_ = .body 0 then .ok else .error partialMessage)
  gotSome := PlainState.got
  isHeaderDone p := p.at_.inBody
  isDone p := decide (p.at_ = .body 0)

/-- The plain parser, byte by byte, up to the end of the header or of the message. -/
def PlainParser.transducer (stop : PlainParser → Bool) :
    Lib.Transducer PlainParser UInt8 UInt8 Verdict where
  next := PlainParser.next
  emit p c := if p.inBody && p ≠ .body 0 then [c] else []
  stop p := if stop p then some .done else none

end AnyHttp.H1
