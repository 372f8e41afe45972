import AnyHttp.H1.Message

/-!
# The writer of a message

`WriterBase`, the common part of the responses a server writes and the requests a client writes.
An operation that gets past the checks of `answer` hands the serializer something to emit: a `Pass`,
which goes onto the connection in pieces (`emit`), until it is over (`finish`), completely or with
an error.  There is one pass at a time, as for every writer (`assert(!writing)`).
-/

namespace AnyHttp.H1

/-- What an operation in progress has the serializer emit. -/
structure Pass where
  /-- It is the header alone, not a piece of the body. -/
  head : Bool
  /-- The message ends with it. -/
  eof : Bool
  /-- What has not been written yet. -/
  rest : List UInt8
deriving DecidableEq, Repr

structure Writer where
  /-- `session` is set. -/
  attached : Bool := true
  message : Head
  /-- The header as the serializer has started to emit it. -/
  begun : Option Head := none
  headerDone : Bool := false
  writing : Option Pass := none
  cancelled : Bool := false
  eofSubmitted : Bool := false
  /-- The pieces of the body that were accepted so far, and whether they end it. -/
  accepted : List (List UInt8 × Bool) := []
  /-- What has been written to the connection so far. -/
  emitted : List UInt8 := []
deriving DecidableEq, Repr

namespace Writer

variable (b : Beast)

/-- The entry ladder of `write()`: what can be answered without the connection. -/
def answer (w : Writer) (data : List UInt8) (eof : Bool) : Option ErrorCode :=
  if data = [] ∧ eof = false then some .success
  else if w.eofSubmitted then some (if data = [] then .success else .brokenPipe)
  else if !w.attached then some .connectionAborted
  else if w.cancelled then some .canceled
  else none

/-- The header as far as a pass has to emit it: all of it again, as long as no pass with it has
succeeded. -/
def header (w : Writer) (head : Head) : List UInt8 := if w.headerDone then [] else b.head head

/-- `write()`, past the ladder. Without a header so far, that of `message` goes first. -/
def write (w : Writer) (data : List UInt8) (eof : Bool) : Writer :=
  let head := w.begun.getD w.message
  { w with
    begun := some head
    accepted := w.accepted ++ [(data, eof)]
    writing := some ⟨false, eof, w.header b head ++ b.body head data eof⟩ }

/-- `write_head()`. The message is over with it unless there is a body. -/
def writeHead (w : Writer) (bodiless : Bool) : Writer :=
  { w with
    begun := some (if w.headerDone then w.begun.getD w.message else w.message)
    writing := some ⟨true, bodiless, w.header b w.message⟩ }

/-- `n` more bytes have been written. -/
def emit (w : Writer) (p : Pass) (n : Nat) : Writer :=
  { w with
    writing := some { p with rest := p.rest.drop n }
    emitted := w.emitted ++ p.rest.take n }

/-- The end of a pass: only now has the body really ended. -/
def finish (w : Writer) (p : Pass) (ec : ErrorCode) : Writer :=
  { w with
    writing := none
    headerDone := w.headerDone || decide (ec = .success)
    cancelled := w.cancelled || decide (ec ≠ .success)
    eofSubmitted := w.eofSubmitted || (p.eof && decide (ec = .success)) }

def detach (w : Writer) : Writer := { w with attached := false }

/-- `content_length()` -/
def setContentLength (w : Writer) (n : Option Nat) : Writer :=
  { w with message := { w.message with fields := b.setContentLength n w.message.fields } }

/-- What the passes amount to that were accepted so far: the header, and the pieces of the body. -/
def script (w : Writer) : List UInt8 :=
  match w.begun with
  | none => []
  | some head => b.head head ++ w.accepted.flatMap fun x => b.body head x.1 x.2

/-- The message is on the connection as a whole: its header, then all of its body, which the last
piece has ended, or which there is none of. -/
def Complete (w : Writer) : Prop :=
  w.eofSubmitted = true ∧ ∃ head, w.begun = some head ∧
    w.emitted = b.head head ++ (w.accepted.flatMap fun x => b.body head x.1 x.2) ∧
    (w.accepted = [] ∨
      ∃ before data, w.accepted = before ++ [(data, true)] ∧ ∀ x ∈ before, x.2 = false)

end Writer

end AnyHttp.H1
