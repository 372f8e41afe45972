import AnyHttp.Quic.Driver

/-!
# The receiving side, on its own

What the runs of a stream come down to for the incoming body.  A `Receiver` is the part of a
`Stream` that has to do with receiving, and a `Step` one thing that can happen to it.  An action on
a stream is a sequence of these, because `call_read_handler()` invokes a handler for every pass of
its loop: `Phase` says where in it a sequence is.

* `calling k`: `call_read_handler()` is about to be called, and returns to `k`;
* `loop consumed k`: at the head of its loop, with `consumed` bytes delivered so far;
* `left k`: it has returned to `k`;
* `rest`: nothing of the stream is running, or only the handler that the topmost frame waits for.

What the user and the stack do is more or less considerate: `Conduct` has the degrees that the
results are about.  Steps that only some of them allow say so.
-/

namespace AnyHttp.Quic

open Lib

/-- What has been received and not delivered: the rest of the chunk at the front of the queue, the
other chunks, and the chunk that is being delivered. -/
def Incoming.unread (rx : Incoming) : List UInt8 :=
  rx.readHead ++ rx.pendingRead.tail.flatten ++ rx.incoming

/-- The bytes that reads have been completed with. -/
def delivered (calls : List Call) : List UInt8 :=
  calls.flatMap fun
    | .completeRead _ _ .success bytes => bytes
    | _ => []

/-- The credit that the peer has been granted. -/
def credited (calls : List Call) : Nat :=
  (calls.map fun
    | .consumeStream n => n
    | _ => 0).sum

/-- The calls that are about the incoming body. -/
def Call.aboutReading : Call → Bool
  | .completeRead .. => true
  | .consumeStream _ => true
  | .onCancel _ .read => true
  | _ => false

structure Receiver where
  kind : Kind
  rx : Incoming
  closed : Bool
  readAborted : Bool
  reader : ReaderHandle
  destroyed : Bool
  frames : List Frame
  received : List UInt8
  trace : List Call
deriving DecidableEq, Repr

/-- The receiving side of a stream, with the calls of the step that is under way. -/
def Stream.receiver (m : Stream) : Receiver where
  kind := m.q.kind
  rx := m.q.rx
  closed := m.q.closed
  readAborted := m.q.readAborted
  reader := m.reader
  destroyed := m.destroyed
  frames := m.frames
  received := m.received
  trace := m.trace ++ m.q.calls

inductive Phase
  | rest
  | calling (k : Cont)
  | loop (consumed : Nat) (k : Cont)
  | left (k : Cont)
deriving DecidableEq, Repr

/-- How the reader is treated: anything goes, its contract can be kept (see
`Quic/Equiv/Contract.lean`), or nothing gets in its way at all. -/
inductive Conduct
  | any
  | fair
  | calm
deriving DecidableEq, Repr

namespace Receiver

def call (r : Receiver) (c : Call) : Receiver := { r with trace := r.trace ++ [c] }

/-- A pass of the loop is over: the read is gone, and its handler is running. -/
def pass (r : Receiver) (consumed : Nat) (k : Cont) (c : Call) : Receiver :=
  { r with
    rx := { r.rx with readHandler := none }
    frames := .loop consumed k :: r.frames
    trace := r.trace ++ [c] }

/-- What `take_parked()` leaves behind, after a read into a buffer of `size` bytes. -/
def afterRead (rx : Incoming) (size : Nat) : Incoming :=
  let parked := QuicStream.takeParked size rx.readHead rx.pendingRead
  { rx with
    readHead := parked.2.1
    pendingRead := parked.2.2
    incoming := rx.incoming.drop (size - parked.1.length) }

/-- The bytes that this read gets. -/
def readBytes (rx : Incoming) (size : Nat) : List UInt8 :=
  let parked := QuicStream.takeParked size rx.readHead rx.pendingRead
  parked.1 ++ rx.incoming.take (size - parked.1.length)

/-- Parks what is left of the chunk that was being delivered. -/
def park (rx : Incoming) : Incoming :=
  -- the reader has taken all of it
  if rx.incoming = [] then
    rx
  else
    { rx with
      pendingRead := rx.pendingRead ++ [rx.incoming]
      readHead :=
        if rx.readHead = [] then (rx.pendingRead ++ [rx.incoming]).head?.getD [] else rx.readHead
      incoming := [] }

def clear (rx : Incoming) : Incoming :=
  { rx with pendingRead := [], readHead := [], incoming := [] }

/-- A chunk of the body arrives. -/
def arrive (r : Receiver) (data : List UInt8) : Receiver :=
  { r with rx := { r.rx with incoming := data }, received := r.received ++ data }

/-- A read is issued, on a reader that is attached to its stream. -/
def arm (r : Receiver) (h : Handler) (size : Nat) : Receiver :=
  { r with
    rx := { r.rx with readHandler := some h, readHandlerBuffer := size }
    trace := r.trace ++ [.onCancel h .read] }

/-- What `fail()` completes a read with. -/
def failCode (r : Receiver) (ec : ErrorCode) : ErrorCode :=
  if ec ≠ ErrorCode.success ∧ r.rx.eofReceived = false then .partialMessage else ec

/-- What a detached reader reports. -/
def latched (r : Receiver) : ErrorCode :=
  if r.rx.eofReceived && r.rx.readHead.isEmpty && r.rx.incoming.isEmpty then .eof
  else .partialMessage

/-- A read that is still waiting when the stream is destroyed. -/
def detachCalls (r : Receiver) : List Call :=
  r.rx.readHandler.toList.map fun h =>
    .completeRead h r.rx.readHandlerBuffer .connectionReset []

def detachAll (r : Receiver) : Receiver :=
  { r with
    destroyed := true
    reader := if r.reader = .attached then .detached r.latched else r.reader
    rx := { r.rx with readHandler := none }
    trace := r.trace ++ r.detachCalls }

/-- Anything but the beginning of a read, and the arrival of data. -/
inductive Step (c : Conduct) : Phase → Receiver → Phase → Receiver → Prop
  -- `call_read_handler()`
  | skip (r : Receiver) (k : Cont)
      (hskip : r.rx.readHandler = none ∨ r.rx.callReadHandlerActive = true) :
      Step c (.calling k) r (.left k) r
  | enter (r : Receiver) (k : Cont) (h : Handler) (hh : r.rx.readHandler = some h)
      (hactive : r.rx.callReadHandlerActive = false) :
      Step c (.calling k) r (.loop 0 k)
        { r with rx := { r.rx with callReadHandlerActive := true } }
  | data (r : Receiver) (n : Nat) (k : Cont) (h : Handler) (hh : r.rx.readHandler = some h)
      (hunread : r.rx.readHead ≠ [] ∨ r.rx.incoming ≠ []) :
      Step c (.loop n k) r .rest
        ({ r with rx := afterRead r.rx r.rx.readHandlerBuffer }.pass
          (n + (readBytes r.rx r.rx.readHandlerBuffer).length) k
          (.completeRead h r.rx.readHandlerBuffer .success (readBytes r.rx r.rx.readHandlerBuffer)))
  | eof (r : Receiver) (n : Nat) (k : Cont) (h : Handler) (hh : r.rx.readHandler = some h)
      (hread : r.rx.readHead = [] ∧ r.rx.incoming = []) (heof : r.rx.eofReceived = true) :
      Step c (.loop n k) r .rest
        (r.pass n k (.completeRead h r.rx.readHandlerBuffer .eof []))
  | truncated (r : Receiver) (n : Nat) (k : Cont) (h : Handler) (hh : r.rx.readHandler = some h)
      (hread : r.rx.readHead = [] ∧ r.rx.incoming = []) (heof : r.rx.eofReceived = false)
      (hover : r.closed = true ∨ r.readAborted = true)
      (hfair : c ≠ .any → r.closed = true → k ≠ .chunk true) :
      Step c (.loop n k) r .rest
        (r.pass n k (.completeRead h r.rx.readHandlerBuffer .partialMessage []))
  | leave (r : Receiver) (n : Nat) (k : Cont)
      (hdone : r.rx.readHandler = none ∨ r.rx.readHead = [] ∧ r.rx.incoming = [] ∧
        r.rx.eofReceived = false ∧ r.closed = false ∧ r.readAborted = false) :
      Step c (.loop n k) r (.left k)
        { r with
          rx := { r.rx with callReadHandlerActive := false }
          trace := r.trace ++ [.consumeStream n] }
  -- its caller goes on
  | back (r : Receiver) : Step c (.left .caller) r .rest r
  | park (r : Receiver) : Step c (.left (.chunk false)) r .rest { r with rx := park r.rx }
  | parkEnd (r : Receiver) :
      Step c (.left (.chunk true)) r (.calling .caller)
        { r with rx := { park r.rx with eofReceived := true } }
  /-- The handler has returned. -/
  | again (r : Receiver) (n : Nat) (k : Cont) (frames : List Frame)
      (hframes : r.frames = .loop n k :: frames) :
      Step c .rest r (.loop n k) { r with frames := frames }
  -- the user
  | cancel (r : Receiver) (h : Handler) (hh : r.rx.readHandler = some h) :
      Step c .rest r .rest
        { r with
          rx := { r.rx with readHandler := none }
          trace := r.trace ++ [.completeRead h r.rx.readHandlerBuffer .canceled []] }
  | drop (r : Receiver) (hcalm : c ≠ .calm) (hreader : r.reader = .attached)
      (hfair : c ≠ .any → r.rx.readHandler ≠ none → r.rx.unread = []) :
      Step c .rest r .rest { r with rx := clear r.rx, reader := .released }
  -- the stack
  | ended (r : Receiver) (hlive : r.destroyed = false) (hframes : r.frames = [])
      (hclosed : r.closed = false) (heof : r.rx.eofReceived = false)
      (haborted : r.kind ≠ .http3 → r.readAborted = false) :
      Step c .rest r (.calling .caller) { r with rx := { r.rx with eofReceived := true } }
  | abort (r : Receiver) (hcalm : c ≠ .calm) (hlive : r.destroyed = false) (hkind : r.kind ≠ .http3)
      (heof : r.rx.eofReceived = false)
      (hfair : c ≠ .any → ∀ n, .loop n (.chunk true) ∉ r.frames) :
      Step c .rest r (.calling .caller) { r with rx := clear r.rx, readAborted := true }
  -- the end of the stream
  | fail (r : Receiver) (ec : ErrorCode) (h : Handler) (hh : r.rx.readHandler = some h)
      (hcalm : c = .calm → r.kind = .http3)
      (hfair : c ≠ .any → ec ≠ ErrorCode.success ∧
        (r.frames ≠ [] → r.rx.unread = [] ∧ r.rx.eofReceived = false ∧
          ∀ n, .loop n (.chunk true) ∉ r.frames)) :
      Step c .rest r .rest
        { r with
          closed := true
          rx := { r.rx with readHandler := none }
          trace := r.trace ++ [.completeRead h r.rx.readHandlerBuffer (r.failCode ec) []] }
  | close (r : Receiver) (closed : Bool) (hclosed : r.closed = true → closed = true)
      (hcalm : c = .calm → r.kind = .http3 ∨ closed = r.closed) :
      Step c .rest r .rest { r with closed := closed }
  | failing (r : Receiver) (ec : ErrorCode) :
      Step c .rest r .rest { r with frames := .failing ec :: r.frames }
  | failed (r : Receiver) (ec : ErrorCode) (frames : List Frame)
      (hframes : r.frames = .failing ec :: frames) :
      Step c .rest r .rest { r with frames := frames }
  | destroy (r : Receiver) (hframes : r.frames = []) (hlive : r.destroyed = false) :
      Step c .rest r .rest r.detachAll
  | release (r : Receiver) (hcalm : c ≠ .calm) (hdestroyed : r.destroyed = true) :
      Step c .rest r .rest { r with reader := .released }
  -- writing
  | calls (r : Receiver) (cs : List Call) (hcs : ∀ x ∈ cs, x.aboutReading = false) :
      Step c .rest r .rest { r with trace := r.trace ++ cs }

/-- Any number of steps. -/
inductive Steps (c : Conduct) : Phase → Receiver → Phase → Receiver → Prop
  | refl (p : Phase) (r : Receiver) : Steps c p r p r
  | cons {p₁ p₂ p₃ : Phase} {r₁ r₂ r₃ : Receiver} :
      Step c p₁ r₁ p₂ r₂ → Steps c p₂ r₂ p₃ r₃ → Steps c p₁ r₁ p₃ r₃

/-- What one action does: the next chunk of the body is delivered, a read is issued or answered
without looking at the stream, or any number of steps. -/
inductive Turn (c : Conduct) : Receiver → Act → Receiver → Prop
  | arrive {r r' : Receiver} {a : Act} (data : List UInt8) (fin : Bool) (hdata : data ≠ [])
      (hlive : r.destroyed = false) (hframes : r.frames = []) (hclosed : r.closed = false)
      (heof : r.rx.eofReceived = false)
      (haborted : r.kind ≠ .http3 → r.readAborted = false) (hfin : fin = true → r.kind ≠ .http3)
      (h : Steps c (.calling (.chunk fin)) (r.arrive data) .rest r') : Turn c r a r'
  | read {r r' : Receiver} (h : Handler) (size : Nat) (hsize : size ≠ 0)
      (hreader : r.reader = .attached) (hh : r.rx.readHandler = none)
      (hsteps : Steps c (.calling .caller) (r.arm h size) .rest r') :
      Turn c r (.asyncReadSome h size) r'
  | answer (r : Receiver) (h : Handler) (size : Nat) (ec : ErrorCode)
      (hanswer : size = 0 ∧ ec = .success ∨ r.reader = .detached ec) :
      Turn c r (.asyncReadSome h size) (r.call (.completeRead h size ec []))
  | steps {r r' : Receiver} {a : Act} (h : Steps c .rest r .rest r') : Turn c r a r'

end Receiver

end AnyHttp.Quic
