import AnyHttp.Event
import AnyHttp.Lib.Run

/-!
# The send loops of HTTP/2

`send_loop()` of both backends asks nghttp2 for what there is to send, writes it to the connection,
and waits for a `start_write()` once there is nothing.  The backends differ in one pass of the loop:
version 1 bundles small chunks in a buffer, version 2 has nghttp2 serialize into a buffer of its
own.

What nghttp2 answers, how the connection takes what is written, and when somebody calls
`start_write()` are up to the environment.  A pass runs from the top of the loop to where it starts
over or suspends.  Not in the model are `closing_` and the timer of version 2, which the loops do
not look at, and what they do once they are over.

The coroutine, its cancellation and `send_ready_` are those of ASIO, where a coroutine that has been
cancelled throws instead of awaiting anything more.  With corosio it does not throw: what it awaits
after a stop request completes with an error, which for a write is `writeFailed`.  How capy does
this is not in the model.
-/

namespace AnyHttp.H2.SendLoop

/-- The buffer that version 1 bundles chunks in, which never grows. -/
structure Buffer (capacity : Nat) where
  data : List UInt8
  fits : data.length ≤ capacity
deriving DecidableEq

namespace Buffer

variable {capacity : Nat}

def empty : Buffer capacity := ⟨[], Nat.zero_le _⟩

def size (b : Buffer capacity) : Nat := b.data.length

/-- `prepare()`, a copy and `commit()`, of a chunk there is room for. -/
def commit (b : Buffer capacity) (chunk : List UInt8) (h : chunk.length ≤ capacity - b.size) :
    Buffer capacity where
  data := b.data ++ chunk
  fits := by
    have hfits := b.fits
    rw [size] at h
    rw [List.length_append]
    omega

@[simp] theorem commit_data (b : Buffer capacity) (chunk : List UInt8)
    (h : chunk.length ≤ capacity - b.size) : (b.commit chunk h).data = b.data ++ chunk := rfl

@[simp] theorem empty_data : (empty : Buffer capacity).data = [] := rfl

end Buffer

inductive Phase
  /-- At the top of the loop. -/
  | running
  /-- In `io::write()`. -/
  | writing
  /-- In `send_ready_.wait()`. -/
  | waiting
  /-- After a `break`. -/
  | ended
  /-- After an exception. -/
  | threw
deriving DecidableEq, Repr

structure State (capacity : Nat) where
  phase : Phase := .running
  buffer : Buffer capacity := .empty
  /-- What of the bytes that are being written the connection has not taken yet. -/
  rest : List UInt8 := []
  /-- What the connection has taken. -/
  written : List UInt8 := []
  sendReady : Event := {}
  recvDone : Bool := false
  sendFailed : Bool := false
  /-- The coroutine has been cancelled: with ASIO, it throws instead of awaiting anything more. -/
  cancelled : Bool := false
deriving DecidableEq

/-- What nghttp2 answers when it is asked for data. -/
inductive Answer
  /-- A chunk of data, or nothing. -/
  | chunk (data : List UInt8)
  /-- `NGHTTP2_ERR_CLOSING`, of version 2. -/
  | closing
  | error
deriving DecidableEq, Repr

variable {capacity : Nat}

namespace State

def startWrite (s : State capacity) : State capacity := { s with sendReady := s.sendReady.set }

/-- The state that a pass asks nghttp2 in. While nghttp2 is at it, somebody may call
`start_write()`. -/
def cleared (s : State capacity) (started : Bool) : State capacity :=
  let s := { s with sendReady := s.sendReady.clear }
  if started then s.startWrite else s

def write (s : State capacity) (bytes : List UInt8) : State capacity :=
  if s.cancelled then { s with phase := .threw } else { s with phase := .writing, rest := bytes }

def wait (s : State capacity) : State capacity :=
  if s.cancelled then { s with phase := .threw }
  else if s.sendReady.isSet then s
  else { s with phase := .waiting, sendReady := s.sendReady.wait }

end State

/-- One pass of the loop of version 1. `wants` tells if nghttp2 wants to read or to write. -/
def V1.pass (s : State capacity) (wants : Bool) : Answer → State capacity
  | .chunk data =>
    -- chunks are bundled as long as they fit
    if h : data ≠ [] ∧ data.length ≤ capacity - s.buffer.size then
      { s with buffer := s.buffer.commit data h.2 }
    -- the bundle goes out, with the chunk that has not fit
    else if 0 < s.buffer.size + data.length then s.write (s.buffer.data ++ data)
    -- nothing to send, and nothing is to come
    else if s.recvDone then { s with phase := .ended }
    else if wants then s.wait
    else { s with phase := .ended }
  | .closing | .error => { s with phase := .threw }

/-- One pass of the loop of version 2. -/
def V2.pass (s : State capacity) : Answer → State capacity
  | .chunk data =>
    if 0 < data.length then s.write data
    -- nothing to send, and nothing is to come
    else if s.recvDone then { s with phase := .ended }
    else s.wait
  | .closing => { s with phase := .ended }
  | .error => { s with phase := .threw }

inductive Version
  | v1
  | v2
deriving DecidableEq, Repr

def Version.pass (version : Version) (s : State capacity) (wants : Bool) (answer : Answer) :
    State capacity :=
  match version with
  | .v1 => V1.pass s wants answer
  | .v2 => V2.pass s answer

inductive Action
  /-- A pass of the loop. -/
  | pass (answer : Answer) (wants : Bool) (started : Bool)
  /-- The connection takes some of the bytes. -/
  | progress (n : Nat)
  | writeDone
  | writeFailed
  | startWrite
  /-- The receive loop has ended, or the client shuts down the session. -/
  | recvDone
  /-- What has been posted for the wait runs. -/
  | resume
  /-- ASIO cancels the coroutine. A write that is in progress may fail for that. -/
  | cancel
deriving DecidableEq, Repr

def step (version : Version) (s : State capacity) : Action → Option (State capacity)
  | .pass answer wants started =>
    if s.phase = .running then
      some (version.pass (s.cleared started) wants answer)
    else none
  | .progress n =>
    if s.phase = .writing then
      some { s with rest := s.rest.drop n, written := s.written ++ s.rest.take n }
    else none
  | .writeDone =>
    if s.phase = .writing ∧ s.rest = [] then
      some { s with phase := .running, buffer := .empty }
    else none
  | .writeFailed =>
    -- the loop ends without an exception
    if s.phase = .writing then some { s with phase := .ended, sendFailed := true } else none
  | .startWrite => some s.startWrite
  | .recvDone => some ({ s with recvDone := true } : State capacity).startWrite
  | .resume =>
    match s.sendReady.woken with
    | none => none
    | some ec =>
      some { s with
        phase := if ec = .success then .running else .ended
        sendReady := { s.sendReady with woken := none } }
  | .cancel => some { s with cancelled := true, sendReady := s.sendReady.cancel }

/-! ### What has happened -/

/-- What has come of nghttp2, and of those who have something to send. -/
structure History where
  chunks : List (List UInt8) := []
  /-- The answer of the last call. -/
  last : Option Answer := none
  /-- There has been a `start_write()` since before that call. -/
  started : Bool := false
deriving DecidableEq

/-- What nghttp2 has produced, in this order. -/
def History.produced (h : History) : List UInt8 := h.chunks.flatten

def note (_ : State capacity) (a : Action) (h : History) : History :=
  match a with
  | .pass (.chunk data) _ started =>
    { chunks := h.chunks ++ [data], last := some (.chunk data), started := started }
  | .pass answer _ started => { h with last := some answer, started := started }
  | .startWrite | .recvDone => { h with started := true }
  | _ => h

end AnyHttp.H2.SendLoop
