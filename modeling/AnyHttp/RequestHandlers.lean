import AnyHttp.Common
import AnyHttp.Lib.Coroutine

/-!
# Request handlers

The coroutines of `request_handlers.cpp`, which use a request, a response, or a reader or writer on
its own.  What they wait for is an `Op`, and what it completes with an `OpResult`; the length that a
response announces is part of its submission, and `log` messages are left out.

A coroutine that ends with an exception is one that has returned, with the error code in its state.
-/

namespace AnyHttp

open Lib

/-- What a coroutine waits for. -/
inductive Op
  | submit (status : Nat) (contentLength : Option Nat)
  | readSome (size : Nat)
  | write (buffer : List UInt8)
  | writeEof (buffer : List UInt8)
deriving DecidableEq, Repr

/-- What it is resumed with, and the bytes in its buffer if it has read. -/
structure OpResult where
  ec : ErrorCode
  bytes : List UInt8 := []
deriving DecidableEq, Repr

namespace RequestHandlers

/-! ### Single operations -/

inductive Submit
  | submitting (status : Nat) (contentLength : Option Nat)
  | submitted (ec : ErrorCode)
deriving DecidableEq, Repr

/-- Where a coroutine goes on, if the header has been submitted. -/
def Submit.enter {σ : Type} (go stop : σ) : Submit → σ
  | .submitting _ _ => stop
  | .submitted ec => if ec = .success then go else stop

def submit : Coroutine Op OpResult Submit where
  next
    | .submitting status contentLength => some (.submit status contentLength)
    | .submitted _ => none
  resume
    | .submitting _ _, answer => .submitted answer.ec
    | s, _ => s

inductive Ending
  | ending (buffer : List UInt8)
  | returned
deriving DecidableEq, Repr

/-- `write_eof()`, whatever comes of it. -/
def writeEof : Coroutine Op OpResult Ending where
  next
    | .ending buffer => some (.writeEof buffer)
    | .returned => none
  resume _ _ := .returned

/-! ### Reading a body -/

/-- The state of a loop that reads until there is an error, be it the end of the body. -/
inductive Receive (α : Type)
  | reading (received : α)
  | stopped (received : α) (ec : ErrorCode)
deriving DecidableEq, Repr

/-- The loop of `drain()`, `read()` and `try_receive()`, which differ in what they keep, and in how
they tell about an error. -/
def receive {α : Type} (add : α → List UInt8 → α) : Coroutine Op OpResult (Receive α) where
  next
    | .reading _ => some (.readSome (16 * 1024))
    | .stopped _ _ => none
  resume
    | .reading received, answer =>
      let received := add received answer.bytes
      if answer.ec = .success then .reading received else .stopped received answer.ec
    | s, _ => s

def countBytes (n : Nat) (bytes : List UInt8) : Nat := n + bytes.length

def drain : Coroutine Op OpResult (Receive Nat) := receive countBytes

def read : Coroutine Op OpResult (Receive (List UInt8)) := receive (· ++ ·)

def tryReceive : Coroutine Op OpResult (Receive Nat) := receive countBytes

/-- What `drain()` and `read()` return or throw. -/
def Receive.result {α : Type} : Receive α → Option (Except ErrorCode α)
  | .reading _ => none
  | .stopped received ec => some (if ec = .eof then .ok received else .error ec)

/-- What `try_receive()` returns. -/
def Receive.tried : Receive Nat → Option (Nat × ErrorCode)
  | .reading _ => none
  | .stopped received ec => some (received, if ec = .eof then .success else ec)

/-! ### Sending a body -/

/-- The state of `send()`, with what is left of the range. -/
inductive Send
  | sending (rest : List UInt8)
  | threw (ec : ErrorCode)
deriving DecidableEq, Repr

/-- `send()` for a range that is copied to a buffer first. -/
def send : Coroutine Op OpResult Send where
  next
    -- the range has come to its end
    | .sending [] => none
    | .sending rest => some (.write (rest.take (16 * 1024)))
    | .threw _ => none
  resume
    | .sending rest, answer =>
      if answer.ec = .success then .sending (rest.drop (16 * 1024)) else .threw answer.ec
    | s, _ => s

/-- `send_and_force_eof()`: the body is ended also when sending it has failed. -/
def sendAndForceEof : Coroutine Op OpResult (Send ⊕ Ending) :=
  send.andThen writeEof fun _ => .ending []

/-! ### The handlers -/

/-- `respond()`, of which `not_found()` and `header_fields_too_large()` are cases. -/
def respond : Coroutine Op OpResult (Submit ⊕ Ending) :=
  submit.andThen writeEof (Submit.enter (.ending []) .returned)

def notFound : Submit ⊕ Ending := .inl (.submitting 404 none)

def headerFieldsTooLarge : Submit ⊕ Ending := .inl (.submitting 431 none)

/-- `eat_request()` -/
def eatRequest : Coroutine Op OpResult ((Submit ⊕ Ending) ⊕ Receive Nat) :=
  respond.andThen drain fun _ => .reading 0

/-- The state of the loop in `echo()`. -/
inductive Copy
  | reading
  | writing (buffer : List UInt8)
  | ending
  | returned
deriving DecidableEq, Repr

def copy : Coroutine Op OpResult Copy where
  next
    | .reading => some (.readSome (64 * 1024))
    | .writing buffer => some (.write buffer)
    | .ending => some (.writeEof [])
    | .returned => none
  resume
    | .reading, answer =>
      -- the end of the request ends the response
      if answer.ec = .eof then .ending
      else if answer.ec ≠ .success then .returned
      else .writing answer.bytes
    | .writing _, answer => if answer.ec = .success then .reading else .returned
    | .ending, _ => .returned
    | .returned, _ => .returned

def echo : Coroutine Op OpResult (Submit ⊕ Copy) :=
  submit.andThen copy (Submit.enter .reading .returned)

/-- `echo()` for a request that announces the length of its body, or does not. -/
def echoing (contentLength : Option Nat) : Submit ⊕ Copy := .inl (.submitting 200 contentLength)

/-- A repeating pattern, the first `count` bytes of `rv::iota(uint8_t(0))`. -/
def pattern (count : Nat) : List UInt8 := (List.range count).map fun n => UInt8.ofNat n

/-- What `rv::take(length)` takes of that range. Its difference type is `int`, to which a `length`
of 64 bits is converted; there is no telling what happens if the result is negative. -/
def takeCount (length : Nat) : Option Nat :=
  let count := length % 2 ^ 32
  if count < 2 ^ 31 then some count else none

/-- The end of `generate()`, which sends a range. -/
def generateRange (range : List UInt8) : Coroutine Op OpResult (Submit ⊕ (Send ⊕ Ending)) :=
  submit.andThen sendAndForceEof (Submit.enter (.inl (.sending range)) (.inr .returned))

/-- `generate()` for a request with a valid `length`, unless it is undefined. -/
def generate (length : Nat) : Option (Coroutine Op OpResult (Submit ⊕ (Send ⊕ Ending))) :=
  (takeCount length).map fun count => generateRange (pattern count)

/-- The length is announced as it has been asked for. -/
def generating (length : Nat) : Submit ⊕ (Send ⊕ Ending) :=
  .inl (.submitting 200 (some length))

/-- `hello_world()`, and also the end of `dump()`: a short body, with its length announced. -/
def helloWorld (body : List UInt8) : Coroutine Op OpResult (Submit ⊕ Ending) :=
  submit.andThen writeEof (Submit.enter (.ending body) .returned)

def hello : List UInt8 := text "Hello, World!\n"

end RequestHandlers

end AnyHttp
