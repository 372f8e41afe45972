import AnyHttp.H2.Stream

/-!
# `NGHttp2Session` of a client

The streams of a session, in the order their requests were submitted, and `async_submit()`, which
has to respect how many of them the peer allows at a time.  Version 1 of nghttp2 does not tell how
many are active, so that the session counts those in `streams_`, while version 2 refuses a request
by itself.
-/

namespace AnyHttp.H2

structure Client where
  backend : Backend
  maxHeaderSize : Nat
  /-- `SETTINGS_MAX_CONCURRENT_STREAMS` of the peer. -/
  limit : Nat
  streams : List Stream := []
  /-- What `async_submit()` has completed with. -/
  answers : List ErrorCode := []
deriving DecidableEq, Repr

namespace Client

inductive Action
  /-- `async_submit()` -/
  | submit
  | settings (limit : Nat)
  | stream (i : Nat) (a : H2.Action)
deriving DecidableEq, Repr

/-- The streams that count. -/
def inProgress (c : Client) : Nat :=
  match c.backend with
  | .v1 => c.streams.countP fun m => m.registered
  | .v2 _ => c.streams.countP fun m => !m.closed && !m.destroyed

def submit (c : Client) : Client :=
  if c.limit ≤ c.inProgress then { c with answers := c.answers ++ [.wouldBlock] }
  else
    { c with
      streams := c.streams ++ [Stream.client c.backend c.maxHeaderSize]
      answers := c.answers ++ [.success] }

def step (c : Client) : Action → Option Client
  | .submit => some c.submit
  | .settings limit => some { c with limit := limit }
  | .stream i a => do
    let m ← c.streams[i]?
    let m ← m.step a
    return { c with streams := c.streams.set i m }

/-- A session that has just been established. -/
def init (backend : Backend) (maxHeaderSize limit : Nat) : Client :=
  { backend := backend, maxHeaderSize := maxHeaderSize, limit := limit }

end Client

end AnyHttp.H2
