import AnyHttp.Event

/-!
# Submitting a request over HTTP/2

`NGHttp2Session::async_submit()` of both backends.  nghttp2 is a parameter: what it answers may
depend on all that it has been asked before.  A handler that is invoked and one that is posted both
show up in `completions`; what the caller does when it is resumed is not part of the model.

A handler is consumed by its first completion.  A second one, of the empty handler, does not tell
the caller anything: with ASIO, what has been posted throws, and with corosio, nothing is posted.
All that it leaves behind in the model is `completedEmpty`.

Of a stream, there is the ID and the URL, which is what `async_submit()` sets.
-/

namespace AnyHttp.H2.Submit

/-- What a request is made of. -/
structure Url where
  scheme : List UInt8
  encodedTarget : List UInt8
  encodedHostAndPort : List UInt8
deriving DecidableEq, Repr

abbrev Fields := List (List UInt8 × List UInt8)

/-- The header section of a request, pseudo headers first. -/
def nva (method : List UInt8) (url : Url) (headers : Fields) : Fields :=
  [(text ":method", method), (text ":scheme", url.scheme), (text ":path", url.encodedTarget),
    (text ":authority", url.encodedHostAndPort)] ++ headers

structure NGHttp2Stream where
  id : Int := 0
  url : Url
deriving DecidableEq, Repr

/-- What a handler is called with: an error, or the request on a stream. -/
structure Completion where
  ec : ErrorCode
  request : Option NGHttp2Stream := none
  posted : Bool := false
deriving DecidableEq, Repr

/-- `κ` are the states of a session of nghttp2, or of a connection in version 2. -/
structure Nghttp2 (κ : Type) where
  checkRequestAllowed : κ → Bool
  /-- The remote `SETTINGS_MAX_CONCURRENT_STREAMS`. -/
  maxConcurrentStreams : κ → Nat
  submitRequest : κ → Fields → κ × Int
  /-- `NGHTTP2_ERR_STREAM_ID_BLOCKED` and `NGHTTP2_ERR_REFUSED_STREAM`. -/
  streamIdBlocked : Int
  refusedStream : Int

variable {κ : Type}

structure NGHttp2Session (κ : Type) where
  /-- `session`, or `conn`. -/
  session : Option κ
  closing : Bool := false
  streams : List (Int × NGHttp2Stream) := []
  lastId : Int := 0
  sendReady : Event := {}
  /-- The handler that `async_submit()` has been given is not empty. -/
  handler : Bool := false
  completions : List Completion := []
  /-- An empty handler has been asked to complete. -/
  completedEmpty : Bool := false
deriving DecidableEq

namespace NGHttp2Session

def startWrite (s : NGHttp2Session κ) : NGHttp2Session κ :=
  { s with sendReady := s.sendReady.set }

def complete (s : NGHttp2Session κ) (c : Completion) : NGHttp2Session κ :=
  -- the handler is moved from when it is called
  if s.handler then { s with handler := false, completions := s.completions ++ [c] }
  else { s with completedEmpty := true }

/-- `streams_.emplace()`. -/
def emplace (s : NGHttp2Session κ) (id : Int) (stream : NGHttp2Stream) : NGHttp2Session κ :=
  if id ∈ s.streams.map Prod.fst then s else { s with streams := (id, stream) :: s.streams }

/-- The end of `async_submit()`, where nghttp2 has given an ID. -/
def submitted (s : NGHttp2Session κ) (id : Int) (url : Url) : NGHttp2Session κ :=
  let stream : NGHttp2Stream := { id := id, url := url }
  let s := { s with lastId := id }.emplace id stream
  (s.complete { ec := .success, request := some stream, posted := true }).startWrite

end NGHttp2Session

/-- `errc::invalid_argument`. -/
def invalidArgument : ErrorCode := .other 22

def V1.asyncSubmit (api : Nghttp2 κ) (s : NGHttp2Session κ) (method : List UInt8) (url : Url)
    (headers : Fields) : NGHttp2Session κ :=
  let s := { s with handler := true }
  match s.session with
  | none => s.complete { ec := .canceled }
  | some k =>
    -- the session is going down
    if !api.checkRequestAllowed k then s.complete { ec := .canceled }
    else if api.maxConcurrentStreams k ≤ s.streams.length then s.complete { ec := .wouldBlock }
    else
      let answer := api.submitRequest k (nva method url headers)
      let s := { s with session := some answer.1 }
      -- there is no return, the handler is empty from here on
      let s := if answer.2 < 0 then s.complete { ec := invalidArgument } else s
      s.submitted answer.2 url

/-- The error of version 2, where nghttp2 has refused the request. -/
def V2.submitError (api : Nghttp2 κ) (rv : Int) : ErrorCode :=
  if rv = api.streamIdBlocked then .wouldBlock
  else if rv = api.refusedStream then .connectionAborted
  else invalidArgument

def V2.asyncSubmit (api : Nghttp2 κ) (s : NGHttp2Session κ) (method : List UInt8) (url : Url)
    (headers : Fields) : NGHttp2Session κ :=
  let s := { s with handler := true }
  match s.session with
  | none => s.complete { ec := .canceled }
  | some k =>
    if s.closing then s.complete { ec := .canceled }
    else
      let answer := api.submitRequest k (nva method url headers)
      let s := { s with session := some answer.1 }
      if answer.2 < 0 then s.complete { ec := V2.submitError api answer.2 }
      else s.submitted answer.2 url

inductive Version
  | v1
  | v2
deriving DecidableEq, Repr

def Version.asyncSubmit (version : Version) (api : Nghttp2 κ) (s : NGHttp2Session κ)
    (method : List UInt8) (url : Url) (headers : Fields) : NGHttp2Session κ :=
  match version with
  | .v1 => V1.asyncSubmit api s method url headers
  | .v2 => V2.asyncSubmit api s method url headers

end AnyHttp.H2.Submit
