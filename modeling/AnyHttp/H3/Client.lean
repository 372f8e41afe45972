import AnyHttp.H2.Stream

/-!
# `Http3ClientStream`: the response to an HTTP/3 request

What a stream of an HTTP/3 client adds to the QUIC stream it is: the header section of the response,
as nghttp3 reports it, and `async_get_response()`.  Handlers are invoked last in all the functions
here, so that there is nothing left to do when they return.
-/

namespace AnyHttp.H3

open H2 (Fields headerFieldSize endOfStream)

/-- `std::from_chars()` for an unsigned integer of `width` bits: the number in front. -/
def fromChars (width : Nat) (value : List Char) : Option Nat :=
  (AnyHttp.fromChars charDigit width value).map Prod.fst

/-- What a stream does to the outside. -/
inductive Call
  /-- With the status code and the fields of the response, as they are at this time. -/
  | completeResponse (h : Handler) (ec : ErrorCode) (response : Option (Nat × Fields))
  | resetStream
deriving DecidableEq, Repr

structure ClientStream where
  maxHeaderSize : Nat
  statusCode : Nat := 0
  contentLength : Option Nat := none
  fields : Fields := []
  headersReceived : Bool := false
  headerSize : Nat := 0
  headerLimitExceeded : Bool := false
  responseDelivered : Bool := false
  responseHandler : Option Handler := none
  failureEc : ErrorCode := .success
  closed : Bool := false
  destroyed : Bool := false
  /-- Everything the stream ever did. -/
  trace : List Call := []
deriving DecidableEq, Repr

inductive Action
  | asyncGetResponse (h : Handler)
  | cancelResponse
  /-- A header section that is not one of trailers, which nghttp3 keeps to itself. -/
  | onHeaders (fields : Fields)
  | fail (ec : ErrorCode)
  | destroy
deriving DecidableEq, Repr

namespace ClientStream

def call (s : ClientStream) (c : Call) : ClientStream := { s with trace := s.trace ++ [c] }

def completeResponse (s : ClientStream) (h : Handler) (ec : ErrorCode)
    (response : Option (Nat × Fields)) : ClientStream :=
  { s with responseHandler := none }.call (.completeResponse h ec response)

def onPseudoHeader (s : ClientStream) (name value : List Char) : ClientStream :=
  if name = ":status".toList then { s with statusCode := (fromChars 32 value).getD s.statusCode }
  else s

def onHeader (s : ClientStream) (field : List Char × List Char) : ClientStream :=
  if s.headerLimitExceeded then s
  else
    let s := { s with headerSize := s.headerSize + headerFieldSize field }
    if s.maxHeaderSize < s.headerSize then { s with headerLimitExceeded := true }
    else if field.1.head? = some ':' then s.onPseudoHeader field.1 field.2
    else
      { s with
        contentLength :=
          if field.1 = "content-length".toList then (fromChars 64 field.2).or s.contentLength
          else s.contentLength
        fields := s.fields ++ [field] }

def deliverFailure (s : ClientStream) : ClientStream :=
  if s.headersReceived || s.responseDelivered then s
  else
    match s.responseHandler with
    | none => s
    | some h => { s with responseDelivered := true }.completeResponse h s.failureEc none

def deliverResponse (s : ClientStream) : ClientStream :=
  if s.headersReceived then
    match s.responseHandler with
    | none => s
    | some h =>
      { s with responseDelivered := true }.completeResponse h .success
        (some (s.statusCode, s.fields))
  else s

def onHeadersComplete (s : ClientStream) : ClientStream :=
  if s.headerLimitExceeded then
    ({ s with
      headersReceived := false
      failureEc := .headerLimit }.call .resetStream).deliverFailure
  else s.deliverResponse

def onEndHeaders (s : ClientStream) : ClientStream :=
  { s with headersReceived := true }.onHeadersComplete

/-- A header section: its fields, and its end. -/
def onHeaders (s : ClientStream) (fields : Fields) : ClientStream :=
  (fields.foldl onHeader s).onEndHeaders

def onFailed (s : ClientStream) (ec : ErrorCode) : ClientStream :=
  -- the first reason is the one to report
  let reason :=
    if s.failureEc ≠ .success then s.failureEc else if ec = .success then endOfStream else ec
  { s with failureEc := reason }.deliverFailure

def fail (s : ClientStream) (ec : ErrorCode) : ClientStream := { s with closed := true }.onFailed ec

/-- `Http3ClientWriter::async_get_response()`, and that of the stream, if there is one. -/
def asyncGetResponse (s : ClientStream) (h : Handler) : ClientStream :=
  if s.destroyed then s.call (.completeResponse h .connectionAborted none)
  else if s.responseDelivered then s.call (.completeResponse h .alreadyStarted none)
  else
    let s := { s with responseHandler := some h }.deliverResponse
    if s.closed then s.deliverFailure else s

def cancelResponse (s : ClientStream) : ClientStream :=
  match s.responseHandler with
  | some h => s.completeResponse h .canceled none
  | none => s

/-- `~Http3ClientStream()` -/
def destroy (s : ClientStream) : ClientStream :=
  let s := { s with destroyed := true }
  match s.responseHandler with
  | some h => if s.responseDelivered then s else s.completeResponse h .connectionReset none
  | none => s

def step (s : ClientStream) : Action → Option ClientStream
  | .asyncGetResponse h => if s.responseHandler = none then some (s.asyncGetResponse h) else none
  | .cancelResponse => if s.destroyed then none else some s.cancelResponse
  | .onHeaders fields => if s.closed || s.destroyed then none else some (s.onHeaders fields)
  | .fail ec => if s.destroyed then none else some (s.fail ec)
  | .destroy => if s.destroyed then none else some s.destroy

/-- A stream for a request that has just been submitted. -/
def init (maxHeaderSize : Nat) : ClientStream := { maxHeaderSize := maxHeaderSize }

end ClientStream

end AnyHttp.H3
