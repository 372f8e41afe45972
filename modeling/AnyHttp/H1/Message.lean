import AnyHttp.Common

/-!
# HTTP/1.1 messages

Header fields, the heads of requests and responses, and what the sessions do with them before they
are written.  Beast itself is a parameter (`Beast`): the sessions only set fields, ask it whether a
message is chunked or persistent, and have it serialise heads and bodies.
-/

namespace AnyHttp.H1

/-- The names of header fields, as Beast's `http::field` has them: names that only differ in case
are the same name. -/
inductive Field
  | connection
  | contentLength
  | transferEncoding
  | date
  | server
  | altSvc
  | upgrade
  | userAgent
  | host
  | other (name : List Char)
deriving DecidableEq, Repr

/-- Header fields in the order they are sent. -/
abbrev Fields := List (Field × List Char)

namespace Fields

def erase (fields : Fields) (name : Field) : Fields := fields.filter fun f => f.1 ≠ name

def insert (fields : Fields) (name : Field) (value : List Char) : Fields :=
  fields ++ [(name, value)]

/-- `set()`: in place of all fields of that name. -/
def set (fields : Fields) (name : Field) (value : List Char) : Fields :=
  (fields.erase name).insert name value

def find (fields : Fields) (name : Field) : Option (List Char) :=
  (List.find? (fun f => f.1 = name) fields).map Prod.snd

def hasContentLength (fields : Fields) : Bool := (fields.find .contentLength).isSome

/-- Sets a field unless it is there. -/
def setDefault (fields : Fields) (name : Field) (value : List Char) : Fields :=
  if (fields.find name).isNone then fields.set name value else fields

end Fields

/-- `add_fields()`: the fields given replace those of the same names, but not each other. -/
def addFields (message headers : Fields) : Fields :=
  headers.foldl (fun m h => m.insert h.1 h.2) (headers.foldl (fun m h => m.erase h.1) message)

inductive Method
  | head
  | get
  | post
  | other (name : List Char)
deriving DecidableEq, Repr

inductive StartLine
  | request (method : Method) (target : List Char)
  | response (status : Nat)
deriving DecidableEq, Repr

/-- The head of a message. -/
structure Head where
  start : StartLine
  fields : Fields
deriving DecidableEq, Repr

/-- `std::from_chars()` for a `size_t`, if the number is all there is. -/
def fromChars (value : List Char) : Option Nat := fromCharsAll charDigit 64 value

/-- What the code uses of Beast's messages and serializers. -/
structure Beast where
  /-- `message::chunked()` -/
  chunked : Fields → Bool
  /-- `message::chunked(true)` -/
  setChunked : Fields → Fields
  /-- `message::content_length()`, without a value for `boost::none` -/
  setContentLength : Option Nat → Fields → Fields
  /-- `message::keep_alive()` -/
  keepAlive : Fields → Bool
  /-- `message::keep_alive(false)` -/
  setClose : Fields → Fields
  /-- The start line and the fields as they are sent. -/
  head : Head → List UInt8
  /-- One chunk. -/
  chunk : List UInt8 → List UInt8
  /-- The chunk that ends a body. -/
  lastChunk : List UInt8

namespace Beast

variable (b : Beast)

/-- `submit_headers()`: what has no length is sent in chunks. -/
def submitHeaders (message headers : Fields) : Fields :=
  let fields := addFields message headers
  if fields.hasContentLength then fields else b.setChunked fields

/-- What a serializer emits for a piece of the body, after `head`. -/
def body (head : Head) (data : List UInt8) (eof : Bool) : List UInt8 :=
  if b.chunked head.fields then
    (if data = [] then [] else b.chunk data) ++ if eof then b.lastChunk else []
  else data

/-- `has_body()`: going by the framing, the only message without a body is one with
`Content-Length: 0`. -/
def hasBody (head : Head) : Bool :=
  b.chunked head.fields ||
    decide (fromChars ((head.fields.find .contentLength).getD []) ≠ some 0)

end Beast

/-! ### A plain serializer

What Beast does with messages whose `Transfer-Encoding` and `Connection` are single tokens. -/

def ascii (s : List Char) : List UInt8 := s.map fun c => c.toNat.toUInt8

def crlf : List UInt8 := [13, 10]

def Field.name : Field → List Char
  | .connection => "Connection".toList
  | .contentLength => "Content-Length".toList
  | .transferEncoding => "Transfer-Encoding".toList
  | .date => "Date".toList
  | .server => "Server".toList
  | .altSvc => "Alt-Svc".toList
  | .upgrade => "Upgrade".toList
  | .userAgent => "User-Agent".toList
  | .host => "Host".toList
  | .other name => name

def Method.name : Method → List Char
  | .head => "HEAD".toList
  | .get => "GET".toList
  | .post => "POST".toList
  | .other name => name

/-- The reason phrases of the responses that occur here. -/
def reason : Nat → List Char
  | 101 => "Switching Protocols".toList
  | 200 => "OK".toList
  | 204 => "No Content".toList
  | 304 => "Not Modified".toList
  | 431 => "Request Header Fields Too Large".toList
  | _ => "Unknown".toList

def StartLine.text : StartLine → List Char
  | .request method target => method.name ++ ' ' :: target ++ " HTTP/1.1".toList
  | .response status =>
    "HTTP/1.1 ".toList ++ Nat.toDigits 10 status ++ ' ' :: reason status

def Beast.plain : Beast where
  chunked fields := fields.find .transferEncoding == some "chunked".toList
  setChunked fields := fields.set .transferEncoding "chunked".toList
  setContentLength n fields :=
    match n with
    | none => fields.erase .contentLength
    | some n => (fields.erase .transferEncoding).set .contentLength (Nat.toDigits 10 n)
  keepAlive fields := fields.find .connection != some "close".toList
  setClose fields := fields.set .connection "close".toList
  head head :=
    ascii head.start.text ++ crlf ++
      (head.fields.flatMap fun f => ascii (f.1.name ++ ": ".toList ++ f.2) ++ crlf) ++ crlf
  chunk data := ascii (Nat.toDigits 16 data.length) ++ crlf ++ data ++ crlf
  lastChunk := ascii ['0'] ++ crlf ++ crlf

/-! ### A plain parser

What Beast's parsers do with messages whose last header field, if it is `Content-Length`, is the
length of their body, and that have none otherwise. -/

/-- Where the parser is in a message: in its header, the bytes of which come in reverse order, or
with so many bytes of its body to go. -/
inductive PlainParser
  | header (seen : List UInt8)
  | body (left : Nat)
deriving DecidableEq, Repr

namespace PlainParser

def inBody : PlainParser → Bool
  | .header _ => false
  | .body _ => true

/-- The number before the end of the line, read backwards. -/
def number : List UInt8 → Nat × List UInt8
  | [] => (0, [])
  | c :: rest =>
    if 48 ≤ c ∧ c ≤ 57 then
      let (n, before) := number rest
      (10 * n + (c.toNat - 48), before)
    else (0, c :: rest)

/-- The length of the body, by the last field of the header. -/
def length (seen : List UInt8) : Nat :=
  let (n, before) := number (seen.drop 4)
  if (ascii "Content-Length: ".toList).reverse.isPrefixOf before then n else 0

def next : PlainParser → UInt8 → PlainParser
  | .header seen, c =>
    let seen := c :: seen
    if (crlf ++ crlf).reverse.isPrefixOf seen then .body (length seen) else .header seen
  | .body left, _ => .body (left - 1)

end PlainParser

end AnyHttp.H1
