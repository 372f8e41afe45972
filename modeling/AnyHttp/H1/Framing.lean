import AnyHttp.H1.Client
import AnyHttp.H1.Server
import AnyHttp.Lib.Messages

/-!
# Where the receiver of a message finds its end

A sender decides once how it delimits a body, by the fields of the header (`Beast.submitHeaders`),
and emits what it is given.  The receiver goes by the header as well, but also by the status and by
the method of the request (`responseFraming`, `requestFraming`).  `Reads` is what Beast's parsers do
with a header and what is behind it.
-/

namespace AnyHttp.H1

/-- How the end of a message is found behind its header. -/
inductive Framing
  /-- The message is over with its header, whatever that says. -/
  | bodiless
  | length (n : Nat)
  | chunked
  | untilEof
deriving DecidableEq, Repr

/-- There is no body in a response to `HEAD` (with `skip()`), nor with some of the statuses. -/
def hasNoBody (m : Method) : StartLine → Bool
  | .response status => decide (m = .head) || status / 100 == 1 || status == 204 || status == 304
  | .request _ _ => false

namespace Beast

variable (b : Beast)

/-- What a parser goes by behind these fields, if it does not reject them: a `Content-Length` has to
be a number, and the only one to say how long the body is. -/
def framing (fields : Fields) (noBody : Bool) (unframed : Framing) : Option Framing :=
  match fields.find .contentLength with
  | some value =>
    if b.chunked fields then none
    else (fromChars value).map fun n => if noBody then .bodiless else .length n
  | none =>
    some (if noBody then .bodiless else if b.chunked fields then .chunked else unframed)

/-- A response to a request of this method. -/
def responseFraming (m : Method) (head : Head) : Option Framing :=
  b.framing head.fields (hasNoBody m head.start) .untilEof

def requestFraming (head : Head) : Option Framing := b.framing head.fields false .bodiless

/-- The pieces that a body has been written in fit what the receiver goes by. -/
def Fits (head : Head) (framing : Option Framing) (pieces : List (List UInt8 × Bool)) : Prop :=
  match framing with
  | some .bodiless => (∀ x ∈ pieces, x.1 = []) ∧ (b.chunked head.fields = true → pieces = [])
  | some (.length n) => (pieces.map fun x => x.1.length).sum = n
  | some .chunked => pieces ≠ []
  | some .untilEof => False
  | none => False

instance (head : Head) (pieces : List (List UInt8 × Bool)) :
    ∀ framing, Decidable (b.Fits head framing pieces)
  | some .bodiless =>
    inferInstanceAs
      (Decidable ((∀ x ∈ pieces, x.1 = []) ∧ (b.chunked head.fields = true → pieces = [])))
  | some (.length n) => inferInstanceAs (Decidable ((pieces.map fun x => x.1.length).sum = n))
  | some .chunked => inferInstanceAs (Decidable (pieces ≠ []))
  | some .untilEof => inferInstanceAs (Decidable False)
  | none => inferInstanceAs (Decidable False)

end Beast

/-- A parser, as it is fed with the bytes of a message. -/
structure Receiver (P : Type*) where
  init : P
  next : P → UInt8 → P
  done : P → Bool

/-- The server's parser of a request. -/
def Context.receiver {P : Type*} (Γ : Context P) : Receiver P where
  init := Γ.parser.init
  next := Γ.parser.next
  done := Γ.parser.done

/-- The client's parser of the response to a request of this method. -/
def Client.Context.receiver {P : Type*} (Γ : Client.Context P) (m : Method) : Receiver P where
  init := Γ.init m
  next p c := Γ.next p (some c)
  done := Γ.done

namespace Receiver

variable {P : Type*} (R : Receiver P)

def feed (p : P) (bytes : List UInt8) : P := bytes.foldl R.next p

/-- The message goes on with these bytes, and ends with the last of them. -/
def Ends (p : P) (bytes : List UInt8) : Prop := Lib.Ends R.next R.done p bytes

/-- The parser reads chunks: `between` two of them, it is not done, and it is behind the
last one. -/
structure Unchunks (b : Beast) (between : P → Prop) : Prop where
  chunk : ∀ p data, between p → data ≠ [] →
    (∀ n < (b.chunk data).length, R.done (R.feed p ((b.chunk data).take n)) = false) ∧
      between (R.feed p (b.chunk data))
  last : ∀ p, between p → R.Ends p b.lastChunk

/-- What the parser does from state `p` on, behind a header. -/
def Follows (b : Beast) (p : P) : Option Framing → Prop
  | some .bodiless => R.done p = true
  | some (.length n) =>
    ∀ bytes : List UInt8, bytes.length ≤ n → (R.done (R.feed p bytes) = true ↔ bytes.length = n)
  | some .chunked => ∃ between, R.Unchunks b between ∧ between p
  | some .untilEof => ∀ bytes, R.done (R.feed p bytes) = false
  | none => ∀ bytes, R.done (R.feed p bytes) = false

/-- The parser reads this header as it has been written, and goes by it. -/
structure Reads (b : Beast) (head : Head) (framing : Option Framing) : Prop where
  header : ∀ n < (b.head head).length, R.done (R.feed R.init ((b.head head).take n)) = false
  behind : R.Follows b (R.feed R.init (b.head head)) framing

end Receiver

/-- What has been written of a message fits. -/
def Writer.Fits (w : Writer) (b : Beast) (framing : Head → Option Framing) : Prop :=
  ∀ head ∈ w.begun, b.Fits head (framing head) w.accepted

instance (w : Writer) (b : Beast) (framing : Head → Option Framing) :
    Decidable (w.Fits b framing) :=
  inferInstanceAs (Decidable (∀ head ∈ w.begun, b.Fits head (framing head) w.accepted))

/-! ### Serving files -/

/-- The header fields of a file of `size` bytes. -/
def fileFields (size : Nat) (contentType lastModified : List Char) : Fields :=
  [(.contentLength, Nat.toDigits 10 size), (.other "Content-Type".toList, contentType),
    (.other "Last-Modified".toList, lastModified)]

/-- `serve_file()`, once it has found the file: what it does with response `i`, after the request
has been read to its end, if submitting completes with `ec`. The method of the request plays no part
in this. -/
def serveFile (i : Nat) (bytes : List UInt8) (contentType lastModified date : List Char)
    (ec : ErrorCode) : List Action :=
  .submit i 200 (fileFields bytes.length contentType lastModified) date ::
    if ec = .success then [.write i bytes true] else []

end AnyHttp.H1
