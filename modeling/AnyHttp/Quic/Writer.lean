import AnyHttp.Quic.Driver

/-!
# `QuicWriter`: the writing adapter of a stream

`Stream` has what the user does through the adapter as long as there is a stream.  A `QuicWriter`
goes on after that: when the stream is destroyed, `detach()` remembers whether the body was ended
and its FIN handed over, and later writes are answered from that.
-/

namespace AnyHttp.Quic

namespace QuicStream

/-- What `start_write()` answers right away; a write without an answer begins, or adopts the FIN
that is pending. -/
def writeAnswer (q : QuicStream) (buffer : List UInt8) (eof : Bool) : Option ErrorCode :=
  if buffer = [] ∧ eof = false then some .success
  else if q.tx.eofSubmitted then
    if buffer ≠ [] then some .brokenPipe
    else if q.tx.writeActive && q.tx.writeIsEof && !q.sendingOver then none
    else some (if q.sendingOver && !q.tx.finOffered then .connectionReset else .success)
  else if q.sendingOver then some .connectionReset
  else none

/-- With an answer, that is all `start_write()` does. -/
theorem startWrite_of_writeAnswer {q : QuicStream} {buffer : List UInt8} {eof : Bool}
    {ec : ErrorCode} (hanswer : q.writeAnswer buffer eof = some ec) (h : Option Handler) :
    q.startWrite h buffer eof = q.completeWrite h ec := by
  unfold writeAnswer at hanswer
  unfold startWrite
  split_ifs at hanswer with h₁ h₂ h₃ h₄ h₅ <;> cases hanswer
  · rw [if_pos h₁]
  · rw [if_neg h₁, if_pos h₂, if_pos h₃]
  · rw [if_neg h₁, if_pos h₂, if_neg h₃, if_neg h₄, if_pos h₅]
  · rw [if_neg h₁, if_pos h₂, if_neg h₃, if_neg h₄, if_neg h₅]
  · rw [if_neg h₁, if_neg h₂, if_pos (by assumption)]

end QuicStream

/-- The writing adapter, seen from the user. -/
inductive WriterHandle
  | attached
  /-- With `detached_body_ended`. -/
  | detached (bodyEnded : Bool)
  | released
deriving DecidableEq, Repr

structure QuicWriter where
  stream : Stream
  handle : WriterHandle := .attached
deriving DecidableEq, Repr

namespace QuicWriter

/-- `async_write()`, as far as it answers right away. -/
def writeAnswer (w : QuicWriter) (buffer : List UInt8) (eof : Bool) : Option ErrorCode :=
  match w.handle with
  | .detached bodyEnded =>
    if buffer = [] ∧ eof = false then some .success
    else if bodyEnded then some (if buffer = [] then .success else .brokenPipe)
    else some .connectionReset
  | _ => w.stream.q.writeAnswer buffer eof

/-- `detach()`, from the destructor of the stream. -/
def detach (w : QuicWriter) : WriterHandle :=
  match w.handle with
  | .attached => .detached (w.stream.q.tx.eofSubmitted && w.stream.q.tx.finOffered)
  | handle => handle

def onStream (w : QuicWriter) (a : Act) (handle : WriterHandle) : Option QuicWriter :=
  (w.stream.step a).map fun m => { stream := m, handle := handle }

def step (w : QuicWriter) (a : Act) : Option QuicWriter :=
  match a with
  | .startWrite _ _ _ =>
    -- a write that comes after the stream does not reach it
    match w.handle with
    | .attached => w.onStream a .attached
    | .detached _ => some w
    | .released => none
  | .dropWriter =>
    match w.handle with
    | .attached => w.onStream a .released
    | .detached _ => some { w with handle := .released }
    | .released => none
  | .destroy => w.onStream a w.detach
  | _ => w.onStream a w.handle

def init (kind : Kind) (mode : WriteMode) (headersSubmitted : Bool) : QuicWriter :=
  { stream := Stream.init kind mode headersSubmitted }

end QuicWriter

end AnyHttp.Quic
