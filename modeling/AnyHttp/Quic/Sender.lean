import AnyHttp.Quic.Driver

/-!
# The sending side, on its own

What the runs of a stream come down to for the outgoing body.  A `Sender` is the part of a `Stream`
that has to do with sending; `Sender.Step s calls s'` says what can happen to it, with the calls
about writing that are made on the way.  The conditions of the steps are the ones the code checks,
or has from its callers, and no more than what the invariants need of them: a `flags` step, for
instance, does not say why the stream was closed.

`Quic/Equiv/Simulation.lean` proves that every action on a stream is the beginning of a write or a
sequence of these steps (a `Turn`), so that what they preserve holds of every stream.
-/

namespace AnyHttp.Quic

open Lib

structure Sender where
  kind : Kind
  mode : WriteMode
  tx : Outgoing
  closed : Bool
  writeAborted : Bool
  writer : Bool
  destroyed : Bool
  writes : List WriteRec
  offers : List Offer
  wire : List Bool
  sent : Nat
deriving DecidableEq, Repr

/-- The sending side of a stream. -/
def Stream.sender (m : Stream) : Sender where
  kind := m.q.kind
  mode := m.q.writeMode
  tx := m.q.tx
  closed := m.q.closed
  writeAborted := m.q.writeAborted
  writer := m.q.writer
  destroyed := m.destroyed
  writes := m.writes
  offers := m.offers
  wire := m.wire
  sent := m.sent

/-- The active write is done, as far as it does not have to wait for an acknowledgement: a bare
end-of-body that is handed over, or a staged write that is in packets as a whole. -/
def Outgoing.Done (mode : WriteMode) (t : Outgoing) : Prop :=
  t.writeSource = [] ∧ t.finOffered = true ∨
    mode = .staged ∧ t.writeSource ≠ [] ∧ t.txQueued ≤ t.txSent ∧
      t.writeCopied = t.writeSource.length

namespace Sender

/-- The stream has been closed, or its sending side reset. -/
def isOver (s : Sender) : Bool := s.closed || s.writeAborted

/-- The number of bytes of the body that have gone into packets. -/
def bodySent (s : Sender) : Nat := (s.wire.take s.sent).count true

/-- The call that completes a write handler, unless it is empty. -/
def completion (h : Option Handler) (ec : ErrorCode) : List Call :=
  h.toList.map fun h => .completeWrite h ec

/-- The call that binds the cancellation of the write with this token. -/
def binding (h : Option Handler) (token : Nat) : List Call :=
  h.toList.map fun h => .onCancel h (.write token)

/-- The vecs for what is not handed over yet, and where they end. -/
def vecs (s : Sender) (room : Nat) : List IoVec × Nat :=
  (s.tx.carve s.mode).sourceVecs s.mode s.tx.txOffered room

/-- Whether these vecs end the body. -/
def fin (s : Sender) (room : Nat) : Bool := (s.tx.carve s.mode).endsAt s.mode (s.vecs room).2

/-- `n` bytes of what was not handed over yet are. A plain stream hands its bytes to packets
directly. -/
def taken (s : Sender) (n : Nat) (fin : Bool) : Outgoing :=
  let t := (s.tx.carve s.mode).offered (s.tx.txOffered + n) fin
  if s.kind = .http3 then t else t.sent (s.tx.txOffered + n)

/-- Anything but what the user does with a new write, or with one that carries data. -/
inductive Step : Sender → List Call → Sender → Prop
  /-- The stream is closed or reset, or the writer dropped. -/
  | flags (s : Sender) (closed writeAborted writer : Bool)
      (hclosed : s.closed = true → closed = true)
      (haborted : s.writeAborted = true → writeAborted = true)
      (hwriter : writer = true → s.writer = true)
      (hdrop : s.writer = true → writer = false →
        (closed || writeAborted) = true ∨ s.tx.eofSubmitted = true) :
      Step s [] { s with closed := closed, writeAborted := writeAborted, writer := writer }
  /-- HTTP/3's own bytes on the stream: headers, trailers, frame headers. -/
  | framing (s : Sender) (n : Nat) (hkind : s.kind = .http3) :
      Step s [] { s with wire := s.wire ++ List.replicate n false }
  /-- A bare end-of-body loses its handler. -/
  | detach (s : Sender) (h : Handler) (hhandler : s.tx.writeHandler = some h)
      (heof : s.tx.writeIsEof = true) (hbare : s.tx.writeSource = []) :
      Step s (completion (some h) .canceled) { s with tx := { s.tx with writeHandler := none } }
  /-- The end of a write on a stream that does not send any more. -/
  | release (s : Sender) (ec : ErrorCode) (hover : s.isOver = true)
      (hactive : s.tx.writeActive = true) :
      Step s (completion s.tx.writeHandler ec) { s with tx := s.tx.release }
  | destroy (s : Sender) :
      Step s (completion s.tx.writeHandler .connectionReset)
        { s with
          writer := false
          destroyed := true
          tx := { s.tx with writeHandler := none } }
  /-- `pending_data()` of a stream that does not send any more, or without room for anything. -/
  | nothing (s : Sender) :
      Step s [] { s with offers := s.offers ++ [⟨s.tx.txOffered, [], false, 0⟩] }
  /-- `pending_data()`, and the stack takes nothing; nghttp3 does that only if there is nothing. -/
  | poll (s : Sender) (room : Nat) (hroom : 0 < room) (hover : s.isOver = false)
      (hhttp3 : s.kind = .http3 → (s.vecs room).1 = []) :
      Step s []
        { s with
          tx := s.tx.carve s.mode
          offers := s.offers ++ [⟨s.tx.txOffered, (s.vecs room).1, s.fin room, 0⟩] }
  /-- `pending_data()`, and the stack takes the first `n` bytes, the FIN only with the last. -/
  | take (s : Sender) (room n header : Nat) (hroom : 0 < room) (hover : s.isOver = false)
      (hn : n ≤ vecLen (s.vecs room).1)
      (hplain : s.kind ≠ .http3 → header = 0)
      (hhttp3 : s.kind = .http3 → n = vecLen (s.vecs room).1) :
      Step s []
        { s with
          tx := s.taken n (s.fin room && n == vecLen (s.vecs room).1)
          offers := s.offers ++ [⟨s.tx.txOffered, (s.vecs room).1, s.fin room, n⟩]
          wire := s.wire ++ List.replicate header false ++ List.replicate n true
          sent := if s.kind = .http3 then s.sent else s.sent + n }
  /-- HTTP/3: the next `n` bytes on the stream, whatever they are, go into a packet. -/
  | packet (s : Sender) (n : Nat) (hkind : s.kind = .http3) (hn : s.sent + n ≤ s.wire.length) :
      Step s []
        { s with
          tx := s.tx.sent (s.tx.txSent + n)
          sent := s.sent + n }
  | finish (s : Sender) (hactive : s.tx.writeActive = true) (hdone : s.tx.Done s.mode) :
      Step s (completion s.tx.writeHandler .success) { s with tx := s.tx.release }
  | acked (s : Sender) (stop : Nat) (hold : s.tx.txAcked < stop) (hstop : stop ≤ s.bodySent)
      (hmore : s.mode = .zeroCopy → s.tx.writeActive = true → s.tx.writeSource ≠ [] →
        stop < s.tx.writeBase + s.tx.writeSource.length) :
      Step s [] { s with tx := s.tx.acked stop }
  /-- Acknowledgement of the last byte of a zero-copy write. -/
  | ackedLast (s : Sender) (stop : Nat) (hmode : s.mode = .zeroCopy)
      (hactive : s.tx.writeActive = true) (hdata : s.tx.writeSource ≠ [])
      (hstop : stop ≤ s.bodySent)
      (hlast : s.tx.writeBase + s.tx.writeSource.length ≤ stop) :
      Step s (completion s.tx.writeHandler .success)
        { s with tx := (s.tx.acked stop).release }

/-- Any number of steps, with all the calls they make. -/
inductive Steps : Sender → List Call → Sender → Prop
  | refl (s : Sender) : Steps s [] s
  | cons {s t u : Sender} {cs ds : List Call} :
      Step s cs t → Steps t ds u → Steps s (cs ++ ds) u

/-- A new write, and its record. -/
def begin (s : Sender) (h : Option Handler) (buffer : List UInt8) (eof : Bool) : Sender :=
  { s with
    tx := s.tx.begin s.mode h buffer eof
    writes := s.writes ++
      [⟨s.tx.nextWriteToken, h, s.tx.txQueued, buffer, eof, buffer.length, false⟩] }

/-- The active write is cancelled, and its record keeps what is queued of it. -/
def cancel (s : Sender) : Sender :=
  { s with
    tx := s.tx.cancel s.mode
    writes := Stream.abandon (s.tx.cancel s.mode).txQueued s.writes }

/-- The stream is closed or reset. -/
def setOver (s : Sender) (closed writeAborted : Bool) : Sender :=
  { s with closed := closed, writeAborted := writeAborted }

/-- What one action does: a write is answered at once, adopts the FIN that is pending, or begins;
one that carries data is cancelled; or any number of steps. -/
inductive Turn : Sender → Act → List Call → Sender → Prop
  /-- A write that has nothing to do, or that comes too late. -/
  | refuse (s : Sender) (h : Option Handler) (buffer : List UInt8) (eof : Bool) (ec : ErrorCode)
      (hready : s.tx.writeActive = true → s.tx.writeHandler = none ∧ s.tx.writeSource = []) :
      Turn s (.startWrite h buffer eof) (completion h ec) s
  | adopt (s : Sender) (h : Option Handler) (buffer : List UInt8) (eof : Bool)
      (hwriter : s.writer = true) (hover : s.isOver = false) (hended : s.tx.eofSubmitted = true)
      (hbuffer : buffer = []) (hend : eof = true) (hactive : s.tx.writeActive = true)
      (heof : s.tx.writeIsEof = true)
      (hnone : s.tx.writeHandler = none) (hbare : s.tx.writeSource = []) :
      Turn s (.startWrite h buffer eof) (binding h s.tx.writeToken)
        { s with tx := { s.tx with writeHandler := h } }
  | begin (s : Sender) (h : Option Handler) (buffer : List UInt8) (eof : Bool)
      (hwriter : s.writer = true) (hover : s.isOver = false) (heof : s.tx.eofSubmitted = false)
      (hready : s.tx.writeActive = true → s.tx.writeHandler = none ∧ s.tx.writeSource = [])
      (hcarries : buffer ≠ [] ∨ eof = true) :
      Turn s (.startWrite h buffer eof) (binding h s.tx.nextWriteToken) (s.begin h buffer eof)
  | cancel (s : Sender) (closed writeAborted : Bool) (h : Handler)
      (hhandler : s.tx.writeHandler = some h)
      (hdata : ¬(s.tx.writeIsEof = true ∧ s.tx.writeSource = []))
      (hclosed : s.closed = true → closed = true)
      (haborted : s.writeAborted = true → writeAborted = true)
      (hheld : s.mode = .zeroCopy → s.tx.txAcked < s.tx.txOffered →
        (closed || writeAborted) = true)
      (hkeep : ¬(s.mode = .zeroCopy ∧ s.tx.txAcked < s.tx.txOffered) →
        closed = s.closed ∧ writeAborted = s.writeAborted) :
      Turn s (.cancelWrite s.tx.writeToken) (completion (some h) .canceled)
        (s.setOver closed writeAborted).cancel
  | steps {s s' : Sender} {a : Act} {cs : List Call} (h : Steps s cs s') : Turn s a cs s'

end Sender

end AnyHttp.Quic
