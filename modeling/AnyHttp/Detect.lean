import AnyHttp.Common
import AnyHttp.Lib.Loop

/-!
# Telling what a client speaks

`detect()` (`detail/detect.hpp`) peeks at the first byte that arrives on a new connection, and then
reads on until it can tell the client preface of HTTP/2 from anything else.

A `Socket` is what is going to arrive on it: the pieces that the reads find, none of them empty, and
the error the stream ends with.  A stream that does not end leaves an operation waiting.
-/

namespace AnyHttp

open Lib

namespace Detect

/-- What arrives on a socket, in pieces, and what its end is reported as, if there is one. -/
structure Socket where
  pieces : List (List UInt8)
  ended : Option ErrorCode
  piece_ne_nil : ∀ p ∈ pieces, p ≠ []
  ended_ne_success : ended ≠ some .success

/-- All of the bytes there are. -/
def Socket.stream (s : Socket) : List UInt8 := s.pieces.flatten

/-- `io::peek()` of a single byte, which stays where it is; `none` while there isn't any. -/
def Socket.peek (s : Socket) : Option (Except ErrorCode (List UInt8)) :=
  match s.stream with
  | c :: _ => some (.ok [c])
  | [] => s.ended.map .error

/-- `io::read_some()` into a buffer for `room + 1` bytes: a piece, or as much of it as fits. -/
def Socket.readSome (s : Socket) (room : Nat) : Option (Except ErrorCode (List UInt8) × Socket) :=
  match hs : s.pieces with
  | [] => s.ended.map fun ec => (.error ec, s)
  | p :: pieces =>
    -- the whole piece fits
    if hp : p.drop (room + 1) = [] then
      some (.ok p, { s with
        pieces := pieces
        piece_ne_nil := fun q hq => s.piece_ne_nil q (hs ▸ List.mem_cons_of_mem p hq) })
    else
      some (.ok (p.take (room + 1)), { s with
        pieces := p.drop (room + 1) :: pieces
        piece_ne_nil := fun q hq => (List.mem_cons.mp hq).elim (fun h => h ▸ hp)
          fun h => s.piece_ne_nil q (hs ▸ List.mem_cons_of_mem p h) })

/-- The loop of `buffer_sequence_starts_with()`, `matched` bytes of `wanted` into it. -/
def startsWithFrom (wanted : List UInt8) : Nat → List (List UInt8) → Option Bool
  | matched, [] => if matched = wanted.length then some true else none
  | matched, buffer :: buffers =>
    if matched < wanted.length then
      -- an empty buffer says nothing
      if buffer.length = 0 then startsWithFrom wanted matched buffers
      else
        let toCompare := min buffer.length (wanted.length - matched)
        -- one byte that differs decides it
        if buffer.take toCompare ≠ (wanted.drop matched).take toCompare then some false
        else startsWithFrom wanted (matched + toCompare) buffers
    else if matched = wanted.length then some true
    else none

/-- `buffer_sequence_starts_with()`; `none` is for "indeterminate". -/
def bufferSequenceStartsWith (buffers : List (List UInt8)) (wanted : List UInt8) : Option Bool :=
  startsWithFrom wanted 0 buffers

inductive Detected
  | tls
  | h2c
  | h1
deriving DecidableEq, Repr

/-- The client preface of HTTP/2. -/
def preface : List UInt8 := text "PRI * HTTP/2.0\r\n\r\nSM\r\n\r\n"

/-- What `detect()` returns, the buffer it has read into, and the socket as it leaves it. -/
structure Detection where
  ec : ErrorCode
  detected : Detected
  buffer : List UInt8
  socket : Socket

/-- One pass of the loop of `detect()`; `none` if it is left waiting for the socket. -/
def detectPass : List UInt8 × Socket → (List UInt8 × Socket) ⊕ Option Detection
  | (buffer, socket) =>
    -- the data of a flat buffer is a single one
    match bufferSequenceStartsWith [buffer] preface with
    | some true => .inr (some ⟨.success, .h2c, buffer, socket⟩)
    | some false => .inr (some ⟨.success, .h1, buffer, socket⟩)
    | none =>
      -- what is there is the beginning of the preface, so more is needed
      match socket.readSome 1459 with
      | none => .inr none
      | some (.error ec, socket) => .inr (some ⟨ec, .h1, buffer, socket⟩)
      | some (.ok read, socket) => .inl (buffer ++ read, socket)

/-- What is read is gone from the socket, and it is something. -/
theorem stream_readSome {s s' : Socket} {room : Nat} {read : List UInt8}
    (h : s.readSome room = some (.ok read, s')) :
    s.stream = read ++ s'.stream ∧ read ≠ [] ∧ read.length ≤ room + 1 ∧ s'.ended = s.ended := by
  unfold Socket.readSome at h
  split at h
  · rcases hended : s.ended with _ | ec
    · rw [hended] at h
      exact nomatch h
    · rw [hended] at h
      exact nomatch h
  · rename_i p pieces hs
    have hp : p ≠ [] := s.piece_ne_nil p (hs ▸ List.mem_cons_self)
    have hstream : s.stream = p ++ pieces.flatten := by
      rw [Socket.stream, hs, List.flatten_cons]
    split at h
    · rename_i hdrop
      obtain ⟨hread, rfl⟩ := Prod.mk.inj (Option.some.inj h)
      obtain rfl := Except.ok.inj hread
      exact ⟨hstream, hp, List.drop_eq_nil_iff.mp hdrop, rfl⟩
    · obtain ⟨hread, rfl⟩ := Prod.mk.inj (Option.some.inj h)
      obtain rfl := Except.ok.inj hread
      refine ⟨?_, ?_, List.length_take_le (room + 1) p, rfl⟩
      · show s.stream = p.take (room + 1) ++ (p.drop (room + 1) :: pieces).flatten
        rw [hstream, List.flatten_cons, ← List.append_assoc, List.take_append_drop]
      · rw [Ne, List.take_eq_nil_iff]
        exact fun h => h.elim (Nat.succ_ne_zero room) hp

theorem detectPass_inl {x y : List UInt8 × Socket} (h : detectPass x = .inl y) :
    bufferSequenceStartsWith [x.1] preface = none ∧
      ∃ read, x.2.readSome 1459 = some (.ok read, y.2) ∧ y.1 = x.1 ++ read := by
  obtain ⟨buffer, socket⟩ := x
  unfold detectPass at h
  dsimp only at h ⊢
  split at h
  · exact nomatch h
  · exact nomatch h
  · rename_i hnone
    split at h
    · exact nomatch h
    · exact nomatch h
    · rename_i read socket' hread
      cases h
      exact ⟨hnone, read, hread, rfl⟩

theorem detectPass_variant : Variant detectPass (fun x => x.2.stream.length) := by
  intro x y h
  obtain ⟨_, read, hread, _⟩ := detectPass_inl h
  obtain ⟨hstream, hne, _, _⟩ := stream_readSome hread
  have hpos := List.length_pos_iff.mpr hne
  show y.2.stream.length < x.2.stream.length
  rw [hstream, List.length_append]
  omega

/-- `detect()`, with what is in the buffer by then. -/
def detect (socket : Socket) (buffer : List UInt8) : Option Detection :=
  match socket.peek with
  | none => none
  | some (.error ec) => some ⟨ec, .h1, buffer, socket⟩
  | some (.ok first) =>
    if first = [0x16] then some ⟨.success, .tls, buffer, socket⟩
    else loop detectPass_variant (buffer, socket)

end Detect

end AnyHttp
