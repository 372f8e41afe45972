import AnyHttp.Detect
import Mathlib.Data.List.Infix

/-!
# What a client speaks does not depend on how its bytes arrive

`startsWith` is the three-valued test whether a text starts with another one, and `speaks` is what a
stream is taken for, both without any mention of pieces.

* `bufferSequenceStartsWith_eq`: the test over a sequence of buffers.
* `detect_speaks`: the loop over the reads, whatever they are, and what it leaves where.
-/

namespace AnyHttp.Detect

open Lib

/-! ### Whether a text starts with another one -/

/-- Whether a text starts with `wanted`; `none` if there is not enough of it yet to tell. -/
def startsWith (s wanted : List UInt8) : Option Bool :=
  if wanted <+: s then some true else if s <+: wanted then none else some false

theorem startsWith_append_append (p s wanted : List UInt8) :
    startsWith (p ++ s) (p ++ wanted) = startsWith s wanted := by
  simp only [startsWith, List.prefix_append_right_inj]

/-- Once it is told, what follows does not matter. -/
theorem startsWith_append {s wanted : List UInt8} {told : Bool}
    (h : startsWith s wanted = some told) (t : List UInt8) :
    startsWith (s ++ t) wanted = some told := by
  unfold startsWith at h ⊢
  by_cases hs : wanted <+: s
  · rw [if_pos hs] at h
    rw [if_pos (hs.trans (List.prefix_append s t))]
    exact h
  · rw [if_neg hs] at h
    by_cases hshort : s <+: wanted
    · rw [if_pos hshort] at h
      exact nomatch h
    · rw [if_neg hshort] at h
      have hlong : ¬ s ++ t <+: wanted := fun ht => hshort ((List.prefix_append s t).trans ht)
      have hst : ¬ wanted <+: s ++ t := by
        intro hw
        -- of two texts that one starts with, one starts with the other
        rcases List.prefix_or_prefix_of_prefix hw (List.prefix_append s t) with hp | hp
        · exact hs hp
        · exact hshort hp
      rw [if_neg hst, if_neg hlong]
      exact h

/-- A text that differs from what it is compared with. -/
theorem startsWith_of_ne {b wanted : List UInt8} {n : Nat} (hb : n ≤ b.length)
    (hwanted : n ≤ wanted.length) (hne : b.take n ≠ wanted.take n) (s : List UInt8) :
    startsWith (b ++ s) wanted = some false := by
  have hdiffer : ∀ t, b.take n ++ t <+: wanted → False := by
    intro t ht
    apply hne
    have htake := List.prefix_iff_eq_take.mp ((List.prefix_append _ t).trans ht)
    rw [List.length_take, Nat.min_eq_left hb] at htake
    exact htake
  have hsplit : b ++ s = b.take n ++ (b.drop n ++ s) := by
    rw [← List.append_assoc, List.take_append_drop]
  unfold startsWith
  rw [if_neg, if_neg]
  · rw [hsplit]
    exact hdiffer _
  · intro hw
    apply hne
    have htake := (List.take_prefix n wanted).trans hw
    rw [hsplit] at htake
    have heq := List.prefix_iff_eq_take.mp htake
    rw [List.length_take, Nat.min_eq_left hwanted,
      List.take_append_of_le_length (by rw [List.length_take]; omega), List.take_take,
      Nat.min_self] at heq
    exact heq.symm

theorem startsWithFrom_eq (wanted : List UInt8) (matched : Nat) (buffers : List (List UInt8))
    (h : matched ≤ wanted.length) :
    startsWithFrom wanted matched buffers = startsWith buffers.flatten (wanted.drop matched) := by
  have hall : ∀ s, startsWith s (wanted.drop wanted.length) = some true := by
    intro s
    rw [List.drop_length]
    exact if_pos List.nil_prefix
  induction buffers generalizing matched with
  | nil =>
    rw [startsWithFrom, List.flatten_nil]
    by_cases hend : matched = wanted.length
    · rw [if_pos hend, hend, hall]
    · have hrest : ¬ wanted.drop matched <+: [] := by
        rw [List.prefix_nil, List.drop_eq_nil_iff]
        omega
      rw [if_neg hend, startsWith, if_neg hrest, if_pos List.nil_prefix]
  | cons buffer buffers ih =>
    rw [startsWithFrom, List.flatten_cons]
    by_cases hlt : matched < wanted.length
    · rw [if_pos hlt]
      by_cases hempty : buffer.length = 0
      · rw [if_pos hempty, ih matched h, List.length_eq_zero_iff.mp hempty, List.nil_append]
      · rw [if_neg hempty]
        dsimp only
        obtain ⟨n, hn⟩ : ∃ n, n = min buffer.length (wanted.length - matched) := ⟨_, rfl⟩
        have hnb : n ≤ buffer.length := by omega
        have hnw : n ≤ (wanted.drop matched).length := by
          rw [List.length_drop]
          omega
        rw [← hn]
        by_cases hne : buffer.take n = (wanted.drop matched).take n
        · -- what has been compared is the same on both sides
          have hbuffer : buffer ++ buffers.flatten =
              buffer.take n ++ (buffer.drop n ++ buffers.flatten) := by
            rw [← List.append_assoc, List.take_append_drop]
          have hwanted : wanted.drop matched = buffer.take n ++ wanted.drop (matched + n) := by
            rw [hne, ← List.drop_drop, List.take_append_drop]
          rw [if_neg (fun h => h hne), ih (matched + n) (by omega), hbuffer, hwanted,
            startsWith_append_append]
          by_cases hshort : n = buffer.length
          · rw [hshort, List.drop_length, List.nil_append]
          · have hend : matched + n = wanted.length := by omega
            rw [hend, hall, hall]
        · rw [if_pos hne, startsWith_of_ne hnb hnw hne]
    · have hend : matched = wanted.length := by omega
      rw [if_neg hlt, if_pos hend, hend, hall]

/-- Empty buffers or not, and wherever one ends. -/
theorem bufferSequenceStartsWith_eq (buffers : List (List UInt8)) (wanted : List UInt8) :
    bufferSequenceStartsWith buffers wanted = startsWith buffers.flatten wanted := by
  rw [bufferSequenceStartsWith, startsWithFrom_eq wanted 0 buffers (Nat.zero_le _), List.drop_zero]

/-! ### The loop -/

/-- What a stream is taken for: TLS if it starts with a handshake record, and otherwise by the
client preface, if it doesn't end before that is told.  A stream that hasn't ended yet may leave it
open. -/
def speaks (stream : List UInt8) (ended : Option ErrorCode) : Option (Except ErrorCode Detected) :=
  if stream.head? = some 0x16 then some (.ok .tls)
  else
    match startsWith stream preface with
    | some true => some (.ok .h2c)
    | some false => some (.ok .h1)
    | none => ended.map .error

/-- What `detect()` says. -/
def Detection.verdict (d : Detection) : Except ErrorCode Detected :=
  if d.ec = .success then .ok d.detected else .error d.ec

/-- What is left in the buffer is what has been read, and the last read was still needed. -/
structure Detection.Keeps (d : Detection) (stream : List UInt8) : Prop where
  conserved : d.buffer ++ d.socket.stream = stream
  needed : d.buffer = [] ∨ ∃ before read socket, d.buffer = before ++ read ∧
    startsWith before preface = none ∧ Socket.readSome socket 1459 = some (.ok read, d.socket)

/-- The loop of `detect()` tells from `stream`, which is the buffer and what follows it, what
`speaks` says of it (but for TLS), and keeps all of it. -/
structure LoopSpeaks (stream : List UInt8) (ended : Option ErrorCode) (r : Option Detection) :
    Prop where
  told : r.map Detection.verdict =
    match startsWith stream preface with
    | some true => some (.ok .h2c)
    | some false => some (.ok .h1)
    | none => ended.map .error
  keeps : ∀ d ∈ r, d.Keeps stream

/-- When a pass begins, nothing has been read yet, or what had been read before the last read did
not tell a preface from anything else. -/
def ReadNeeded (x : List UInt8 × Socket) : Prop :=
  x.1 = [] ∨ ∃ before read socket, x.1 = before ++ read ∧
    startsWith before preface = none ∧ Socket.readSome socket 1459 = some (.ok read, x.2)

theorem readSome_none {s : Socket} {room : Nat} (h : s.readSome room = none) :
    s.stream = [] ∧ s.ended = none := by
  unfold Socket.readSome at h
  split at h
  · rename_i hs
    refine ⟨?_, Option.map_eq_none_iff.mp h⟩
    rw [Socket.stream, hs, List.flatten_nil]
  · split at h
    · cases h
    · cases h

theorem readSome_error {s s' : Socket} {room : Nat} {ec : ErrorCode}
    (h : s.readSome room = some (.error ec, s')) :
    s.stream = [] ∧ s.ended = some ec ∧ s' = s := by
  unfold Socket.readSome at h
  split at h
  · rename_i hs
    obtain ⟨code, hended, hcode⟩ := Option.map_eq_some_iff.mp h
    obtain ⟨hec, rfl⟩ := Prod.mk.inj hcode
    refine ⟨?_, hended.trans (congrArg some (Except.error.inj hec)), rfl⟩
    rw [Socket.stream, hs, List.flatten_nil]
  · split at h
    · cases h
    · cases h

/-- The end of a stream is an error. -/
theorem verdict_error {ec : ErrorCode} (h : ec ≠ .success) (buffer : List UInt8) (s : Socket) :
    Detection.verdict ⟨ec, .h1, buffer, s⟩ = .error ec :=
  if_neg h

/-- The loop, from any buffer that still has to be told from the preface. -/
theorem loop_speaks (x : List UInt8 × Socket) (hread : ReadNeeded x) :
    LoopSpeaks (x.1 ++ x.2.stream) x.2.ended (loop detectPass_variant x) := by
  refine loop_induction detectPass_variant
    (P := fun x r => ReadNeeded x → LoopSpeaks (x.1 ++ x.2.stream) x.2.ended r) ?_ ?_ x hread
  · -- another read
    intro x y hpass hright _
    obtain ⟨hnone, read, hread, hbuffer⟩ := detectPass_inl hpass
    obtain ⟨hstream, _, _, hended⟩ := stream_readSome hread
    rw [bufferSequenceStartsWith_eq, List.flatten_singleton] at hnone
    have hy := hright (.inr ⟨x.1, read, x.2, hbuffer, hnone, hread⟩)
    rw [hbuffer, List.append_assoc, ← hstream, hended] at hy
    exact hy
  · rintro ⟨buffer, socket⟩ r hpass hread
    have hkeeps : ∀ ec detected,
        Detection.Keeps ⟨ec, detected, buffer, socket⟩ (buffer ++ socket.stream) :=
      fun ec detected => ⟨rfl, hread⟩
    unfold detectPass at hpass
    dsimp only at hpass ⊢
    rw [bufferSequenceStartsWith_eq, List.flatten_singleton] at hpass
    split at hpass
    · rename_i htold
      obtain rfl := Sum.inr.inj hpass
      constructor
      · rw [startsWith_append htold]
        rfl
      · rintro d ⟨⟩
        exact hkeeps _ _
    · rename_i htold
      obtain rfl := Sum.inr.inj hpass
      constructor
      · rw [startsWith_append htold]
        rfl
      · rintro d ⟨⟩
        exact hkeeps _ _
    · rename_i hnone
      split at hpass
      · -- waiting for more
        rename_i hwait
        obtain ⟨hstream, hended⟩ := readSome_none hwait
        obtain rfl := Sum.inr.inj hpass
        constructor
        · rw [hstream, List.append_nil, hnone, hended]
          rfl
        · exact fun d hd => nomatch hd
      · -- the end of the stream
        rename_i ec socket' herror
        obtain ⟨hstream, hended, rfl⟩ := readSome_error herror
        obtain rfl := Sum.inr.inj hpass
        have hec : ec ≠ .success := fun h => socket'.ended_ne_success (h ▸ hended)
        constructor
        · rw [hstream, List.append_nil, hnone, hended]
          exact congrArg some (verdict_error hec buffer socket')
        · rintro d ⟨⟩
          exact hkeeps _ _
      · exact nomatch hpass

/-- **What a client speaks is told from the stream alone**, however it is split: TLS by its first
byte, and everything else by the client preface, as soon as that is told.  The buffer holds what has
been read, in order, and nothing in the case of TLS; and the test over a sequence of buffers is that
over all they hold. -/
theorem detect_speaks :
    (∀ buffers wanted,
      bufferSequenceStartsWith buffers wanted = startsWith buffers.flatten wanted) ∧
    ∀ socket, (detect socket []).map Detection.verdict = speaks socket.stream socket.ended ∧
      ∀ d ∈ detect socket [], d.Keeps socket.stream ∧
        (d.verdict = .ok .tls → d.buffer = []) := by
  refine ⟨bufferSequenceStartsWith_eq, ?_⟩
  intro socket
  have hempty : ReadNeeded ([], socket) := .inl rfl
  unfold detect Socket.peek speaks
  cases hstream : socket.stream with
  | nil =>
    have hnone : startsWith [] preface = none := by decide
    rw [hnone]
    rcases hended : socket.ended with _ | ec
    · exact ⟨rfl, fun d hd => nomatch hd⟩
    · have hec : ec ≠ .success := fun h => socket.ended_ne_success (h ▸ hended)
      refine ⟨congrArg some (verdict_error hec [] socket), ?_⟩
      rintro d ⟨⟩
      exact ⟨⟨hstream, .inl rfl⟩, fun _ => rfl⟩
  | cons c rest =>
    have hright := loop_speaks ([], socket) hempty
    rw [List.nil_append, hstream] at hright
    rw [List.head?_cons]
    dsimp only
    by_cases hc : c = 0x16
    · rw [hc, if_pos rfl, if_pos rfl]
      refine ⟨rfl, ?_⟩
      rintro d ⟨⟩
      rw [hc] at hstream
      exact ⟨⟨hstream, .inl rfl⟩, fun _ => rfl⟩
    · have hfirst : ¬ [c] = [0x16] := fun h => hc (List.cons.inj h).1
      have hhead : ¬ some c = some 0x16 := fun h => hc (Option.some.inj h)
      rw [if_neg hfirst, if_neg hhead]
      refine ⟨hright.told, fun d hd => ⟨hright.keeps d hd, ?_⟩⟩
      intro htls
      -- the loop has no such result
      have htold := hright.told
      rw [Option.mem_def.mp hd, Option.map_some, htls] at htold
      split at htold
      · exact nomatch htold
      · exact nomatch htold
      · obtain ⟨ec, _, h⟩ := Option.map_eq_some_iff.mp htold.symm
        exact nomatch h

/-- A request in two pieces, the first of which might still be the preface. -/
example : speaks (text "P" ++ text "OST / HTTP/1.1") none = some (.ok .h1) := by decide

end AnyHttp.Detect
