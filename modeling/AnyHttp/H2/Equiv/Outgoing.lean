import AnyHttp.H2.Equiv.Reading

/-!
# The outgoing body

What nghttp2 is given is the concatenation of what it has taken of the writes, with either version,
and by copy or by reference: the body (`body_handed_over`).  A write is in one of two states: it is
over (`Over`), or it is the one that the stream works on (`Waiting`).
-/

namespace AnyHttp.H2.Stream

open Lib

variable {m t : Stream} {a : Action} {ws : List WriteRec} {w : WriteRec} {cur : Option WriteRec}

/-- What nghttp2 has taken of a write. -/
def takenOf (w : WriteRec) : List UInt8 := w.buffer.take w.taken

/-- A write that has completed. -/
structure Over (backend : Backend) (w : WriteRec) : Prop where
  result : w.result.isSome = true
  le : w.taken ≤ w.buffer.length
  settled : w.settled = w.taken
  success : w.result = some .success → w.taken = w.buffer.length ∧ (w.eof = true → w.ended = true)
  ended : w.ended = true → w.eof = true ∧ w.taken = w.buffer.length
  /-- The buffer is the caller's again only when nghttp2 does not read from it any more. -/
  released : backend = .v2 .zeroCopy → w.outstanding = 0 ∨ w.closed = true

/-- The write that is waiting. -/
structure Waiting (m : Stream) (w : WriteRec) : Prop where
  result : w.result = none
  le : w.taken ≤ w.buffer.length
  position : if m.backend = .v1 then m.tx.writeBuffer = w.buffer.drop w.taken
    else m.tx.writeBuffer = w.buffer ∧ m.tx.offered = w.taken
  requested : m.tx.eofRequested = w.eof
  submitted : m.tx.eofSubmitted = w.ended
  ended : w.ended = true → w.eof = true ∧ w.taken = w.buffer.length
  written : m.tx.written ≤ m.tx.offered

/-- Version 2 has the buffer of the write that waits, and has been given it up to `offered`. -/
theorem Waiting.position_v2 (hw : Waiting m w) (hb : m.backend ≠ .v1) :
    m.tx.writeBuffer = w.buffer ∧ m.tx.offered = w.taken := by
  have hposition := hw.position
  rwa [if_neg hb] at hposition

/-- The writes so far: those that are over, and the one that is waiting, if any. -/
structure Sending (m : Stream) (ws : List WriteRec) (cur : Option WriteRec) : Prop where
  writes : m.writes = ws ++ cur.toList
  handed : m.handed = m.writes.flatMap takenOf
  past : ∀ w ∈ ws, Over m.backend w
  idle : m.tx.writeHandler.isSome = cur.isSome
  waiting : ∀ w ∈ cur, Waiting m w
  unrequested : m.tx.eofRequested = false → ∀ w ∈ m.writes, w.eof = false
  unsubmitted : m.tx.eofSubmitted = false → m.ended = none ∧ ∀ w ∈ m.writes, w.ended = false
  submitted : m.tx.eofSubmitted = true → m.tx.eofRequested = true ∧
    m.ended = some m.handed.length ∧ ∃ w ∈ m.writes.getLast?, w.ended = true
  /-- By reference, what is not framed is outstanding. -/
  framed : m.backend = .v2 .zeroCopy → m.closed = false → m.destroyed = false →
    m.framed + (m.tx.offered - m.tx.written) = m.handed.length ∧
      (cur = none → m.framed = m.handed.length)

/-- Nothing has been written to a new stream. -/
theorem sending_fresh (hm : Fresh m) : Sending m [] none := by
  obtain ⟨_, _, rfl | rfl⟩ := hm
  · exact ⟨rfl, rfl, by simp, rfl, by simp, by simp [client], by simp [client], by simp [client],
      fun _ _ _ => ⟨rfl, fun _ => rfl⟩⟩
  · exact ⟨rfl, rfl, by simp, rfl, by simp, by simp [server], by simp [server], by simp [server],
      fun _ _ _ => ⟨rfl, fun _ => rfl⟩⟩

/-- The outgoing body, but for what there is to tell nghttp2. -/
def outgoing (m : Stream) :
    Backend × Outgoing × List WriteRec × List UInt8 × Option Nat × Nat :=
  (m.backend, { m.tx with isDeferred := false, writeCancelled := false }, m.writes, m.handed,
    m.ended,
    m.framed)

/-- Nothing of the outgoing body changes, and the stream may be closed. -/
structure SameOut (m t : Stream) : Prop where
  outgoing : t.outgoing = m.outgoing
  closed : t.closed = false → m.closed = false
  destroyed : t.destroyed = false → m.destroyed = false

/-- What leaves the outgoing body alone leaves its invariant alone, ... -/
theorem sameOut_of (houtgoing : t.outgoing = m.outgoing) (hclosed : t.closed = m.closed)
    (hdestroyed : t.destroyed = m.destroyed) : SameOut m t :=
  ⟨houtgoing, fun h => hclosed ▸ h, fun h => hdestroyed ▸ h⟩

/-- ... and neither is the stream deferred or resumed, nor the writing adapter moved. -/
structure Untouched (m t : Stream) : Prop extends SameOut m t where
  deferred : t.tx.isDeferred = m.tx.isDeferred
  writer : t.writer = m.writer
  writerHandle : t.writerHandle = m.writerHandle

/-- ... and if it leaves the writing adapter alone as well, everything about writing. -/
theorem untouched_of (houtgoing : t.outgoing = m.outgoing) (hclosed : t.closed = m.closed)
    (hdestroyed : t.destroyed = m.destroyed) (hdeferred : t.tx.isDeferred = m.tx.isDeferred)
    (hwriter : t.writer = m.writer) (hhandle : t.writerHandle = m.writerHandle) : Untouched m t :=
  ⟨sameOut_of houtgoing hclosed hdestroyed, hdeferred, hwriter, hhandle⟩

/-- A step that has nothing to do with writing. -/
theorem Sending.of_same (hs : Sending m ws cur) (h : SameOut m t) : Sending t ws cur := by
  obtain ⟨hout, hclosed, hdestroyed⟩ := h
  simp only [outgoing, Prod.mk.injEq, Outgoing.mk.injEq, true_and] at hout
  obtain ⟨hbackend, ⟨hbuffer, hhandler, hoffered, hwritten, hrequested, hsubmitted⟩,
    hwrites, hhanded,
    hended, hframed⟩ := hout
  refine ⟨?_, ?_, ?_, ?_, ?_, ?_, ?_, ?_, ?_⟩
  · rw [hwrites, hs.writes]
  · rw [hhanded, hwrites, hs.handed]
  · rw [hbackend]
    exact hs.past
  · rw [hhandler, hs.idle]
  · intro w hw
    have hw := hs.waiting w hw
    refine ⟨hw.result, hw.le, ?_, ?_, ?_, hw.ended, ?_⟩
    · rw [hbackend, hbuffer, hoffered]
      exact hw.position
    · rw [hrequested, hw.requested]
    · rw [hsubmitted, hw.submitted]
    · rw [hwritten, hoffered]
      exact hw.written
  · rw [hrequested, hwrites]
    exact hs.unrequested
  · rw [hsubmitted, hwrites, hended]
    exact hs.unsubmitted
  · rw [hsubmitted, hrequested, hwrites, hended, hhanded]
    exact hs.submitted
  · rw [hbackend, hoffered, hwritten, hframed, hhanded]
    exact fun hb hc hd => hs.framed hb (hclosed hc) (hdestroyed hd)

/-- The last write is the one that is updated. -/
theorem updateWrite_concat (ws : List WriteRec) (w : WriteRec) (f : WriteRec → WriteRec) :
    updateWrite (ws ++ [w]) f = ws ++ [f w] := by
  unfold updateWrite
  rw [List.length_append, List.length_singleton, Nat.add_sub_cancel]
  induction ws with
  | nil => rfl
  | cons v ws ih => exact congrArg (v :: ·) ih

/-- The record of a write that has completed. -/
def overWith (m : Stream) (w : WriteRec) (ec : ErrorCode) : WriteRec :=
  { w with
    result := some ec
    settled := w.taken
    outstanding := m.tx.offered - m.tx.written
    closed := m.closed || m.destroyed }

/-- It gets its result. -/
theorem completeWrite_writes (hwrites : m.writes = ws ++ [w]) (h : Handler) (ec : ErrorCode) :
    (m.completeWrite h ec).writes = ws ++ [overWith m w ec] := by
  show updateWrite m.writes _ = _
  rw [hwrites, updateWrite_concat]
  rfl

/-- The write that is waiting completes. -/
theorem Sending.complete (hs : Sending m ws (some w)) (h : Handler) (ec : ErrorCode)
    (hsuccess : ec = .success → w.taken = w.buffer.length ∧ (w.eof = true → w.ended = true))
    (hreleased : m.backend = .v2 .zeroCopy → m.tx.offered - m.tx.written = 0 ∨
      (m.closed || m.destroyed) = true) :
    Sending (m.completeWrite h ec) (ws ++ [overWith m w ec]) none := by
  have hw := hs.waiting w rfl
  have hmw : m.writes = ws ++ [w] := hs.writes
  have hwrites := completeWrite_writes hmw h ec
  refine ⟨?_, ?_, ?_, rfl, by simp, ?_, ?_, ?_, ?_⟩
  · rw [hwrites]
    simp
  · show m.handed = _
    rw [hwrites, hs.handed, hmw]
    simp [takenOf, overWith]
  · intro v hv
    -- the write that has waited joins the past ones
    rcases List.mem_append.mp hv with hv | hv
    · exact hs.past v hv
    · obtain rfl := List.mem_singleton.mp hv
      exact ⟨rfl, hw.le, rfl, fun h => hsuccess (Option.some.inj h),
        hw.ended, hreleased⟩
  · intro hreq
    have hall := hs.unrequested hreq
    rw [hmw] at hall
    rw [hwrites]
    simpa [overWith, or_imp, forall_and] using hall
  · intro hsub
    obtain ⟨hended, hall⟩ := hs.unsubmitted hsub
    rw [hmw] at hall
    rw [hwrites]
    exact ⟨hended, by simpa [overWith, or_imp, forall_and] using hall⟩
  · intro hsub
    obtain ⟨hreq, hended, v, hv, hvended⟩ := hs.submitted hsub
    refine ⟨hreq, hended, overWith m w ec, ?_, ?_⟩
    · rw [hwrites]
      simp
    · rw [hmw] at hv
      obtain rfl : w = v := by simpa using hv
      exact hvended
  · intro hb hc hd
    obtain ⟨heq, -⟩ := hs.framed hb hc hd
    refine ⟨heq, fun _ => ?_⟩
    have h0 := (hreleased hb).resolve_right (by
      show ¬ (m.closed || m.destroyed) = true
      rw [show m.closed = false from hc, show m.destroyed = false from hd]
      simp)
    show m.framed = m.handed.length
    omega

/-- nghttp2 takes more of the write that is waiting. -/
theorem Sending.handOver (hs : Sending m ws (some w)) {k : Nat} {x : List UInt8} {tx : Outgoing}
    (hsubmitted : m.tx.eofSubmitted = false) (hk : k ≤ w.buffer.length)
    (hx : w.buffer.take k = takenOf w ++ x)
    (htx : tx = { m.tx with writeBuffer := tx.writeBuffer, offered := tx.offered })
    (hposition : if m.backend = .v1 then tx.writeBuffer = w.buffer.drop k
      else tx.writeBuffer = w.buffer ∧ tx.offered = k)
    (hoffered : tx.offered = m.tx.offered ∨ tx.offered = m.tx.offered + x.length)
    (hzero : m.backend = .v2 .zeroCopy → tx.offered = m.tx.offered + x.length) :
    Sending { m with
      tx := tx
      handed := m.handed ++ x
      writes := ws ++ [{ w with taken := k }] } ws (some { w with taken := k }) := by
  have hw := hs.waiting w rfl
  have hmw : m.writes = ws ++ [w] := hs.writes
  obtain ⟨hended, hall⟩ := hs.unsubmitted hsubmitted
  have hnot : w.ended = false := by rw [← hw.submitted, hsubmitted]
  have hwritten : tx.written = m.tx.written := by rw [htx]
  have hrequested : tx.eofRequested = m.tx.eofRequested := by rw [htx]
  have hsubmitted' : tx.eofSubmitted = false := by rw [htx]; exact hsubmitted
  refine ⟨rfl, ?_, hs.past, ?_, ?_, ?_, ?_, ?_, ?_⟩
  · show m.handed ++ x = _
    rw [hs.handed, hmw]
    simp only [List.flatMap_append, List.flatMap_singleton, List.append_assoc]
    rw [← hx]
    rfl
  · show tx.writeHandler.isSome = true
    rw [htx]
    exact hs.idle
  · rintro _ ⟨⟩
    refine ⟨hw.result, hk, hposition, ?_, ?_, ?_, ?_⟩
    · exact hrequested.trans hw.requested
    · exact hsubmitted'.trans hnot.symm
    · intro h
      exact absurd (hnot.symm.trans h) (by decide)
    · show tx.written ≤ tx.offered
      have := hw.written
      omega
  · intro hreq
    have hall := hs.unrequested (hrequested ▸ hreq)
    rw [hmw] at hall
    simpa [or_imp, forall_and] using hall
  · intro _
    rw [hmw] at hall
    exact ⟨hended, by simpa [or_imp, forall_and] using hall⟩
  · intro hsub
    exact absurd (hsubmitted'.symm.trans hsub) (by decide)
  · intro hb hc hd
    obtain ⟨heq, -⟩ := hs.framed hb hc hd
    refine ⟨?_, fun h => nomatch h⟩
    show m.framed + (tx.offered - tx.written) = (m.handed ++ x).length
    have := hw.written
    rw [hzero hb, hwritten, List.length_append]
    omega

/-- nghttp2 is told that the body ends with the write that is waiting. -/
theorem Sending.endBody (hs : Sending m ws (some w)) (heof : w.eof = true)
    (htaken : w.taken = w.buffer.length) :
    Sending m.endBody ws (some { w with ended := true }) := by
  have hw := hs.waiting w rfl
  have hmw : m.writes = ws ++ [w] := hs.writes
  have hwrites : m.endBody.writes = ws ++ [{ w with ended := true }] := by
    show updateWrite m.writes _ = _
    rw [hmw, updateWrite_concat, hw.result]
    rfl
  refine ⟨hwrites, ?_, hs.past, hs.idle, ?_, ?_, (fun h => nomatch h), ?_, ?_⟩
  · rw [hwrites]
    show m.handed = _
    rw [hs.handed, hmw]
    simp [takenOf]
  · rintro _ ⟨⟩
    exact ⟨hw.result, hw.le, hw.position, hw.requested, rfl, fun _ => ⟨heof, htaken⟩, hw.written⟩
  · intro hreq
    exact absurd (heof.symm.trans (hw.requested.symm.trans hreq)) (by decide)
  · intro _
    refine ⟨hw.requested.trans heof, rfl, { w with ended := true }, ?_, rfl⟩
    rw [hwrites]
    simp
  · intro hb hc hd
    obtain ⟨heq, -⟩ := hs.framed hb hc hd
    exact ⟨heq, fun h => nomatch h⟩

/-! ### What has nothing to do with writing, and what ends a write -/

/-- What the stream knows of the write that is waiting while nothing is running: with version 1, a
write without bytes that are left waits to end the body, and by reference, all is taken at once. -/
structure Ready (m : Stream) : Prop where
  copy : m.backend = .v1 → m.tx.writeHandler.isSome = true → m.tx.writeBuffer = [] →
    m.tx.eofRequested = true
  reference : m.backend = .v2 .zeroCopy → m.tx.writeHandler.isSome = true → 0 < m.tx.offered →
    m.tx.offered = m.tx.writeBuffer.length ∧ (m.tx.eofRequested = true → m.tx.eofSubmitted = true)

/-- The invariant. -/
def IsSending (m : Stream) : Prop := Ready m ∧ ∃ ws cur, Sending m ws cur

/-- No write is waiting. -/
theorem ready_of_none (h : m.tx.writeHandler = none) : Ready m := by
  constructor
  · intro _ hs
    rw [h] at hs
    exact nomatch hs
  · intro _ hs
    rw [h] at hs
    exact nomatch hs

/-- If a handler waits, there is a write that waits, ... -/
theorem Sending.some_of (hs : Sending m ws cur) {h : Handler} (hh : m.tx.writeHandler = some h) :
    ∃ w, cur = some w := by
  have hidle := hs.idle
  rw [hh] at hidle
  exact Option.isSome_iff_exists.mp hidle.symm

/-- ... and otherwise there is none. -/
theorem Sending.none_of (hs : Sending m ws cur) (hh : m.tx.writeHandler = none) : cur = none := by
  have hidle := hs.idle
  rw [hh] at hidle
  exact Option.isSome_eq_false_iff.mp hidle.symm |> Option.isNone_iff_eq_none.mp

theorem IsSending.of_same (hs : IsSending m) (h : SameOut m t) : IsSending t := by
  obtain ⟨hready, ws, cur, hs⟩ := hs
  refine ⟨?_, ws, cur, hs.of_same h⟩
  have hout := h.outgoing
  simp only [outgoing, Prod.mk.injEq, Outgoing.mk.injEq, true_and] at hout
  obtain ⟨hbackend, ⟨hbuffer, hhandler, hoffered, _, hrequested, hsubmitted⟩, _⟩ := hout
  constructor
  · rw [hbackend, hhandler, hbuffer, hrequested]
    exact hready.copy
  · rw [hbackend, hhandler, hbuffer, hoffered, hrequested, hsubmitted]
    exact hready.reference

/-- A write fails. -/
theorem IsSending.fail (hs : IsSending m) {h : Handler} (hh : m.tx.writeHandler = some h)
    {ec : ErrorCode} (hec : ec ≠ .success)
    (hreleased : m.backend = .v2 .zeroCopy → m.tx.offered - m.tx.written = 0 ∨
      (m.closed || m.destroyed) = true) : IsSending (m.completeWrite h ec) := by
  obtain ⟨-, ws, cur, hs⟩ := hs
  obtain ⟨w, rfl⟩ := hs.some_of hh
  exact ⟨ready_of_none rfl, _, _, hs.complete h ec (fun h => absurd h hec) hreleased⟩

/-- A stream that is closed tells the write an error. -/
theorem closeCode_ne (m : Stream) : m.closeCode ≠ .success := by
  unfold closeCode
  split <;> decide

/-- The incoming body is not the outgoing one: data is buffered, ... -/
theorem untouched_buffer (m : Stream) (data : List UInt8) : Untouched m (m.buffer data) := by
  unfold buffer
  split
  · exact untouched_of rfl rfl rfl rfl rfl rfl
  · exact untouched_of rfl rfl rfl rfl rfl rfl

/-- ... the loop goes on, ... -/
theorem untouched_advance (m : Stream) : Untouched m m.advance := by
  unfold advance
  split
  · exact untouched_of rfl rfl rfl rfl rfl rfl
  · exact untouched_of rfl rfl rfl rfl rfl rfl

/-- ... and credit is given back without it. -/
theorem untouched_credit (m : Stream) : Untouched m m.credit := by
  unfold credit
  split
  · exact untouched_of rfl rfl rfl rfl rfl rfl
  · exact untouched_of rfl rfl rfl rfl rfl rfl

/-- Any property of the outgoing body and the writing adapter that a failed write keeps is kept by
`call_read_handler()` and `close_stream()`. -/
theorem keeps_of_untouched {P : Stream → Prop} (hP : ∀ m t, P m → Untouched m t → P t)
    (hfail : ∀ m h, m.tx.writeHandler = some h → m.closed = true → P m →
      P (m.completeWrite h m.closeCode)) : Keeps P where
  buffer m data hm := hP m _ hm (untouched_buffer m data)
  enter m data hm := hP m _ hm (untouched_of rfl rfl rfl rfl rfl rfl)
  advance m hm := hP m _ hm (untouched_advance m)
  credit m hm := hP m _ hm (untouched_credit m)
  park m hm := hP m _ hm (untouched_of rfl rfl rfl rfl rfl rfl)
  leave m hm := hP m _ hm (untouched_of rfl rfl rfl rfl rfl rfl)
  deliver m h _ _ hm := hP m _ hm (untouched_of rfl rfl rfl rfl rfl rfl)
  failRead m h ec f _ _ _ hm := hP m _ hm (untouched_of rfl rfl rfl rfl rfl rfl)
  closeWrite m h hh hc hm := hP _ _ (hfail m h hh hc hm) (untouched_of rfl rfl rfl rfl rfl rfl)
  failResponse m h _ hm := hP m _ hm (untouched_of rfl rfl rfl rfl rfl rfl)
  flags m closed closeDeferred registered fault deletePending hle hm := by
    refine hP m _ hm ⟨⟨rfl, ?_, id⟩, rfl, rfl, rfl⟩
    rintro (rfl : closed = false)
    exact Bool.eq_false_of_le_false hle

/-- `close_stream()` fails the write that waits, and that is all it does about writing. -/
theorem keeps_isSending : Keeps IsSending := by
  refine keeps_of_untouched (fun _ _ hm h => hm.of_same h.toSameOut) fun m h hh hc hm => ?_
  refine hm.fail hh (closeCode_ne m) fun _ => .inr ?_
  rw [hc, Bool.true_or]

/-! ### The user -/

/-- A write is accepted. -/
theorem IsSending.accept (hs : IsSending m) (hidle : m.tx.writeHandler = none) {h : Handler}
    {buffer : List UInt8} {eof : Bool} (hanswer : m.writeAnswer buffer eof = none) :
    IsSending (m.beginWrite h buffer eof) := by
  obtain ⟨-, ws, cur, hs⟩ := hs
  obtain rfl := hs.none_of hidle
  have hmw : m.writes = ws := by rw [hs.writes]; simp
  have hcond : ¬ (buffer = [] ∧ eof = false) ∧ ¬ (m.tx.eofRequested = true ∧ buffer ≠ []) ∧
      ¬ (m.tx.eofRequested = true ∧ m.tx.eofSubmitted = true) := by
    unfold writeAnswer at hanswer
    split at hanswer
    · split_ifs at hanswer
    · split_ifs at hanswer with h1 h2 h3 h4
      exact ⟨h1, h2, h3⟩
  obtain ⟨hsome, hopen, hagain⟩ := hcond
  have hsubmitted : m.tx.eofSubmitted = false := by
    cases hsub : m.tx.eofSubmitted with
    | false => rfl
    | true => exact absurd ⟨(hs.submitted hsub).1, hsub⟩ hagain
  have hrequested : (m.tx.eofRequested || eof) = eof := by
    cases hreq : m.tx.eofRequested with
    | false => rfl
    | true =>
      -- only a bare `write_eof()` gets here after the body has been ended
      have hb : buffer = [] := by
        by_contra hb
        exact hopen ⟨hreq, hb⟩
      -- an empty write that does not end the body is answered at once
      cases eof with
      | false => exact absurd ⟨hb, rfl⟩ hsome
      | true => rfl
  obtain ⟨hended, hall⟩ := hs.unsubmitted hsubmitted
  refine ⟨⟨?_, ?_⟩, ws, some { handler := h, buffer := buffer, eof := eof }, ?_, ?_, hs.past, rfl,
    ?_, ?_, ?_, ?_, ?_⟩
  · intro _ _ hb
    show (m.tx.eofRequested || eof) = true
    rw [hrequested]
    exact Bool.eq_true_of_not_eq_false fun he => hsome ⟨hb, he⟩
  · intro _ _ hlt
    exact absurd hlt (Nat.lt_irrefl 0)
  · show m.writes ++ _ = _
    rw [hmw]
    rfl
  · show m.handed = (m.writes ++ _).flatMap takenOf
    rw [hs.handed, List.flatMap_append]
    simp [takenOf]
  · rintro _ ⟨⟩
    refine ⟨rfl, Nat.zero_le _, ?_, hrequested, hsubmitted, (fun h => nomatch h), le_refl _⟩
    split
    · rfl
    · exact ⟨rfl, rfl⟩
  · intro hreq
    have hreq : (m.tx.eofRequested || eof) = false := hreq
    obtain ⟨hr, he⟩ := Bool.or_eq_false_iff.mp hreq
    intro w hw
    -- none has asked for the end of the body before this one
    rcases List.mem_append.mp hw with hw | hw
    · exact hs.unrequested hr w hw
    · rw [List.mem_singleton.mp hw]
      exact he
  · intro _
    refine ⟨hended, fun w hw => ?_⟩
    rcases List.mem_append.mp hw with hw | hw
    · exact hall w hw
    · rw [List.mem_singleton.mp hw]
  · intro hsub
    exact absurd (hsubmitted.symm.trans hsub) (by decide)
  · intro hb hc hd
    exact ⟨(hs.framed hb hc hd).2 rfl, (fun h => nomatch h)⟩

/-- **A write** is refused, or it is the one that waits from now on. -/
theorem IsSending.asyncWrite (hs : IsSending m) (hidle : m.tx.writeHandler = none) (h : Handler)
    (buffer : List UInt8) (eof : Bool) : IsSending (m.asyncWrite h buffer eof) := by
  unfold Stream.asyncWrite
  split
  · exact hs.of_same (sameOut_of rfl rfl rfl)
  · have hs := hs.accept (h := h) hidle ‹_›
    unfold resume
    split
    · exact hs.of_same (sameOut_of rfl rfl rfl)
    · exact hs

/-- **A cancellation** fails the write that waits, at once or with the reset of the stream. -/
theorem IsSending.cancelWrite (hs : IsSending m) : IsSending m.cancelWrite := by
  unfold Stream.cancelWrite
  split
  · exact hs.of_same (sameOut_of rfl rfl rfl)
  · rename_i hout
    split
    · refine hs.fail ‹_› (by decide) fun hb => ?_
      -- what would be outstanding leads to the other branch
      by_cases hlt : m.tx.written < m.tx.offered
      · have hclosed : m.closed = true :=
          Bool.eq_true_of_not_eq_false fun hc => hout ⟨hb, hlt, hc⟩
        right
        rw [hclosed, Bool.true_or]
      · left
        omega
    · exact hs

/-! ### The engine -/

/-- The next bytes of a buffer, after those that have been taken. -/
theorem take_taken_add (w : WriteRec) (n : Nat) :
    w.buffer.take (w.taken + ((w.buffer.drop w.taken).take n).length) =
      takenOf w ++ (w.buffer.drop w.taken).take n := by
  rw [List.take_add, takenOf]
  congr 1
  rw [List.length_take]
  exact List.take_eq_take_min.symm

/-- What nghttp2 has not taken of a write after it has been given `n` bytes more. -/
theorem drop_taken_add (w : WriteRec) (n : Nat) :
    w.buffer.drop (w.taken + ((w.buffer.drop w.taken).take n).length) =
      (w.buffer.drop w.taken).drop n := by
  rw [← List.drop_drop, List.length_take]
  rcases Nat.le_total n (w.buffer.drop w.taken).length with hle | hle
  · rw [Nat.min_eq_left hle]
  · rw [Nat.min_eq_right hle, List.drop_eq_nil_of_le hle, List.drop_length]

/-- nghttp2 is given more of the write that is waiting. -/
theorem Sending.give (hs : Sending m ws (some w)) (left : List UInt8) (n : Nat) (tx : Outgoing)
    (hsubmitted : m.tx.eofSubmitted = false) (hleft : left = w.buffer.drop w.taken)
    (htx : tx = { m.tx with writeBuffer := tx.writeBuffer, offered := tx.offered })
    (hposition : if m.backend = .v1 then tx.writeBuffer = left.drop n
      else tx.writeBuffer = w.buffer ∧ tx.offered = w.taken + (left.take n).length)
    (hoffered : tx.offered = m.tx.offered ∨ tx.offered = m.tx.offered + (left.take n).length)
    (hzero : m.backend = .v2 .zeroCopy → tx.offered = m.tx.offered + (left.take n).length) :
    Sending { m.give left n with tx := tx } ws
      (some { w with taken := w.taken + (left.take n).length }) := by
  have hw := hs.waiting w rfl
  have hmw : m.writes = ws ++ [w] := hs.writes
  have heq : { m.give left n with tx := tx } =
      { m with
        tx := tx
        handed := m.handed ++ left.take n
        writes := ws ++ [{ w with taken := w.taken + (left.take n).length }] } := by
    unfold Stream.give
    rw [hmw, updateWrite_concat]
  rw [heq]
  subst hleft
  apply hs.handOver hsubmitted ?_ (take_taken_add w n) htx ?_ hoffered hzero
  · have := hw.le
    rw [List.length_take, List.length_drop]
    omega
  · rw [drop_taken_add]
    exact hposition

/-- A write that is waiting, and all of it taken, completes, with the end of the body if it is one
that ends it. -/
theorem Sending.finish (hs : Sending m ws (some w)) (h : Handler)
    (htaken : w.taken = w.buffer.length)
    (hframed : m.backend = .v2 .zeroCopy → m.tx.offered - m.tx.written = 0) :
    IsSending
      (((if m.tx.eofRequested then m.endBody else m).completeWrite h .success).push .done) := by
  have hw := hs.waiting w rfl
  apply IsSending.of_same
    (m := (if m.tx.eofRequested then m.endBody else m).completeWrite h .success)
  · refine ⟨ready_of_none rfl, ?_⟩
    split
    · have hend := hs.endBody (hw.requested ▸ ‹_›) htaken
      exact ⟨_, _, hend.complete h .success (fun _ => ⟨htaken, fun _ => rfl⟩)
        fun hb => .inl (hframed hb)⟩
    · rename_i hreq
      refine ⟨_, _, hs.complete h .success (fun _ => ⟨htaken, fun he => ?_⟩)
        fun hb => .inl (hframed hb)⟩
      exact absurd (hw.requested.trans he) hreq
  · exact sameOut_of rfl rfl rfl

/-- **Version 1 asks for the body**, and copies what fits; the last of it completes the write. -/
theorem IsSending.producerCallback (hs : IsSending m) (hb : m.backend = .v1)
    (hsubmitted : m.tx.eofSubmitted = false) (length : Nat) :
    IsSending (m.producerCallback length) := by
  unfold Stream.producerCallback
  split
  · exact hs
  · split
    · exact hs.of_same (sameOut_of rfl rfl rfl)
    · rename_i h hh
      obtain ⟨hready, ws, cur, hs⟩ := hs
      obtain ⟨w, rfl⟩ := hs.some_of hh
      have hw := hs.waiting w rfl
      have hbuffer : m.tx.writeBuffer = w.buffer.drop w.taken := by
        have := hw.position
        rwa [if_pos hb] at this
      split
      · dsimp only
        have hs' := hs.give m.tx.writeBuffer length
          { m.tx with writeBuffer := m.tx.writeBuffer.drop length } hsubmitted hbuffer rfl
          (by rw [if_pos hb]) (.inl rfl) (fun h => absurd (hb.symm.trans h) (by decide))
        split
        · rename_i hnil
          refine hs'.finish h ?_ fun h => absurd (hb.symm.trans h) (by decide)
          have hdrop := drop_taken_add w length
          rw [← hbuffer, hnil, List.drop_eq_nil_iff] at hdrop
          exact Nat.le_antisymm (hs'.waiting _ rfl).le hdrop
        · refine ⟨⟨fun _ _ hnil => absurd hnil ‹_›, fun h => ?_⟩, _, _, hs'⟩
          exact absurd (hb.symm.trans h) (by decide)
      · rename_i hnil
        have hnil : m.tx.writeBuffer = [] := not_not.mp hnil
        have hfin := hs.finish h ?_ fun h => absurd (hb.symm.trans h) (by decide)
        · rwa [if_pos (hready.copy hb (by rw [hh]; rfl) hnil)] at hfin
        · rw [hbuffer, List.drop_eq_nil_iff] at hnil
          exact Nat.le_antisymm hw.le hnil

/-- **Version 2 asks for the body**, and gets all of it, or a chunk of the copy. -/
theorem IsSending.dataReader (hs : IsSending m) {mode : WriteMode} (hb : m.backend = .v2 mode)
    (hclosed : m.closed = false) (hdestroyed : m.destroyed = false)
    (hframed : m.framed = m.handed.length) (veccnt : Nat) :
    IsSending (m.dataReader mode veccnt) := by
  unfold Stream.dataReader
  split
  · rename_i hh
    split
    · rename_i hsub
      obtain ⟨hready, ws, cur, hs⟩ := hs
      refine ⟨⟨hready.copy, hready.reference⟩, ws, cur, hs.of_same ⟨?_, id, id⟩⟩
      show (m.backend, _, m.writes, m.handed, some m.handed.length, m.framed) = m.outgoing
      rw [outgoing, (hs.submitted hsub).2.1]
    · exact hs.of_same (sameOut_of rfl rfl rfl)
  · rename_i h hh
    have hsame := hs.of_same (t := m.deferData) (sameOut_of rfl rfl rfl)
    obtain ⟨hready, ws, cur, hs⟩ := hs
    obtain ⟨w, rfl⟩ := hs.some_of hh
    have hw := hs.waiting w rfl
    have hv1 : m.backend ≠ .v1 := by
      rw [hb]
      exact fun h => nomatch h
    obtain ⟨hbuffer, hoffered⟩ := hw.position_v2 hv1
    have hleft : m.tx.writeBuffer.drop m.tx.offered = w.buffer.drop w.taken := by
      rw [hbuffer, hoffered]
    -- all that has been offered is framed, as nghttp2 asks for more
    have hnone : m.backend = .v2 .zeroCopy → m.tx.offered - m.tx.written = 0 := by
      intro hz
      have := (hs.framed hz hclosed hdestroyed).1
      omega
    dsimp only
    split
    · rename_i hnil
      split
      · exact hsame
      · rename_i hcond
        have hcond : m.tx.eofRequested = true ∧ m.tx.eofSubmitted = false := by simpa using hcond
        have hfin := hs.finish h ?_ hnone
        · rwa [if_pos hcond.1] at hfin
        · rw [hleft, List.drop_eq_nil_iff] at hnil
          exact Nat.le_antisymm hw.le hnil
    · rename_i hne
      split
      · exact hsame
      · have hsubmitted : m.tx.eofSubmitted = false := by
          rw [hw.submitted]
          refine Bool.eq_false_of_not_eq_true fun hend => hne ?_
          rw [hleft, (hw.ended hend).2, List.drop_length]
        set left := m.tx.writeBuffer.drop m.tx.offered with hdef
        have hs' : ∀ n ≤ left.length, Sending { m.give left n with
            tx := { m.tx with offered := m.tx.offered + n } } ws
            (some { w with taken := w.taken + (left.take n).length }) := by
          intro n hn
          have hlen : (left.take n).length = n := by rw [List.length_take, Nat.min_eq_left hn]
          apply hs.give _ _ _ hsubmitted hleft rfl
          · rw [if_neg hv1, hlen, hoffered]
            exact ⟨hbuffer, rfl⟩
          · rw [hlen]
            exact .inr rfl
          · rw [hlen]
            exact fun _ => rfl
        have hlen : left.length = m.tx.writeBuffer.length - m.tx.offered := List.length_drop
        cases mode with
        | zeroCopy =>
          -- all of it at once, and the handler waits for it to be framed
          have hall := hs' left.length (le_refl _)
          have hle : m.tx.offered ≤ m.tx.writeBuffer.length := by
            rw [hoffered, hbuffer]
            exact hw.le
          have hlast : m.tx.offered + left.length = m.tx.writeBuffer.length := by omega
          have htaken : w.taken + (left.take left.length).length = w.buffer.length := by
            rw [List.take_length, ← hoffered, ← hbuffer, hlast]
          simp only [hlast, decide_true, Bool.true_and, beq_iff_eq, reduceCtorEq, if_false]
          rw [hlast] at hall
          split
          · rename_i hreq
            refine ⟨⟨fun h => absurd h hv1, fun _ _ _ => ⟨rfl, fun _ => rfl⟩⟩, _, _,
              hall.endBody ?_ htaken⟩
            exact hw.requested ▸ hreq
          · rename_i hreq
            exact ⟨⟨fun h => absurd h hv1, fun _ _ _ => ⟨rfl, fun h => absurd h hreq⟩⟩, _, _, hall⟩
        | staged =>
          have hall := hs' (min left.length writeChunkSize) (Nat.min_le_left _ _)
          have hz : m.backend ≠ .v2 .zeroCopy := by
            rw [hb]
            decide
          -- the last chunk of the copy completes the write
          by_cases hlast : m.tx.offered + min left.length writeChunkSize = m.tx.writeBuffer.length
          · simp only [hlast, decide_true, Bool.true_and, beq_self_eq_true, if_true]
            rw [hlast] at hall
            refine hall.finish h ?_ fun h => absurd h hz
            have hoffered' := ((hall.waiting _ rfl).position_v2 hv1).2
            exact hoffered'.symm.trans (congrArg List.length hbuffer)
          · simp only [hlast, decide_false, Bool.false_and, Bool.false_eq_true, if_false]
            exact ⟨⟨fun h => absurd h hv1, fun h => absurd h hz⟩, _, _, hall⟩

/-- **Version 2 has framed** bytes of the buffer; the last of them completes a zero-copy write. -/
theorem IsSending.onWriteOffset (hs : IsSending m) {mode : WriteMode} (hb : m.backend = .v2 mode)
    (hclosed : m.closed = false) (hdestroyed : m.destroyed = false) {len : Nat} (hpos : 0 < len)
    (hlen : m.framed + len ≤ m.handed.length) : IsSending (m.onWriteOffset mode len) := by
  unfold Stream.onWriteOffset
  obtain ⟨hready, ws, cur, hs⟩ := hs
  dsimp only
  split
  · rename_i hmode
    have hz : m.backend ≠ .v2 .zeroCopy := by
      rw [hb]
      exact fun h => hmode (Backend.v2.inj h)
    exact ⟨⟨hready.copy, hready.reference⟩, ws, cur, hs.writes, hs.handed, hs.past, hs.idle,
      fun w hw => { hs.waiting w hw with }, hs.unrequested, hs.unsubmitted, hs.submitted,
      fun h => absurd h hz⟩
  · rename_i hmode
    obtain rfl : mode = .zeroCopy := not_not.mp hmode
    obtain ⟨heq, hidle⟩ := hs.framed hb hclosed hdestroyed
    -- without a write, everything is framed already
    obtain ⟨w, rfl⟩ : ∃ w, cur = some w := by
      cases cur with
      | none =>
        have := hidle rfl
        omega
      | some w => exact ⟨w, rfl⟩
    have hw := hs.waiting w rfl
    have hv1 : m.backend ≠ .v1 := by
      rw [hb]
      exact fun h => nomatch h
    have hposition := hw.position_v2 hv1
    have hoffered : m.tx.written + len ≤ m.tx.offered := by omega
    have hs' : Sending { m with
        framed := m.framed + len
        tx := { m.tx with written := m.tx.written + len } } ws (some w) := by
      refine ⟨hs.writes, hs.handed, hs.past, hs.idle, ?_, hs.unrequested, hs.unsubmitted,
        hs.submitted, ?_⟩
      · rintro _ ⟨⟩
        exact ⟨hw.result, hw.le, hw.position, hw.requested, hw.submitted, hw.ended, hoffered⟩
      · intro _ _ _
        refine ⟨?_, (fun h => nomatch h)⟩
        show m.framed + len + (m.tx.offered - (m.tx.written + len)) = m.handed.length
        omega
    split
    · exact ⟨⟨fun h => absurd h hv1, hready.reference⟩, _, _, hs'⟩
    · rename_i h hh
      split
      · exact ⟨⟨fun h => absurd h hv1, hready.reference⟩, _, _, hs'⟩
      · rename_i hge
        have hge : ¬ m.tx.written + len < m.tx.writeBuffer.length := hge
        obtain ⟨hwhole, hend⟩ := hready.reference hb (by rw [hs.idle]; rfl) (by omega)
        have htaken : w.taken = w.buffer.length := by
          rw [← hposition.2, ← hposition.1, hwhole]
        apply IsSending.of_same (m := completeWrite _ h .success)
        · refine ⟨ready_of_none rfl, _, _, hs'.complete h .success (fun _ => ⟨htaken, fun he => ?_⟩)
            fun _ => .inl ?_⟩
          · rw [← hw.submitted]
            exact hend (hw.requested.trans he)
          · show m.tx.offered - (m.tx.written + len) = 0
            omega
        · exact sameOut_of rfl rfl rfl

/-! ### Runs -/

/-- A response that is delivered does not concern the body of the request, ... -/
theorem untouched_deliverResponse (m : Stream) : Untouched m m.deliverResponse := by
  unfold deliverResponse
  split
  · exact untouched_of rfl rfl rfl rfl rfl rfl
  · split
    · exact untouched_of rfl rfl rfl rfl rfl rfl
    · dsimp only
      split
      · exact untouched_of rfl rfl rfl rfl rfl rfl
      · exact untouched_of rfl rfl rfl rfl rfl rfl

/-- ... and a reset does so only when the stream is closed. -/
theorem untouched_maybeCloseStream (m : Stream) : Untouched m m.maybeCloseStream := by
  unfold maybeCloseStream
  split_ifs
  · exact untouched_of rfl rfl rfl rfl rfl rfl
  · exact untouched_of rfl rfl rfl rfl rfl rfl
  · exact untouched_of rfl rfl rfl rfl rfl rfl
  · exact untouched_of rfl rfl rfl rfl rfl rfl

/-- The destructor of the writing adapter may have the stream reset. -/
theorem sameOut_dropWriter (m : Stream) : SameOut m m.dropWriter := by
  unfold dropWriter
  split
  · have hmaybe := untouched_maybeCloseStream { m with writer := false, writerHandle := .released }
    exact ⟨hmaybe.outgoing, hmaybe.closed, hmaybe.destroyed⟩
  · exact sameOut_of rfl rfl rfl

/-- In the destructor, the write that is waiting fails last. -/
theorem destroy_outgoing (m : Stream) :
    ∃ u, SameOut m u ∧ u.destroyed = true ∧
      m.destroy = match u.tx.writeHandler with
        | some h => u.completeWrite h .canceled
        | none => u := by
  unfold destroy
  dsimp only
  refine ⟨_, ?_, ?_, rfl⟩
  · split <;> split <;> exact ⟨rfl, id, fun h => nomatch h⟩
  · split <;> split <;> rfl

/-- A property of the outgoing body and the writing adapter is kept by a step if the operations on
these keep it. -/
theorem step_keeps {P : Stream → Prop} (hP : ∀ m t, P m → Untouched m t → P t) (hK : Keeps P)
    (hwrite : ∀ h buffer eof, a = .asyncWrite h buffer eof → m.tx.writeHandler = none →
      P (m.asyncWrite h buffer eof))
    (hcancel : P m.cancelWrite)
    (hproducer : ∀ length, m.backend = .v1 → m.destroyed = false → m.tx.eofSubmitted = false →
      P (m.producerCallback length))
    (hreader : ∀ mode veccnt, a = .dataReader veccnt → m.backend = .v2 mode → m.closed = false →
      m.destroyed = false → m.framed = m.handed.length → P (m.dataReader mode veccnt))
    (hoffset : ∀ mode len, m.backend = .v2 mode → m.closed = false → m.destroyed = false →
      0 < len → m.framed + len ≤ m.handed.length → P (m.onWriteOffset mode len))
    (hdrop : a = .dropWriter → P m.dropWriter) (hdestroy : a = .destroy → P m.destroy) (hm : P m)
    (h : step m a = some t) : P t := by
  cases a with
  | destroy =>
    obtain ⟨_, h⟩ := Option.ite_none_right_eq_some.mp h
    rw [← Option.some.inj h]
    exact hdestroy rfl
  | asyncReadSome h' size =>
    obtain ⟨_, h⟩ := Option.ite_none_right_eq_some.mp h
    rw [← Option.some.inj h, asyncReadSome]
    split
    · exact hP m _ hm (untouched_of rfl rfl rfl rfl rfl rfl)
    · split
      · exact hP m _ hm (untouched_of rfl rfl rfl rfl rfl rfl)
      · apply hK.callReadHandler
        exact hP m _ hm (untouched_of rfl rfl rfl rfl rfl rfl)
  | cancelRead =>
    obtain ⟨_, h⟩ := Option.ite_none_right_eq_some.mp h
    rw [← Option.some.inj h, cancelRead]
    split
    · exact hP m _ hm (untouched_of rfl rfl rfl rfl rfl rfl)
    · exact hm
  | asyncWrite h' buffer eof =>
    obtain ⟨hidle, h⟩ := Option.ite_none_right_eq_some.mp h
    rw [← Option.some.inj h]
    exact hwrite h' buffer eof rfl hidle.2
  | cancelWrite =>
    obtain ⟨_, h⟩ := Option.ite_none_left_eq_some.mp h
    rw [← Option.some.inj h]
    exact hcancel
  | asyncGetResponse h' =>
    obtain ⟨_, h⟩ := Option.ite_none_right_eq_some.mp h
    rw [← Option.some.inj h, asyncGetResponse]
    split
    · exact hP m _ hm (untouched_of rfl rfl rfl rfl rfl rfl)
    · split
      · exact hP m _ hm (untouched_of rfl rfl rfl rfl rfl rfl)
      · apply hP _ _ ?_ (untouched_deliverResponse _)
        exact hP m _ hm (untouched_of rfl rfl rfl rfl rfl rfl)
  | cancelResponse =>
    obtain ⟨_, h⟩ := Option.ite_none_left_eq_some.mp h
    rw [← Option.some.inj h, cancelResponse]
    split
    · exact hP m _ hm (untouched_of rfl rfl rfl rfl rfl rfl)
    · exact hm
  | dropReader =>
    obtain ⟨_, h⟩ := Option.ite_none_right_eq_some.mp h
    rw [← Option.some.inj h, dropReader]
    split
    · apply hK.finishDeferredClose
      apply hP _ _ ?_ (untouched_maybeCloseStream _)
      dsimp only
      split
      · exact hP m _ hm (untouched_of rfl rfl rfl rfl rfl rfl)
      · exact hP m _ hm (untouched_of rfl rfl rfl rfl rfl rfl)
    · exact hP m _ hm (untouched_of rfl rfl rfl rfl rfl rfl)
  | dropWriter =>
    obtain ⟨_, h⟩ := Option.ite_none_right_eq_some.mp h
    rw [← Option.some.inj h]
    exact hdrop rfl
  | ret =>
    rw [step] at h
    split at h
    · cases h
    · rw [← Option.some.inj h]
      apply hK.ret
      exact hP m _ hm (untouched_of rfl rfl rfl rfl rfl rfl)
  | onHeaders fields =>
    obtain ⟨_, h⟩ := Option.ite_none_right_eq_some.mp h
    rw [← Option.some.inj h, onHeaders]
    dsimp only
    split
    · exact hP m _ hm (untouched_of rfl rfl rfl rfl rfl rfl)
    · unfold onResponse
      apply hP _ _ ?_ (untouched_deliverResponse _)
      split
      · exact hP m _ hm (untouched_of rfl rfl rfl rfl rfl rfl)
      · exact hP m _ hm (untouched_of rfl rfl rfl rfl rfl rfl)
  | onTrailers fields =>
    obtain ⟨_, h⟩ := Option.ite_none_right_eq_some.mp h
    rw [← Option.some.inj h]
    exact hP m _ hm (untouched_of rfl rfl rfl rfl rfl rfl)
  | onData data =>
    obtain ⟨_, h⟩ := Option.ite_none_right_eq_some.mp h
    rw [← Option.some.inj h]
    apply hK.callReadHandler
    exact hP m _ hm (untouched_of rfl rfl rfl rfl rfl rfl)
  | onEof =>
    obtain ⟨_, h⟩ := Option.ite_none_right_eq_some.mp h
    rw [← Option.some.inj h]
    apply hK.callReadHandler
    exact hP m _ hm (untouched_of rfl rfl rfl rfl rfl rfl)
  | producer length =>
    obtain ⟨hguard, h⟩ := Option.ite_none_right_eq_some.mp h
    rw [← Option.some.inj h]
    simp only [open_, Bool.and_eq_true, beq_iff_eq, Bool.not_eq_true', decide_eq_true_eq] at hguard
    obtain ⟨⟨⟨⟨⟨_, hdestroyed⟩, hb⟩, _⟩, hsubmitted⟩, _⟩ := hguard
    exact hproducer length hb hdestroyed hsubmitted
  | dataReader veccnt =>
    rw [step] at h
    split at h
    · cases h
    · rename_i mode hb
      obtain ⟨hguard, h⟩ := Option.ite_none_right_eq_some.mp h
      rw [← Option.some.inj h]
      simp only [open_, Bool.and_eq_true, Bool.not_eq_true', decide_eq_true_eq] at hguard
      obtain ⟨⟨⟨⟨_, hclosed⟩, hdestroyed⟩, _⟩, hframed⟩ := hguard
      exact hreader mode veccnt rfl hb hclosed hdestroyed hframed
  | writeOffset len =>
    rw [step] at h
    split at h
    · cases h
    · rename_i mode hb
      obtain ⟨hguard, h⟩ := Option.ite_none_right_eq_some.mp h
      rw [← Option.some.inj h]
      simp only [open_, Bool.and_eq_true, Bool.not_eq_true', decide_eq_true_eq] at hguard
      obtain ⟨⟨⟨⟨_, hclosed⟩, hdestroyed⟩, hpos⟩, hlen⟩ := hguard
      exact hoffset mode len hb hclosed hdestroyed hpos hlen
  | streamClose =>
    obtain ⟨_, h⟩ := Option.ite_none_right_eq_some.mp h
    rw [← Option.some.inj h]
    exact hK.closeStream hm

/-- The destructor of the stream cancels the write that waits. -/
theorem IsSending.destroy (hs : IsSending m) : IsSending m.destroy := by
  obtain ⟨u, hsame, hdestroyed, heq⟩ := destroy_outgoing m
  rw [heq]
  split
  · refine (hs.of_same hsame).fail ‹_› (by decide) fun _ => .inr ?_
    rw [hdestroyed, Bool.or_true]
  · exact hs.of_same hsame

/-- **Step lemma**: every step preserves `IsSending`. -/
theorem IsSending.step (hs : IsSending m) (h : step m a = some t) : IsSending t :=
  step_keeps (fun _ _ hm h => hm.of_same h.toSameOut) keeps_isSending
    (fun h' buffer eof _ hidle => hs.asyncWrite hidle h' buffer eof) hs.cancelWrite
    (fun length hb _ hsub => hs.producerCallback hb hsub length)
    (fun _ veccnt _ hb hc hd hframed => hs.dataReader hb hc hd hframed veccnt)
    (fun _ _ hb hc hd hpos hlen => hs.onWriteOffset hb hc hd hpos hlen)
    (fun _ => hs.of_same (sameOut_dropWriter m)) (fun _ => hs.destroy) hs h

/-- It holds of a new stream. -/
theorem isSending_fresh (hm : Fresh m) : IsSending m := by
  refine ⟨ready_of_none ?_, [], none, sending_fresh hm⟩
  obtain ⟨_, _, rfl | rfl⟩ := hm
  · rfl
  · rfl

/-! ### After the end -/

/-- The body has ended, and is `body`. -/
def Sealed (body : List UInt8) (m : Stream) : Prop := m.tx.eofSubmitted = true ∧ m.handed = body

variable {body : List UInt8}

theorem Sealed.of_same (hs : Sealed body m) (h : SameOut m t) : Sealed body t := by
  have hout := h.outgoing
  simp only [outgoing, Prod.mk.injEq, Outgoing.mk.injEq, true_and] at hout
  obtain ⟨_, ⟨_, _, _, _, _, hsubmitted⟩, _, hhanded, _⟩ := hout
  exact ⟨hsubmitted.trans hs.1, hhanded.trans hs.2⟩

/-- A body that has ended is not begun again by whoever closes the stream, ... -/
theorem keeps_sealed (body : List UInt8) : Keeps (Sealed body) :=
  keeps_of_untouched (fun _ _ hm h => hm.of_same h.toSameOut) fun _ _ _ _ hm => hm

/-- ... or by nghttp2 asking once more, ... -/
theorem Sealed.dataReader (hs : Sealed body m) (hsend : IsSending m) {mode : WriteMode}
    (hb : m.backend = .v2 mode) (veccnt : Nat) : Sealed body (m.dataReader mode veccnt) := by
  unfold Stream.dataReader
  split
  · rw [if_pos hs.1]
    exact hs
  · rename_i h hh
    obtain ⟨-, ws, cur, hsend⟩ := hsend
    obtain ⟨w, rfl⟩ := hsend.some_of hh
    have hw := hsend.waiting w rfl
    obtain ⟨hbuffer, hoffered⟩ := hw.position_v2 (by rw [hb]; exact fun h => nomatch h)
    -- the write that has ended the body has nothing left, and it is still waiting to be framed
    have hleft : m.tx.writeBuffer.drop m.tx.offered = [] := by
      rw [hbuffer, hoffered, (hw.ended (hw.submitted.symm.trans hs.1)).2, List.drop_length]
    dsimp only
    rw [if_pos hleft, hs.1, Bool.or_true, if_pos rfl]
    exact hs

/-- ... or by any other step. -/
theorem Sealed.step (hs : Sealed body m) (hsend : IsSending m) (h : step m a = some t) :
    Sealed body t := by
  refine step_keeps (fun _ _ hm h => hm.of_same h.toSameOut) (keeps_sealed body) ?_ ?_ ?_ ?_ ?_
    (fun _ => hs.of_same (sameOut_dropWriter m)) ?_ hs h
  · intro h' buffer eof _ _
    unfold asyncWrite
    split
    · exact hs
    · unfold resume
      split
      · exact hs
      · exact hs
  · unfold cancelWrite
    split
    · exact hs
    · split
      · exact hs
      · exact hs
  · intro length _ _ hsub
    exact absurd (hs.1.symm.trans hsub) (by decide)
  · intro mode veccnt _ hb _ _ _
    exact hs.dataReader hsend hb veccnt
  · intro mode len _ _ _ _ _
    unfold onWriteOffset
    dsimp only
    split
    · exact hs
    · split
      · exact hs
      · split
        · exact hs
        · exact hs
  · intro _
    obtain ⟨u, hsame, _, heq⟩ := destroy_outgoing m
    have hu := hs.of_same hsame
    rw [heq]
    split
    · exact hu
    · exact hu

/-- What nghttp2 has been given of the body. -/
structure BodyHandedOver (m : Stream) : Prop where
  /-- The bytes are a part of each write, in order, ... -/
  handed : m.handed = m.writes.flatMap takenOf
  taken_le : ∀ w ∈ m.writes, w.taken ≤ w.buffer.length
  /-- ... which is the whole of a write that has succeeded, ... -/
  success : ∀ w ∈ m.writes, w.result = some .success → w.taken = w.buffer.length
  /-- ... and of any other that is over, what had been taken until then. -/
  settled : ∀ w ∈ m.writes, w.result.isSome = true → w.taken = w.settled
  /-- The end was given with or after the last byte of a write that ends the body and was waiting,
  and no byte has been given since. -/
  ended : ∀ n, m.ended = some n → n = m.handed.length ∧
    ∃ w ∈ m.writes.getLast?, w.eof = true ∧ w.ended = true ∧ w.taken = w.buffer.length
  /-- By reference, a write completes when everything of it is framed, or the stream closed. -/
  framed : m.backend = .v2 .zeroCopy → ∀ w ∈ m.writes, w.result.isSome = true →
    w.outstanding = 0 ∨ w.closed = true

/-- A write that is waiting has no result. -/
theorem Sending.over_of_result (hs : Sending m ws cur) (hw : w ∈ m.writes)
    (hresult : w.result.isSome = true) : Over m.backend w := by
  rw [hs.writes] at hw
  rcases List.mem_append.mp hw with hw | hw
  · exact hs.past w hw
  · have hnone := (hs.waiting w (Option.mem_toList.mp hw)).result
    rw [hnone] at hresult
    exact nomatch hresult

/-- **What nghttp2 has been given** is the writes in their order, the last one up to where it has
taken it. -/
theorem IsSending.bodyHandedOver (hs : IsSending m) : BodyHandedOver m := by
  obtain ⟨-, ws, cur, hs⟩ := hs
  refine ⟨hs.handed, ?_, ?_, ?_, ?_, ?_⟩
  · intro w hw
    rw [hs.writes] at hw
    rcases List.mem_append.mp hw with hw | hw
    · exact (hs.past w hw).le
    · exact (hs.waiting w (Option.mem_toList.mp hw)).le
  · intro w hw hresult
    exact ((hs.over_of_result hw (by rw [hresult]; rfl)).success hresult).1
  · intro w hw hresult
    exact (hs.over_of_result hw hresult).settled.symm
  · intro n hn
    cases hsub : m.tx.eofSubmitted with
    | false =>
      rw [(hs.unsubmitted hsub).1] at hn
      exact nomatch hn
    | true =>
      obtain ⟨_, hended, w, hw, hwended⟩ := hs.submitted hsub
      refine ⟨Option.some.inj (hn.symm.trans hended), w, hw, ?_⟩
      have hmem : w ∈ ws ++ cur.toList := hs.writes ▸ List.mem_of_getLast? hw
      -- a write that has ended the body is the last one, done or not
      rcases List.mem_append.mp hmem with hmem | hmem
      · exact ⟨((hs.past w hmem).ended hwended).1, hwended, ((hs.past w hmem).ended hwended).2⟩
      · have hwait := hs.waiting w (Option.mem_toList.mp hmem)
        exact ⟨(hwait.ended hwended).1, hwended, (hwait.ended hwended).2⟩
  · intro hb w hw hresult
    exact (hs.over_of_result hw hresult).released hb

/-- **Either version hands the same body over**: with any writes, cancellations and calls of the
data provider, what nghttp2 is given is the writes, in order and each as far as it was taken, the
end comes with the write that ends the body, and nothing after it. -/
theorem body_handed_over {s : Stream} {as bs : List Action} (hm : Fresh m)
    (has : run step m as = some s) (hbs : run step s bs = some t) :
    BodyHandedOver t ∧ (s.ended.isSome = true → t.handed = s.handed) := by
  have hs : IsSending s := run_inv (fun _ _ _ hs h => hs.step h) (isSending_fresh hm) has
  have ht : IsSending t := run_inv (fun _ _ _ hs h => hs.step h) hs hbs
  refine ⟨ht.bodyHandedOver, fun hended => ?_⟩
  have hsealed : Sealed s.handed s := by
    refine ⟨?_, rfl⟩
    obtain ⟨-, ws, cur, hs⟩ := hs
    refine Bool.eq_true_of_not_eq_false fun hsub => ?_
    rw [(hs.unsubmitted hsub).1] at hended
    exact nomatch hended
  have hboth : IsSending t ∧ Sealed s.handed t :=
    run_inv (P := fun u => IsSending u ∧ Sealed s.handed u)
      (fun _ _ _ hs h => ⟨hs.1.step h, hs.2.step hs.1 h⟩) ⟨hs, hsealed⟩ hbs
  exact hboth.2.2

/-- Two writes by reference, the second of which ends the body. -/
def writeTwice : List Action :=
  [.asyncWrite ⟨0, none⟩ [1, 2, 3] false, .dataReader 1, .writeOffset 2, .writeOffset 1,
    .asyncWrite ⟨1, none⟩ [4, 5] true, .ret, .dataReader 1]

/-- Two writes, the second of which ends the body. -/
theorem body_handed_over_writeTwice :
    ∃ t, run step (server (.v2 .zeroCopy) 1000) writeTwice = some t ∧ t.handed = [1, 2, 3, 4, 5] ∧
      t.ended = some 5 ∧ BodyHandedOver t := by
  have hhanded : (run step (server (.v2 .zeroCopy) 1000) writeTwice).map
      (fun t => (t.handed, t.ended)) = some ([1, 2, 3, 4, 5], some 5) := by
    decide +kernel
  obtain ⟨t, hrun, hbody⟩ := Option.map_eq_some_iff.mp hhanded
  obtain ⟨hhanded, hended⟩ := Prod.mk.inj hbody
  exact ⟨t, hrun, hhanded, hended, (body_handed_over ⟨_, _, .inr rfl⟩ hrun (run_nil t)).1⟩

end AnyHttp.H2.Stream
