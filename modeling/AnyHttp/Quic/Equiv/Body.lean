import AnyHttp.Quic.Equiv.Simulation

/-!
# The body that a stream sends

The body a stream has accepted is what counts of each write's buffer, in the order of the calls:
all of it, or the part that a cancellation has not abandoned (`acceptedBody`).  `Reachable.bodyOk`
says that `pending_data()` hands out that body and nothing else, each byte at its own offset, for
both write modes and both drivers.

* `BodyInv`: the queue is a prefix of the accepted body, and the chunks of a staged stream are
  pieces of it.  A write appends to the body, a cancellation cuts it off where the queue ends.
* `HoldAt`: what a list of vecs points at is the body from some offset on.  By `BodyInv`, this holds
  of what `pending_data()` returns, where the two modes differ only in where the memory is.
* `OffersInv`: what has been handed out before still is the accepted body, unless it was abandoned
  before the stack took it.  Then the next write gets its offsets: that the stack takes nothing of
  what a plain stream offers is common, and it asks again.
* `Ended`: after the FIN, nothing is queued any more.
-/

namespace AnyHttp.Quic

open Lib

/-! ### The accepted body -/

/-- What counts of a write: its buffer, or the part of it that cancellation has not abandoned. -/
def WriteRec.data (w : WriteRec) : List UInt8 := w.buffer.take w.kept

/-- The accepted body: what counts of each write, in the order of the calls. -/
def acceptedBody (writes : List WriteRec) : List UInt8 := writes.flatMap WriteRec.data

/-- Every write begins where what counts of the ones before it ends. -/
def Chained : Nat → List WriteRec → Prop
  | _, [] => True
  | pos, w :: ws => w.base = pos ∧ w.kept ≤ w.buffer.length ∧ Chained (pos + w.kept) ws

theorem acceptedBody_concat (ws : List WriteRec) (w : WriteRec) :
    acceptedBody (ws ++ [w]) = acceptedBody ws ++ w.data := by
  simp [acceptedBody]

theorem chained_concat {pos : Nat} {ws : List WriteRec} {w : WriteRec} :
    Chained pos (ws ++ [w]) ↔
      Chained pos ws ∧ w.base = pos + (acceptedBody ws).length ∧ w.kept ≤ w.buffer.length := by
  -- on the writes before the last one
  induction ws generalizing pos with
  | nil => simp [Chained, acceptedBody]
  | cons v ws ih =>
    have hlen : v.kept ≤ v.buffer.length →
        (acceptedBody (v :: ws)).length = v.kept + (acceptedBody ws).length := by
      intro hv
      simp [acceptedBody, WriteRec.data, hv]
    simp only [List.cons_append, Chained, ih, and_assoc]
    constructor
    · rintro ⟨hbase, hv, hws, hw, hk⟩
      exact ⟨hbase, hv, hws, by rw [hw, hlen hv]; omega, hk⟩
    · rintro ⟨hbase, hv, hws, hw, hk⟩
      refine ⟨hbase, hv, hws, ?_, hk⟩
      rw [hw, hlen hv]
      omega

/-- Abandoning the rest of the last write cuts the body off where the queue ends now. -/
theorem acceptedBody_abandon {queued : Nat} {ws : List WriteRec} {w : WriteRec}
    (hbase : w.base = (acceptedBody ws).length) (hkept : w.kept = w.buffer.length)
    (hqueued : w.base ≤ queued) :
    acceptedBody (Stream.abandon queued (ws ++ [w])) =
      (acceptedBody (ws ++ [w])).take queued := by
  rw [Sender.abandon_concat, acceptedBody_concat, acceptedBody_concat, List.take_append,
    List.take_of_length_le (by omega), ← hbase]
  simp only [WriteRec.data, hkept, List.take_length]

/-! ### What the vecs point at -/

@[simp] theorem vecBytes_nil : vecBytes [] = [] := rfl

@[simp] theorem vecBytes_cons (v : IoVec) (vs : List IoVec) :
    vecBytes (v :: vs) = v.bytes ++ vecBytes vs := rfl

/-- The memory a vec points at is there. -/
def IoVec.InBounds (v : IoVec) : Prop := v.off + v.len ≤ v.mem.length

/-- The vecs are within their memory, and hold what `body` has from `start` on. -/
structure HoldAt (body : List UInt8) (start : Nat) (vecs : List IoVec) : Prop where
  inBounds : ∀ v ∈ vecs, v.InBounds
  bytes : vecBytes vecs = (body.drop start).take (vecLen vecs)

theorem HoldAt.nil (body : List UInt8) (start : Nat) : HoldAt body start [] :=
  ⟨by simp, by simp⟩

/-- A vec with the next bytes of the body may be put in front of vecs with those that follow. -/
theorem HoldAt.cons {body : List UInt8} {start : Nat} {v : IoVec} {vs : List IoVec}
    (hbounds : v.InBounds) (hbytes : v.bytes = (body.drop start).take v.len)
    (h : HoldAt body (start + v.len) vs) : HoldAt body start (v :: vs) where
  inBounds := fun u hu => by
    rcases List.mem_cons.mp hu with rfl | hu
    · exact hbounds
    · exact h.inBounds u hu
  bytes := by
    rw [vecBytes_cons, vecLen_cons, List.take_add, h.bytes, List.drop_drop, ← hbytes]

/-- So may the rest of a chunk, from the byte of the body at `start` on. -/
theorem HoldAt.chunk {body : List UInt8} {c : Chunk} {start off : Nat} {vs : List IoVec}
    (hc : c.data = (body.drop c.offset).take c.data.length) (hstart : c.offset ≤ start)
    (hstop : start ≤ c.stop) (hoff : off = start - c.offset) (h : HoldAt body c.stop vs) :
    HoldAt body start (⟨none, c.data, off, c.data.length - off⟩ :: vs) := by
  have hlen : c.stop = c.offset + c.data.length := rfl
  have hpos : c.offset + off = start := by omega
  refine HoldAt.cons ?_ ?_ ?_
  · show off + (c.data.length - off) ≤ c.data.length
    omega
  · show (c.data.drop off).take (c.data.length - off) =
      (body.drop start).take (c.data.length - off)
    have hdata : c.data.drop off = (body.drop start).take (c.data.length - off) := by
      rw [hc, List.drop_take, List.drop_drop, hpos, ← hc]
    rw [hdata, List.take_take, min_self]
  · show HoldAt body (start + (c.data.length - off)) vs
    rw [show start + (c.data.length - off) = c.stop by omega]
    exact h

theorem chunkVecs_holdAt_of_le {body : List UInt8} {start lo hi : Nat} {cs : List Chunk}
    (h : Contiguous lo cs hi) (hcarries : Carries body cs) (hlo : start ≤ lo) (room : Nat) :
    HoldAt body lo (Outgoing.chunkVecs start room lo cs).1 := by
  induction cs generalizing lo room with
  | nil => exact HoldAt.nil body lo
  | cons c cs ih =>
    obtain ⟨rfl, hne, htail⟩ := h
    have hlen : 0 < c.data.length := List.length_pos_iff.mpr hne
    have hstop : c.stop = c.offset + c.data.length := rfl
    have hskip : ¬c.stop ≤ start := by omega
    cases room with
    | zero =>
      rw [Outgoing.chunkVecs_zero hskip]
      exact HoldAt.nil body _
    | succ room =>
      rw [Outgoing.chunkVecs_succ hskip]
      exact HoldAt.chunk (hcarries c List.mem_cons_self).2 le_rfl (by omega) (by omega)
        (ih htail (hcarries.of_sublist (List.sublist_cons_self c cs)) (by omega) room)

/-- The vecs of a staged stream hold what the chunks carry. -/
theorem chunkVecs_holdAt {body : List UInt8} {start lo hi : Nat} {cs : List Chunk}
    (h : Contiguous lo cs hi) (hcarries : Carries body cs) (hlo : lo ≤ start) (room : Nat) :
    HoldAt body start (Outgoing.chunkVecs start room start cs).1 := by
  induction cs generalizing lo with
  | nil => exact HoldAt.nil body start
  | cons c cs ih =>
    obtain ⟨rfl, hne, htail⟩ := h
    have hrest := hcarries.of_sublist (List.sublist_cons_self c cs)
    by_cases hskip : c.stop ≤ start
    · rw [Outgoing.chunkVecs_skip hskip]
      exact ih htail hrest hskip
    cases room with
    | zero =>
      rw [Outgoing.chunkVecs_zero hskip]
      exact HoldAt.nil body _
    | succ room =>
      rw [Outgoing.chunkVecs_succ hskip]
      exact HoldAt.chunk (hcarries c List.mem_cons_self).2 hlo (by omega) rfl
        (chunkVecs_holdAt_of_le htail hrest (by omega) room)

theorem HoldAt.getElem? {body : List UInt8} {start j : Nat} {vecs : List IoVec} {b : UInt8}
    (h : HoldAt body start vecs) (hj : (vecBytes vecs)[j]? = some b) :
    body[start + j]? = some b := by
  rw [h.bytes, List.getElem?_take] at hj
  split at hj
  · rwa [List.getElem?_drop] at hj
  · exact absurd hj (by simp)

/-- Vecs within their memory have as many bytes as they claim. -/
theorem length_vecBytes {vecs : List IoVec} (h : ∀ v ∈ vecs, v.InBounds) :
    (vecBytes vecs).length = vecLen vecs := by
  induction vecs with
  | nil => rfl
  | cons v vs ih =>
    have hv : v.off + v.len ≤ v.mem.length := h v List.mem_cons_self
    rw [vecBytes_cons, vecLen_cons, List.length_append,
      ih fun u hu => h u (List.mem_cons_of_mem _ hu), IoVec.bytes, List.length_take,
      List.length_drop]
    omega

/-! ### The invariant -/

namespace Sender

variable {s s' : Sender} {a : Act} {cs : List Call}

/-- The body that has been accepted so far. -/
def body (s : Sender) : List UInt8 := acceptedBody s.writes

/-- The queue is a prefix of the accepted body, all of it between two writes, and the chunks are
pieces of it. -/
structure BodyInv (s : Sender) : Prop where
  chained : Chained 0 s.writes
  queued_le : s.tx.txQueued ≤ s.body.length
  idle : s.tx.writeActive = false → s.isOver = false → s.body.length = s.tx.txQueued
  carries : s.mode = .staged → Carries s.body s.tx.chunks

/-- The buffer of the active write is the end of the body. -/
theorem BodyInv.active (hb : s.BodyInv) (h : s.Inv) (hactive : s.tx.writeActive = true) :
    ∃ pre, s.body = pre ++ s.tx.writeSource ∧ pre.length = s.tx.writeBase := by
  obtain ⟨ws, w, hws, hw⟩ := h.active hactive
  have hchained := hb.chained
  rw [hws, chained_concat] at hchained
  refine ⟨acceptedBody ws, ?_, ?_⟩
  · rw [Sender.body, hws, acceptedBody_concat, WriteRec.data, hw.kept, List.take_length, hw.buffer]
  · rw [← hw.base, hchained.2.1, Nat.zero_add]

/-- The part of the body from a position within the active write's buffer on. -/
theorem BodyInv.drop_eq (hb : s.BodyInv) (h : s.Inv) (hactive : s.tx.writeActive = true)
    (pos : Nat) (hpos : s.tx.writeBase ≤ pos) :
    s.body.drop pos = s.tx.writeSource.drop (pos - s.tx.writeBase) := by
  obtain ⟨pre, hbody, hlen⟩ := hb.active h hactive
  rw [hbody, List.drop_append, List.drop_eq_nil_of_le (by omega), List.nil_append, hlen]

theorem BodyInv.length_active (hb : s.BodyInv) (h : s.Inv) (hactive : s.tx.writeActive = true) :
    s.body.length = s.tx.writeBase + s.tx.writeSource.length := by
  obtain ⟨pre, hbody, hlen⟩ := hb.active h hactive
  rw [hbody, List.length_append, hlen]

/-- Carving the next chunk off the caller's buffer copies the body. -/
theorem BodyInv.carve (hb : s.BodyInv) (h : s.Inv) :
    { s with tx := s.tx.carve s.mode }.BodyInv := by
  unfold Outgoing.carve
  split
  case isFalse => exact hb
  case isTrue hcarve =>
    obtain ⟨hmode, hactive, hsent, hlt⟩ := hcarve
    obtain ⟨n, hn⟩ : ∃ n, min (s.tx.writeSource.length - s.tx.writeCopied) kWriteChunkSize = n :=
      ⟨_, rfl⟩
    have hle : n ≤ s.tx.writeSource.length - s.tx.writeCopied := hn ▸ min_le_left _ _
    obtain ⟨hqueued, _⟩ := h.tx.staged_active hmode hactive
    have hlength := hb.length_active h hactive
    have hdata : ((s.tx.writeSource.drop s.tx.writeCopied).take n).length = n := by
      rw [List.length_take, List.length_drop]
      omega
    rw [hn]
    refine ⟨hb.chained, ?_, fun ha => ?_, fun _ => (hb.carries hmode).append ⟨?_, ?_⟩⟩
    · show s.tx.txQueued + n ≤ s.body.length
      omega
    · exact absurd (hactive.symm.trans ha) (by simp)
    · show s.tx.txQueued + ((s.tx.writeSource.drop s.tx.writeCopied).take n).length ≤ s.body.length
      omega
    · show (s.tx.writeSource.drop s.tx.writeCopied).take n = (s.body.drop s.tx.txQueued).take
        ((s.tx.writeSource.drop s.tx.writeCopied).take n).length
      rw [hb.drop_eq h hactive _ (by omega), hdata, hqueued, Nat.add_sub_cancel_left]

/-- A step that neither queues nor accepts anything. -/
theorem BodyInv.congr (hb : s.BodyInv) (hwrites : s'.writes = s.writes)
    (hqueued : s'.tx.txQueued = s.tx.txQueued) (hchunks : s'.tx.chunks.Sublist s.tx.chunks)
    (hmode : s'.mode = s.mode)
    (hidle : s'.tx.writeActive = false → s'.isOver = false → s.body.length = s.tx.txQueued) :
    s'.BodyInv := by
  have hbody : s'.body = s.body := by rw [Sender.body, hwrites, Sender.body]
  exact
    { chained := hwrites ▸ hb.chained
      queued_le := by rw [hbody, hqueued]; exact hb.queued_le
      idle := fun ha ho => by rw [hbody, hqueued]; exact hidle ha ho
      carries := fun hm => by
        rw [hbody]
        exact (hb.carries (hmode.symm.trans hm)).of_sublist hchunks }

/-- A write that is queued as a whole. -/
theorem BodyInv.length_done (hb : s.BodyInv) (h : s.Inv) (hactive : s.tx.writeActive = true)
    (hall : s.tx.AllQueued s.mode) : s.body.length = s.tx.txQueued :=
  (hb.length_active h hactive).trans (h.tx.queued_eq hactive hall).symm

/-- A new write appends its buffer to the body. -/
theorem BodyInv.begin (hb : s.BodyInv) (hover : s.isOver = false)
    (hidle : s.tx.writeActive = false) (handler : Option Handler) (buffer : List UInt8)
    (eof : Bool) : (s.begin handler buffer eof).BodyInv := by
  have hlength := hb.idle hidle hover
  have hbody : (s.begin handler buffer eof).body = s.body ++ buffer := by
    rw [Sender.body, Sender.begin, acceptedBody_concat, WriteRec.data, List.take_length,
      Sender.body]
  refine ⟨?_, ?_, fun ha => absurd ha (by simp [Sender.begin, Outgoing.begin]), fun hm => ?_⟩
  · refine chained_concat.mpr ⟨hb.chained, ?_, le_rfl⟩
    rw [Nat.zero_add]
    exact hlength.symm
  · rw [hbody, List.length_append, hlength]
    cases hmode : s.mode with
    | zeroCopy => simp [Sender.begin, Outgoing.begin, hmode]
    | staged => simp [Sender.begin, Outgoing.begin, hmode]
  · rw [hbody]
    refine (hb.carries hm).of_take_eq (n := s.body.length) (fun c hc => ?_) (by simp) (by simp)
    exact (hb.carries hm c hc).1

/-- Cancellation cuts the body off where the queue ends. -/
theorem body_cancel (hb : s.BodyInv) (h : s.Inv) (hactive : s.tx.writeActive = true) :
    (s.tx.cancel s.mode).txQueued ≤ s.tx.txQueued ∧
    s.cancel.body = s.body.take (s.tx.cancel s.mode).txQueued ∧
    s.tx.writeBase ≤ (s.tx.cancel s.mode).txQueued := by
  have hacked := h.tx.acked_le_sent
  have hsent := h.tx.sent_le_offered
  have hoff := h.tx.offered_le_queued
  obtain ⟨hle, hbase⟩ : (s.tx.cancel s.mode).txQueued ≤ s.tx.txQueued ∧
      s.tx.writeBase ≤ (s.tx.cancel s.mode).txQueued := by
    cases hmode : s.mode with
    | zeroCopy =>
      have hzero := (h.tx.zero_active hmode hactive).2.1
      exact ⟨hoff, le_trans hzero (le_trans hacked hsent)⟩
    | staged =>
      have hstaged := (h.tx.staged_active hmode hactive).1
      exact ⟨le_rfl, show s.tx.writeBase ≤ s.tx.txQueued by omega⟩
  obtain ⟨ws, w, hws, hw⟩ := h.active hactive
  have hchained := hb.chained
  rw [hws, chained_concat, Nat.zero_add] at hchained
  refine ⟨hle, ?_, hbase⟩
  show acceptedBody (Stream.abandon _ s.writes) = (acceptedBody s.writes).take _
  rw [hws]
  exact acceptedBody_abandon hchained.2.1 hw.kept (hw.base ▸ hbase)

theorem BodyInv.cancel (hb : s.BodyInv) (h : s.Inv) (hactive : s.tx.writeActive = true) :
    s.cancel.BodyInv := by
  obtain ⟨hle, hbody, hbase⟩ := body_cancel hb h hactive
  have hqueued := hb.queued_le
  have hlength : (s.body.take (s.tx.cancel s.mode).txQueued).length =
      (s.tx.cancel s.mode).txQueued := by
    rw [List.length_take]
    omega
  obtain ⟨ws, w, hws, hw⟩ := h.active hactive
  have hchained := hb.chained
  rw [hws, chained_concat] at hchained
  have hwhole := hb.length_active h hactive
  refine ⟨?_, ?_, fun _ _ => ?_, fun hm => ?_⟩
  · show Chained 0 (Stream.abandon (s.tx.cancel s.mode).txQueued s.writes)
    rw [hws, abandon_concat, chained_concat]
    refine ⟨hchained.1, hchained.2.1, ?_⟩
    show (s.tx.cancel s.mode).txQueued - w.base ≤ w.buffer.length
    rw [hw.base, hw.buffer]
    omega
  · show (s.tx.cancel s.mode).txQueued ≤ s.cancel.body.length
    rw [hbody, hlength]
  · show s.cancel.body.length = (s.tx.cancel s.mode).txQueued
    rw [hbody, hlength]
  · show Carries s.cancel.body s.tx.chunks
    have hm' : s.mode = .staged := hm
    have hsame : (s.tx.cancel s.mode).txQueued = s.tx.txQueued := by rw [hm']; rfl
    obtain ⟨lo, _, hcont, _⟩ := h.tx.staged_chunks hm'
    rw [hbody]
    refine (hb.carries hm').of_take_eq (n := s.tx.txQueued)
      (fun c hc => (hcont.mem_bounds hc).2) ?_ ?_
    · rw [hlength, hsame]
    · rw [hsame, List.take_take, min_self]

theorem Step.bodyInv (h : s.Inv) (hb : s.BodyInv) (hstep : Step s cs s') : s'.BodyInv := by
  cases hstep with
  | flags closed writeAborted writer hclosed haborted =>
    exact hb.congr rfl rfl (List.Sublist.refl _) rfl fun ha ho =>
      hb.idle ha (over_eq_false hclosed haborted ho)
  | detach | framing | destroy | nothing | packet =>
    exact hb.congr rfl rfl (List.Sublist.refl _) rfl hb.idle
  | release ec hover =>
    refine hb.congr rfl rfl (List.Sublist.refl _) rfl fun _ ho => ?_
    exact absurd (hover.symm.trans ho) (by simp)
  | poll room =>
    have hcarve := hb.carve h
    exact hcarve.congr rfl rfl (List.Sublist.refl _) rfl hcarve.idle
  | take room n header =>
    have hcarve := hb.carve h
    have hactive := (s.sameWrite_taken n (s.fin room && n == vecLen (s.vecs room).1)).1.active
    refine hcarve.congr rfl (taken_txQueued s n _)
      (taken_chunks s n _ ▸ List.Sublist.refl _) rfl fun ha ho => hcarve.idle ?_ ho
    exact (s.tx.sameWrite_carve s.mode).1.active.trans (hactive.symm.trans ha)
  | finish hactive hdone =>
    refine hb.congr rfl rfl (List.Sublist.refl _) rfl fun _ _ => hb.length_done h hactive ?_
    rcases hdone with ⟨hbare, _⟩ | ⟨_, _, _, hcopied⟩
    · exact h.tx.allQueued_of_bare hactive hbare
    · exact Or.inr hcopied
  | acked stop => exact hb.congr rfl rfl (dropBelow_sublist _ _) rfl hb.idle
  | ackedLast stop hmode hactive =>
    exact hb.congr rfl rfl (dropBelow_sublist _ _) rfl fun _ _ =>
      hb.length_done h hactive (Or.inl hmode)

/-! ### What has been handed out -/

/-- What `pending_data()` returns is the body from where it is asked for. -/
theorem vecs_holdAt (hb : s.BodyInv) (h : s.Inv) (room : Nat) :
    HoldAt s.body s.tx.txOffered (s.vecs room).1 := by
  have hcarve := h.carve
  have hbcarve := hb.carve h
  have hle : (s.tx.carve s.mode).txAcked ≤ s.tx.txOffered := by
    have hsame : (s.tx.carve s.mode).txOffered = s.tx.txOffered := Outgoing.carve_txOffered
    rw [← hsame]
    exact le_trans hcarve.tx.acked_le_sent hcarve.tx.sent_le_offered
  unfold Sender.vecs Outgoing.sourceVecs
  split
  case h_1 hmode =>
    split
    case isTrue hpending =>
      obtain ⟨hactive, hlt⟩ := hpending
      obtain ⟨hqueued, hbase, _⟩ := hcarve.tx.zero_active hmode hactive
      have hstart : (s.tx.carve s.mode).writeBase ≤ s.tx.txOffered := le_trans hbase hle
      have hdrop : s.body.drop s.tx.txOffered = (s.tx.carve s.mode).writeSource.drop
          (s.tx.txOffered - (s.tx.carve s.mode).writeBase) :=
        hbcarve.drop_eq hcarve hactive _ hstart
      refine HoldAt.cons ?_ ?_ (HoldAt.nil _ _)
      · show s.tx.txOffered - (s.tx.carve s.mode).writeBase +
          ((s.tx.carve s.mode).txQueued - s.tx.txOffered) ≤ (s.tx.carve s.mode).writeSource.length
        have : (s.tx.carve s.mode).txQueued =
          (s.tx.carve s.mode).writeBase + (s.tx.carve s.mode).writeSource.length := hqueued
        omega
      · rw [hdrop]
        rfl
    case isFalse => exact HoldAt.nil _ _
  case h_2 hmode =>
    obtain ⟨lo, hlo, hcont, _⟩ := hcarve.tx.staged_chunks hmode
    exact chunkVecs_holdAt hcont (hbcarve.carries hmode) (le_trans hlo hle) room

/-- Each call of `pending_data()` asks for what comes after the bytes taken by the ones before it,
and together they have taken everything up to `hi`. -/
def Follows : Nat → List Offer → Nat → Prop
  | pos, [], hi => pos = hi
  | pos, o :: os, hi => o.start = pos ∧ Follows (pos + o.taken) os hi

theorem Follows.concat {pos hi : Nat} {os : List Offer} (h : Follows pos os hi) {o : Offer}
    (hstart : o.start = hi) : Follows pos (os ++ [o]) (hi + o.taken) := by
  induction os generalizing pos with
  | nil =>
    obtain rfl : pos = hi := h
    exact ⟨hstart, rfl⟩
  | cons p os ih => exact ⟨h.1, ih h.2⟩

theorem Follows.le {pos hi : Nat} {os : List Offer} (h : Follows pos os hi) : pos ≤ hi := by
  induction os generalizing pos with
  | nil => exact le_of_eq h
  | cons p os ih => exact le_trans (Nat.le_add_right _ _) (ih h.2)

theorem Follows.taken_le {pos hi : Nat} {os : List Offer} (h : Follows pos os hi) {o : Offer}
    (ho : o ∈ os) : o.start + o.taken ≤ hi := by
  induction os generalizing pos with
  | nil => exact absurd ho (by simp)
  | cons p os ih =>
    rcases List.mem_cons.mp ho with rfl | ho
    · rw [h.1]
      exact h.2.le
    · exact ih h.2 ho

/-- The byte at `j` of this offer was not taken, and the write it belongs to has been cancelled
since. This can only happen to a plain stream that does not copy. -/
def Abandoned (s : Sender) (o : Offer) (j : Nat) (b : UInt8) : Prop :=
  s.mode = .zeroCopy ∧ s.kind ≠ .http3 ∧ o.taken ≤ j ∧
    ∃ w ∈ s.writes, w.cancelled = true ∧ w.base + w.kept ≤ o.start + j ∧
      w.buffer[o.start + j - w.base]? = some b

/-- What is known of every call of `pending_data()` so far. -/
structure OffersInv (s : Sender) : Prop where
  inBounds : ∀ o ∈ s.offers, ∀ v ∈ o.vecs, v.InBounds
  bytes : ∀ o ∈ s.offers, ∀ j b, (vecBytes o.vecs)[j]? = some b →
    s.body[o.start + j]? = some b ∨ s.Abandoned o j b
  follows : Follows 0 s.offers s.tx.txOffered
  http3 : s.kind = .http3 → ∀ o ∈ s.offers, vecLen o.vecs ≤ o.taken
  staged : s.mode = .staged → ∀ o ∈ s.offers, o.start + vecLen o.vecs ≤ s.tx.txQueued
  fin : ∀ o ∈ s.offers, o.fin = true →
    ∃ w ∈ s.writes, w.eof = true ∧ o.start + vecLen o.vecs = w.base + w.buffer.length

/-- Steps without a call of `pending_data()` that leave the writes alone. -/
theorem OffersInv.congr (ho : s.OffersInv) (hoffers : s'.offers = s.offers)
    (hwrites : s'.writes = s.writes) (hoffered : s'.tx.txOffered = s.tx.txOffered)
    (hqueued : s.tx.txQueued ≤ s'.tx.txQueued) (hmode : s'.mode = s.mode)
    (hkind : s'.kind = s.kind) : s'.OffersInv where
  inBounds := hoffers ▸ ho.inBounds
  bytes := fun o hmem j b hj => by
    rw [hoffers] at hmem
    have := ho.bytes o hmem j b hj
    rwa [Abandoned, Sender.body, hwrites, hmode, hkind]
  follows := by
    rw [hoffers, hoffered]
    exact ho.follows
  http3 := fun hk => by
    rw [hoffers]
    exact ho.http3 (hkind ▸ hk)
  staged := fun hm o hmem => by
    rw [hoffers] at hmem
    exact le_trans (ho.staged (hmode ▸ hm) o hmem) hqueued
  fin := by
    rw [hoffers, hwrites]
    exact ho.fin

/-- The vecs that end the body end where the buffer of the active write does, which is to end it. -/
theorem Inv.fin_active (h : s.Inv) {room : Nat} (hfin : s.fin room = true) :
    s.tx.writeActive = true ∧ ∃ ws w, s.writes = ws ++ [w] ∧ w.token = s.tx.writeToken ∧
      w.eof = true ∧ w.cancelled = false ∧
      s.tx.txOffered + vecLen (s.vecs room).1 = w.base + w.buffer.length := by
  have hcarve := h.carve
  obtain ⟨hactive, heof, hall, hle⟩ := Outgoing.endsAt_iff.mp hfin
  obtain ⟨hstop, hqueued⟩ := hcarve.tx.sourceVecs_stop room
  obtain ⟨ws, w, hws, hw⟩ := hcarve.active hactive
  have hsame := (s.tx.sameWrite_carve s.mode).1
  refine ⟨hsame.active ▸ hactive, ws, w, hws, hw.token.trans hsame.token, hw.eof.trans heof,
    hw.cancelled, ?_⟩
  have hend := hcarve.tx.queued_eq hactive hall
  have hstop' : (s.vecs room).2 = s.tx.txOffered + vecLen (s.vecs room).1 := by
    simpa [Sender.vecs] using hstop
  have hqueued' : (s.vecs room).2 ≤ (s.tx.carve s.mode).txQueued := by
    simpa [Sender.vecs] using hqueued
  rw [hw.base, hw.buffer, ← hend, ← hstop']
  exact le_antisymm hqueued' hle

theorem Inv.fin_record (h : s.Inv) {room : Nat} (hfin : s.fin room = true) :
    ∃ w ∈ s.writes, w.eof = true ∧
      s.tx.txOffered + vecLen (s.vecs room).1 = w.base + w.buffer.length := by
  obtain ⟨_, ws, w, hws, _, heof, _, hend⟩ := h.fin_active hfin
  exact ⟨w, hws ▸ (by simp), heof, hend⟩

/-- The next call of `pending_data()`, with what the stack takes of it. -/
theorem OffersInv.concat (ho : s.OffersInv) {o : Offer} (hstart : o.start = s.tx.txOffered)
    (hhold : HoldAt s.body o.start o.vecs) (hhttp3 : s.kind = .http3 → vecLen o.vecs ≤ o.taken)
    (hstaged : s.mode = .staged → o.start + vecLen o.vecs ≤ s'.tx.txQueued)
    (hfin : o.fin = true →
      ∃ w ∈ s.writes, w.eof = true ∧ o.start + vecLen o.vecs = w.base + w.buffer.length)
    (hwrites : s'.writes = s.writes) (hmode : s'.mode = s.mode) (hkind : s'.kind = s.kind)
    (hoffers : s'.offers = s.offers ++ [o])
    (hoffered : s'.tx.txOffered = s.tx.txOffered + o.taken)
    (hqueued : s.tx.txQueued ≤ s'.tx.txQueued) : s'.OffersInv := by
  have hbody : s'.body = s.body := by rw [Sender.body, hwrites, Sender.body]
  -- every clause is about the calls before, or about this one
  have hcases : ∀ p ∈ s'.offers, p ∈ s.offers ∨ p = o := by
    intro p hp
    rwa [hoffers, List.mem_append, List.mem_singleton] at hp
  refine ⟨?_, ?_, ?_, ?_, ?_, ?_⟩
  · intro p hp
    rcases hcases p hp with hp | rfl
    · exact ho.inBounds p hp
    · exact hhold.inBounds
  · intro p hp j b hj
    rcases hcases p hp with hp | rfl
    · have := ho.bytes p hp j b hj
      rwa [Abandoned, hbody, hwrites, hmode, hkind]
    · exact Or.inl (hbody ▸ hhold.getElem? hj)
  · rw [hoffers, hoffered]
    exact ho.follows.concat hstart
  · intro hk p hp
    rw [hkind] at hk
    rcases hcases p hp with hp | rfl
    · exact ho.http3 hk p hp
    · exact hhttp3 hk
  · intro hm p hp
    rw [hmode] at hm
    rcases hcases p hp with hp | rfl
    · exact le_trans (ho.staged hm p hp) hqueued
    · exact hstaged hm
  · intro p hp hpfin
    rw [hwrites]
    rcases hcases p hp with hp | rfl
    · exact ho.fin p hp hpfin
    · exact hfin hpfin

/-- What is offered ends within the queue. -/
theorem Inv.vecs_le (h : s.Inv) (room : Nat) :
    s.tx.txOffered + vecLen (s.vecs room).1 ≤ (s.tx.carve s.mode).txQueued := by
  obtain ⟨hstop, hle⟩ := h.carve.tx.sourceVecs_stop room
  simp only [Outgoing.carve_txOffered] at hstop hle
  exact hstop ▸ hle

/-- A new write only adds to the body. -/
theorem OffersInv.begin (ho : s.OffersInv) (handler : Option Handler) (buffer : List UInt8)
    (eof : Bool) : (s.begin handler buffer eof).OffersInv where
  inBounds := ho.inBounds
  bytes := fun o hmem j b hj => by
    rcases ho.bytes o hmem j b hj with hbody | ⟨hmode, hkind, htaken, w, hw, habandoned⟩
    · left
      rw [Sender.body, Sender.begin, acceptedBody_concat]
      rw [List.getElem?_append_left]
      · exact hbody
      · exact (List.getElem?_eq_some_iff.mp hbody).1
    · exact Or.inr ⟨hmode, hkind, htaken, w, List.mem_append_left _ hw, habandoned⟩
  follows := ho.follows
  http3 := ho.http3
  staged := fun hm o hmem => by
    have hm' : s.mode = .staged := hm
    have := ho.staged hm' o hmem
    simpa only [Sender.begin, Outgoing.begin, hm'] using this
  fin := fun o hmem hfin => by
    obtain ⟨w, hw, hend⟩ := ho.fin o hmem hfin
    exact ⟨w, List.mem_append_left _ hw, hend⟩

/-- Cancellation abandons nothing that the stack has taken, and nothing that has been copied. -/
theorem OffersInv.cancel (ho : s.OffersInv) (hb : s.BodyInv) (h : s.Inv)
    (hactive : s.tx.writeActive = true) :
    s.cancel.OffersInv := by
  obtain ⟨hle, hbody, hbase⟩ := body_cancel hb h hactive
  obtain ⟨ws, w, hws, hw⟩ := h.active hactive
  have hoffered : s.tx.txOffered ≤ (s.tx.cancel s.mode).txQueued := by
    have := h.tx.offered_le_queued
    cases hmode : s.mode with
    | zeroCopy => exact le_rfl
    | staged => exact this
  refine ⟨ho.inBounds, ?_, ho.follows, ho.http3, ?_, ?_⟩
  · intro o hmem j b hj
    rcases ho.bytes o hmem j b hj with hin | ⟨hmode, hkind, htaken, v, hv, hcancelled, hv'⟩
    · by_cases hlt : o.start + j < (s.tx.cancel s.mode).txQueued
      · left
        rw [hbody, List.getElem?_take_of_lt hlt]
        exact hin
      · right
        have hjlt : j < vecLen o.vecs := by
          rw [← length_vecBytes (ho.inBounds o hmem)]
          exact (List.getElem?_eq_some_iff.mp hj).1
        have htaken := ho.follows.taken_le hmem
        refine ⟨?_, fun hk => ?_, by omega,
          { w with kept := (s.tx.cancel s.mode).txQueued - w.base, cancelled := true }, ?_,
            rfl, ?_, ?_⟩
        · cases hmode : s.mode with
          | zeroCopy => exact hmode
          | staged =>
            have hsame : (s.tx.cancel s.mode).txQueued = s.tx.txQueued := by rw [hmode]; rfl
            have := ho.staged hmode o hmem
            omega
        · have := ho.http3 hk o hmem
          omega
        · show _ ∈ Stream.abandon _ s.writes
          rw [hws, abandon_concat]
          exact List.mem_append_right _ (List.mem_singleton_self _)
        · show w.base + ((s.tx.cancel s.mode).txQueued - w.base) ≤ o.start + j
          rw [hw.base]
          omega
        · show w.buffer[o.start + j - w.base]? = some b
          obtain ⟨pre, hpre, hlen⟩ := hb.active h hactive
          rw [hpre, List.getElem?_append_right (by omega), hlen] at hin
          rw [hw.buffer, hw.base]
          exact hin
    · -- it had been abandoned before, by the cancellation of an earlier write
      refine Or.inr ⟨hmode, hkind, htaken, v, ?_, hcancelled, hv'⟩
      show v ∈ Stream.abandon _ s.writes
      rw [hws, abandon_concat]
      rw [hws] at hv
      rcases List.mem_append.mp hv with hv | hv
      · exact List.mem_append_left _ hv
      · rw [List.mem_singleton] at hv
        rw [hv, hw.cancelled] at hcancelled
        exact absurd hcancelled (by simp)
  · intro hm o hmem
    have hm' : s.mode = .staged := hm
    have := ho.staged hm' o hmem
    rw [Sender.cancel, hm']
    exact this
  · intro o hmem hfin
    obtain ⟨v, hv, heof, hend⟩ := ho.fin o hmem hfin
    show ∃ u ∈ Stream.abandon _ s.writes, _
    rw [hws] at hv
    rw [hws, abandon_concat]
    rcases List.mem_append.mp hv with hv | hv
    · exact ⟨v, List.mem_append_left _ hv, heof, hend⟩
    · rw [List.mem_singleton] at hv
      exact ⟨_, List.mem_append_right _ (List.mem_singleton_self _), hv ▸ heof, hv ▸ hend⟩

theorem carve_txQueued_le (s : Sender) : s.tx.txQueued ≤ (s.tx.carve s.mode).txQueued := by
  unfold Outgoing.carve
  split
  · exact Nat.le_add_right _ _
  · exact le_rfl

theorem Step.offersInv (h : s.Inv) (hb : s.BodyInv) (ho : s.OffersInv) (hstep : Step s cs s') :
    s'.OffersInv := by
  cases hstep with
  | nothing =>
    exact ho.concat (o := ⟨s.tx.txOffered, [], false, 0⟩) rfl (HoldAt.nil _ _) (fun _ => le_rfl)
      (fun _ => h.tx.offered_le_queued) (fun hfin => absurd hfin (by simp)) rfl rfl rfl rfl rfl
      le_rfl
  | poll room _ _ hhttp3 =>
    exact ho.concat rfl (vecs_holdAt hb h room) (fun hk => by simp [hhttp3 hk])
      (fun _ => h.vecs_le room) h.fin_record rfl rfl rfl rfl Outgoing.carve_txOffered
      s.carve_txQueued_le
  | take room n header _ _ hn _ hhttp3 =>
    have hqueued := taken_txQueued s n (s.fin room && n == vecLen (s.vecs room).1)
    exact ho.concat rfl (vecs_holdAt hb h room) (fun hk => (hhttp3 hk).ge)
      (fun _ => hqueued ▸ h.vecs_le room) h.fin_record rfl rfl rfl rfl (h.taken hn).2
      (hqueued ▸ s.carve_txQueued_le)
  | flags | framing | detach | release | destroy | packet | finish | acked | ackedLast =>
    exact ho.congr rfl rfl rfl le_rfl rfl rfl

/-- The invariants that concern the bytes, together. -/
structure BytesInv (s : Sender) : Prop where
  inv : s.Inv
  body : s.BodyInv
  offers : s.OffersInv

theorem Step.bytesInv (h : s.BytesInv) (hstep : Step s cs s') : s'.BytesInv :=
  ⟨hstep.inv h.inv, hstep.bodyInv h.inv h.body, hstep.offersInv h.inv h.body h.offers⟩

theorem Steps.bytesInv (h : s.BytesInv) (hsteps : Steps s cs s') : s'.BytesInv := by
  induction hsteps with
  | refl => exact h
  | cons hstep _ ih => exact ih (hstep.bytesInv h)

theorem Turn.bytesInv (h : s.BytesInv) (hturn : Turn s a cs s') : s'.BytesInv := by
  have hinv := hturn.inv h.inv
  cases hturn with
  | refuse => exact h
  | adopt =>
    exact ⟨hinv, h.body.congr rfl rfl (List.Sublist.refl _) rfl h.body.idle,
      h.offers.congr rfl rfl rfl le_rfl rfl rfl⟩
  | begin handler buffer eof _ hover heof hready hcarries =>
    have hidle := h.inv.tx.idle_of_ready heof fun ha => (hready ha).2
    exact ⟨h.inv.begin hover heof hready handler hcarries,
      h.body.begin hover hidle handler buffer eof, h.offers.begin handler buffer eof⟩
  | cancel closed writeAborted handler hhandler hdata hclosed haborted hheld =>
    have h₁ := (step_setOver hclosed haborted).bytesInv h
    have hactive := h₁.inv.tx.handler_active (by simp [setOver, hhandler])
    exact ⟨h₁.inv.cancel hhandler hdata hheld, h₁.body.cancel h₁.inv hactive,
      h₁.offers.cancel h₁.body h₁.inv hactive⟩
  | steps hsteps => exact hsteps.bytesInv h

/-! ### The end of the body -/

/-- Once the FIN has been handed over, there is nothing left to carve. -/
theorem Inv.carve_of_fin (h : s.Inv) (hover : s.isOver = false) (hfin : s.tx.finOffered = true) :
    s.tx.carve s.mode = s.tx := by
  unfold Outgoing.carve
  refine if_neg fun ⟨hmode, hactive, _, hlt⟩ => ?_
  rcases (h.tx.fin_ended hfin hover).2.2 hactive with hzero | hcopied
  · exact absurd (hmode.symm.trans hzero) (by simp)
  · omega

/-- Nothing is queued any more after the FIN. -/
structure Ended (s s' : Sender) : Prop where
  fin : s'.tx.finOffered = true
  queued : s'.tx.txQueued ≤ s.tx.txQueued
  writes : s'.writes.length = s.writes.length

theorem Step.ended (h : s.Inv) (hfin : s.tx.finOffered = true) (hstep : Step s cs s') :
    Ended s s' := by
  cases hstep with
  | poll room _ hover =>
    refine ⟨?_, ?_, rfl⟩
    · show (s.tx.carve s.mode).finOffered = true
      rw [h.carve_of_fin hover hfin]
      exact hfin
    · show (s.tx.carve s.mode).txQueued ≤ s.tx.txQueued
      rw [h.carve_of_fin hover hfin]
  | take room n header _ hover =>
    refine ⟨?_, ?_, rfl⟩
    · show (s.taken n _).finOffered = true
      unfold Sender.taken
      rw [h.carve_of_fin hover hfin]
      split <;> simp [Outgoing.sent, Outgoing.offered, hfin]
    · show (s.taken n _).txQueued ≤ s.tx.txQueued
      rw [taken_txQueued, h.carve_of_fin hover hfin]
  | _ => exact ⟨hfin, le_rfl, rfl⟩

theorem Steps.ended (h : s.Inv) (hfin : s.tx.finOffered = true) (hsteps : Steps s cs s') :
    Ended s s' := by
  induction hsteps with
  | refl => exact ⟨hfin, le_rfl, rfl⟩
  | cons hstep _ ih =>
    have h₁ := hstep.ended h hfin
    have h₂ := ih (hstep.inv h) h₁.fin
    exact ⟨h₂.fin, le_trans h₂.queued h₁.queued, h₂.writes.trans h₁.writes⟩

theorem Turn.ended (h : s.Inv) (hfin : s.tx.finOffered = true) (hturn : Turn s a cs s') :
    Ended s s' := by
  cases hturn with
  | refuse | adopt => exact ⟨hfin, le_rfl, rfl⟩
  | begin handler buffer eof _ hover heof =>
    -- a body that is not over is not begun again
    have := (h.tx.fin_ended hfin hover).1
    rw [heof] at this
    exact absurd this (by simp)
  | cancel closed writeAborted handler =>
    refine ⟨hfin, ?_, ?_⟩
    · show (s.tx.cancel s.mode).txQueued ≤ s.tx.txQueued
      cases hmode : s.mode with
      | zeroCopy => exact h.tx.offered_le_queued
      | staged => exact le_rfl
    · have := congrArg List.length (abandon_tokens (s.tx.cancel s.mode).txQueued s.writes)
      rwa [List.length_map, List.length_map] at this
  | steps hsteps => exact hsteps.ended h hfin

end Sender

/-! ### Every reachable stream -/

namespace Stream

variable {kind : Kind} {mode : WriteMode} {m : Stream}

/-- The body that the stream has accepted. -/
def body (m : Stream) : List UInt8 := acceptedBody m.writes

theorem Reachable.bytesInv (h : Reachable kind mode m) : m.sender.BytesInv := by
  obtain ⟨headers, acts, hrun⟩ := h
  have hinit := sound_init kind mode headers
  have hinv : m.Sound ∧ m.sender.BytesInv :=
    run_inv (P := fun m => m.Sound ∧ m.sender.BytesInv)
      (fun _ _ _ hs hstep => by
        obtain ⟨hturn, hsound⟩ := step_turn hs.1 hstep
        exact ⟨hsound, hturn.bytesInv hs.2⟩)
      ⟨hinit, hinit.sender,
        ⟨trivial, le_rfl, fun _ _ => rfl, fun _ c hc => absurd hc (by simp [init, Stream.sender])⟩,
        ⟨by simp [init, Stream.sender], by simp [init, Stream.sender], rfl,
          by simp [init, Stream.sender], by simp [init, Stream.sender],
          by simp [init, Stream.sender]⟩⟩ hrun
  exact hinv.2

/-- In every continuation of a run that has handed over the FIN, nothing more is queued. -/
theorem run_ended (hm : m.Sound) (hfin : m.q.tx.finOffered = true) {acts : List Act} {u : Stream}
    (hrun : run step m acts = some u) : Sender.Ended m.sender u.sender := by
  have hinv : u.Sound ∧ Sender.Ended m.sender u.sender :=
    run_inv (P := fun u => u.Sound ∧ Sender.Ended m.sender u.sender)
      (fun _ _ _ hs hstep => by
        obtain ⟨hturn, hsound⟩ := step_turn hs.1 hstep
        have hended := hturn.ended hs.1.sender hs.2.fin
        exact ⟨hsound, hended.fin, le_trans hended.queued hs.2.queued,
          hended.writes.trans hs.2.writes⟩)
      ⟨hm, hfin, le_rfl, rfl⟩ hrun
  exact hinv.2

/-- The integrity of the outgoing body. -/
structure BodyOk (m : Stream) : Prop where
  /-- What `pending_data()` hands out is, at that time, the accepted body from there on. -/
  now : ∀ room, HoldAt m.body m.q.tx.txOffered (m.q.pendingData m.q.tx.txOffered room).2.1
  /-- It stays that, except for bytes that were abandoned before the stack took them. -/
  always : ∀ o ∈ m.offers, (∀ v ∈ o.vecs, v.InBounds) ∧
    ∀ j b, (vecBytes o.vecs)[j]? = some b →
      m.body[o.start + j]? = some b ∨ m.sender.Abandoned o j b
  /-- The bytes that were taken follow each other without a gap, each taken once. -/
  follows : Sender.Follows 0 m.offers m.q.tx.txOffered
  /-- The FIN is reported for the write that is active, which is to end the body and has not been
  cancelled, with the last byte of it. -/
  finActive : ∀ room, (m.q.pendingData m.q.tx.txOffered room).2.2 = true →
    m.q.tx.writeActive = true ∧ ∃ ws w, m.writes = ws ++ [w] ∧ w.token = m.q.tx.writeToken ∧
      w.eof = true ∧ w.cancelled = false ∧
      m.q.tx.txOffered + vecLen (m.q.pendingData m.q.tx.txOffered room).2.1 =
        w.base + w.buffer.length
  /-- The FIN has come with the last byte of a write that was to end the body. -/
  fin : ∀ o ∈ m.offers, o.fin = true →
    ∃ w ∈ m.writes, w.eof = true ∧ o.start + vecLen o.vecs = w.base + w.buffer.length
  /-- Nothing is queued any more once the FIN has been handed over. -/
  ended : m.q.tx.finOffered = true → ∀ acts u, run step m acts = some u →
    u.q.tx.txQueued ≤ m.q.tx.txQueued ∧ u.writes.length = m.writes.length

/-- **Outgoing body integrity**, in every reachable state. -/
theorem Reachable.bodyOk (h : Reachable kind mode m) : m.BodyOk where
  now := fun room => by
    have hinv := h.bytesInv
    by_cases hroom : room = 0
    · rw [QuicStream.pendingData, if_pos (Or.inl hroom)]
      exact HoldAt.nil _ _
    cases hover : m.q.sendingOver with
    | true =>
      rw [pendingData_over hover]
      exact HoldAt.nil _ _
    | false =>
      rw [pendingData_alive hover _ (Nat.pos_of_ne_zero hroom)]
      exact Sender.vecs_holdAt hinv.body hinv.inv room
  always := fun o ho => ⟨h.bytesInv.offers.inBounds o ho, h.bytesInv.offers.bytes o ho⟩
  follows := h.bytesInv.offers.follows
  finActive := fun room hfin => by
    have hinv := h.bytesInv
    have hover : m.q.sendingOver = false := by
      refine Bool.eq_false_iff.mpr fun hover => ?_
      rw [pendingData_over hover] at hfin
      exact absurd hfin Bool.false_ne_true
    have hroom : 0 < room := by
      refine Nat.pos_of_ne_zero fun hzero => ?_
      rw [QuicStream.pendingData, if_pos (Or.inl hzero)] at hfin
      exact absurd hfin Bool.false_ne_true
    rw [pendingData_alive hover _ hroom] at hfin ⊢
    exact hinv.inv.fin_active hfin
  fin := h.bytesInv.offers.fin
  ended := fun hfin acts u hrun => by
    have hended := run_ended h.sound hfin hrun
    exact ⟨hended.queued, hended.writes⟩

/-- A write is offered and not taken, cancelled, and followed by another one. -/
def reusedOffset : Stream :=
  after (.plain ⟨0, 0⟩) .zeroCopy
    [.startWrite (some ⟨1, none⟩) [1] false, .writePkt .notWritten, .cancelWrite 1,
      .startWrite (some ⟨2, none⟩) [2] false, .writePkt (.written 1)]

theorem bodyOk_reusedOffset : reusedOffset.body = [2] ∧ reusedOffset.BodyOk :=
  ⟨by decide, (reachable_after (by decide)).bodyOk⟩

/-- Both writes have been handed out at offset 0, so that not everything that is ever handed out is
part of the accepted body. -/
theorem handedOut_not_accepted :
    Reachable (.plain ⟨0, 0⟩) .zeroCopy reusedOffset ∧
      ¬∀ o ∈ reusedOffset.offers, ∀ j b, (vecBytes o.vecs)[j]? = some b →
        reusedOffset.body[o.start + j]? = some b := by
  refine ⟨reachable_after (by decide), fun hall => ?_⟩
  have hfirst : ⟨0, [⟨some 1, [1], 0, 1⟩], false, 0⟩ ∈ reusedOffset.offers := by decide
  exact absurd (hall _ hfirst 0 1 (by decide)) (by decide)

end Stream

end AnyHttp.Quic
