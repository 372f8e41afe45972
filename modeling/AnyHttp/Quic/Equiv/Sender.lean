import AnyHttp.Quic.Equiv.Outgoing

/-!
# The sender: its invariant, and that a stream is one
-/

namespace AnyHttp.Quic

open Lib

namespace Sender

variable {s s' : Sender} {a : Act} {cs : List Call}

/-! ### The invariant -/

/-- `w` is the record of the active write. -/
structure Tracks (s : Sender) (w : WriteRec) : Prop where
  token : w.token = s.tx.writeToken
  base : w.base = s.tx.writeBase
  buffer : w.buffer = s.tx.writeSource
  eof : w.eof = s.tx.writeIsEof
  kept : w.kept = w.buffer.length
  cancelled : w.cancelled = false
  handler : s.tx.writeSource ≠ [] → s.destroyed = false → s.tx.writeHandler = w.handler

/-- What holds of the sending side at any time. -/
structure Inv (s : Sender) : Prop where
  tx : s.tx.Inv s.kind s.mode s.isOver
  wire : s.wire.count true = s.tx.txOffered
  sent_le : s.sent ≤ s.wire.length
  bodySent_le : s.bodySent ≤ s.tx.txSent
  active : s.tx.writeActive = true → ∃ ws w, s.writes = ws ++ [w] ∧ s.Tracks w
  tokens : (s.writes.map WriteRec.token).Pairwise (· < ·)
  tokens_lt : ∀ w ∈ s.writes, w.token < s.tx.nextWriteToken

theorem abandon_concat (queued : Nat) (ws : List WriteRec) (w : WriteRec) :
    Stream.abandon queued (ws ++ [w]) =
      ws ++ [{ w with kept := queued - w.base, cancelled := true }] := by
  simp [Stream.abandon]

/-- Abandoning the rest of a write changes nothing but how much of it counts. -/
theorem abandon_tokens (queued : Nat) (ws : List WriteRec) :
    (Stream.abandon queued ws).map WriteRec.token = ws.map WriteRec.token := by
  rcases List.eq_nil_or_concat ws with rfl | ⟨ws, w, rfl⟩
  · rfl
  · simp [Stream.abandon]

/-- What is true of a wire position by position is true of it after more is queued. -/
theorem count_take_le (wire : List Bool) (n : Nat) :
    (wire.take n).count true ≤ wire.count true :=
  (List.take_sublist n wire).count_le true

theorem bodySent_append (h : s.sent ≤ s.wire.length) (more : List Bool) :
    ((s.wire ++ more).take s.sent).count true = s.bodySent := by
  rw [List.take_append_of_le_length h]
  rfl

/-- What the stack takes of what it is offered, it is offered in order. -/
theorem Inv.taken (h : s.Inv) {room n : Nat} (hn : n ≤ vecLen (s.vecs room).1) :
    (s.taken n (s.fin room && n == vecLen (s.vecs room).1)).Inv s.kind s.mode s.isOver ∧
      (s.taken n (s.fin room && n == vecLen (s.vecs room).1)).txOffered = s.tx.txOffered + n := by
  have hcarve := h.tx.carve
  obtain ⟨hstop, hle⟩ := hcarve.sourceVecs_stop room
  have hoffq := hcarve.offered_le_queued
  have hplain := hcarve.plain_sent
  rw [Outgoing.carve_txOffered] at hstop hle hoffq hplain
  have hstop' : (s.vecs room).2 = s.tx.txOffered + vecLen (s.vecs room).1 := hstop
  have hle' : (s.vecs room).2 ≤ (s.tx.carve s.mode).txQueued := hle
  have hoffered : ((s.tx.carve s.mode).offered (s.tx.txOffered + n)
      (s.fin room && n == vecLen (s.vecs room).1)).Inv .http3 s.mode s.isOver := by
    refine hcarve.to_http3.offered ?_ ?_
    · intro hfin
      rw [Bool.and_eq_true, beq_iff_eq] at hfin
      obtain ⟨ha, he, hall, hq⟩ := Outgoing.endsAt_iff.mp hfin.1
      exact ⟨ha, he, hall, by omega⟩
    · intro ha he _ hall hq
      rw [Bool.and_eq_true, beq_iff_eq]
      exact ⟨Outgoing.endsAt_iff.mpr ⟨ha, he, hall, by omega⟩, by omega⟩
  have hmax : max s.tx.txOffered (min (s.tx.txOffered + n) (s.tx.carve s.mode).txQueued) =
      s.tx.txOffered + n := by omega
  unfold Sender.taken
  -- HTTP/3 hands over before it sends, a plain stream does both at once
  by_cases hkind : s.kind = .http3
  · simp only [if_pos hkind]
    refine ⟨hkind ▸ hoffered, ?_⟩
    simpa [Outgoing.offered] using hmax
  · simp only [if_neg hkind]
    refine ⟨(hoffered.sent ?_).of_http3 fun _ => ?_, ?_⟩
    · have := hplain hkind
      simp only [Outgoing.offered]
      omega
    · simp only [Outgoing.sent, Outgoing.offered, Outgoing.carve_txOffered, hmax]
      exact min_self _
    · simpa [Outgoing.sent, Outgoing.offered] using hmax

/-- The active write stays the one it was while its bytes are taken. -/
theorem sameWrite_taken (s : Sender) (n : Nat) (fin : Bool) :
    s.tx.SameWrite (s.taken n fin) ∧ (s.taken n fin).writeHandler = s.tx.writeHandler := by
  obtain ⟨hcarve, hhandler, _⟩ := s.tx.sameWrite_carve s.mode
  unfold Sender.taken
  by_cases hkind : s.kind = .http3
  · rw [if_pos hkind]
    exact ⟨hcarve.trans ⟨rfl, rfl, rfl, rfl, rfl, rfl, rfl⟩, hhandler⟩
  · rw [if_neg hkind]
    exact ⟨hcarve.trans ⟨rfl, rfl, rfl, rfl, rfl, rfl, rfl⟩, hhandler⟩

@[simp] theorem taken_txQueued (s : Sender) (n : Nat) (fin : Bool) :
    (s.taken n fin).txQueued = (s.tx.carve s.mode).txQueued := by
  unfold Sender.taken
  dsimp only
  split <;> rfl

@[simp] theorem taken_chunks (s : Sender) (n : Nat) (fin : Bool) :
    (s.taken n fin).chunks = (s.tx.carve s.mode).chunks := by
  unfold Sender.taken
  dsimp only
  split <;> rfl

/-- The record of the active write stays the one it was. -/
theorem Inv.tracks (h : s.Inv) (htx : s.tx.SameWrite s'.tx) (hwrites : s'.writes = s.writes)
    (hhandler : s.tx.writeSource ≠ [] → s'.destroyed = false →
      s.destroyed = false ∧ s'.tx.writeHandler = s.tx.writeHandler) :
    s'.tx.writeActive = true → ∃ ws w, s'.writes = ws ++ [w] ∧ s'.Tracks w := by
  intro ha
  obtain ⟨ws, w, hws, hw⟩ := h.active (htx.active ▸ ha)
  refine ⟨ws, w, hwrites.trans hws, ?_⟩
  exact
    { token := hw.token.trans htx.token.symm
      base := hw.base.trans htx.base.symm
      buffer := hw.buffer.trans htx.source.symm
      eof := hw.eof.trans htx.isEof.symm
      kept := hw.kept
      cancelled := hw.cancelled
      handler := fun hs hd => by
        have hs' : s.tx.writeSource ≠ [] := htx.source ▸ hs
        obtain ⟨hd', hh⟩ := hhandler hs' hd
        exact hh.trans (hw.handler hs' hd') }

/-- A change of the positions that leaves the writes and the wire alone. -/
theorem Inv.setTx (h : s.Inv) {t : Outgoing} (ht : t.Inv s.kind s.mode s.isOver)
    (hoffered : t.txOffered = s.tx.txOffered) (hsent : s.tx.txSent ≤ t.txSent)
    (htx : s.tx.SameWrite t)
    (hhandler : s.tx.writeSource ≠ [] → t.writeHandler = s.tx.writeHandler) :
    { s with tx := t }.Inv where
  tx := ht
  wire := h.wire.trans hoffered.symm
  sent_le := h.sent_le
  bodySent_le := le_trans h.bodySent_le hsent
  active := h.tracks htx rfl fun hs hd => ⟨hd, hhandler hs⟩
  tokens := h.tokens
  tokens_lt := fun w hw => htx.next ▸ h.tokens_lt w hw

theorem Inv.carve (h : s.Inv) : { s with tx := s.tx.carve s.mode }.Inv := by
  obtain ⟨hsame, hhandler, hsent⟩ := s.tx.sameWrite_carve s.mode
  exact h.setTx h.tx.carve Outgoing.carve_txOffered hsent.ge hsame fun _ => hhandler

/-- The active write goes away. -/
theorem Inv.setReleased (h : s.Inv) {t : Outgoing} (ht : t.release.Inv s.kind s.mode s.isOver)
    (hoffered : t.txOffered = s.tx.txOffered) (hsent : t.txSent = s.tx.txSent)
    (hnext : t.nextWriteToken = s.tx.nextWriteToken) : { s with tx := t.release }.Inv where
  tx := ht
  wire := h.wire.trans hoffered.symm
  sent_le := h.sent_le
  bodySent_le := le_trans h.bodySent_le (le_of_eq hsent.symm)
  active := fun ha => absurd ha (by simp [Outgoing.release])
  tokens := h.tokens
  tokens_lt := fun w hw => lt_of_lt_of_eq (h.tokens_lt w hw) hnext.symm

/-- What is not over now was not over before. -/
theorem over_eq_false {closed writeAborted : Bool} (hclosed : s.closed = true → closed = true)
    (haborted : s.writeAborted = true → writeAborted = true)
    (h : (closed || writeAborted) = false) : s.isOver = false := by
  rw [Bool.or_eq_false_iff] at h
  rw [Sender.isOver, Bool.or_eq_false_iff]
  constructor
  · by_contra hc
    rw [Bool.not_eq_false] at hc
    exact absurd (h.1.symm.trans (hclosed hc)) (by simp)
  · by_contra ha
    rw [Bool.not_eq_false] at ha
    exact absurd (h.2.symm.trans (haborted ha)) (by simp)

/-- A write that is finished without an acknowledgement has handed over its FIN. -/
theorem Inv.finish (h : s.Inv) (hactive : s.tx.writeActive = true)
    (hdone : s.tx.Done s.mode) : { s with tx := s.tx.release }.Inv := by
  have hsent := h.tx.sent_le_offered
  have hoff := h.tx.offered_le_queued
  refine h.setReleased (h.tx.release ?_ ?_) rfl rfl rfl
  · intro hm _
    -- a bare end of the body, or a staged write in packets
    rcases hdone with ⟨hbare, _⟩ | ⟨hstaged, _⟩
    · exact (hm ▸ h.tx : s.tx.Inv s.kind .zeroCopy s.isOver).bare_acked hactive hbare
    · rw [hm] at hstaged
      exact absurd hstaged (by simp)
  · intro _ he
    rcases hdone with ⟨_, hfin⟩ | ⟨_, hs, hq, hcopied⟩
    · exact hfin
    · exact h.tx.fin_of_offered hactive he hs (Or.inr hcopied) (by omega)

/-- A new write gets a record under a new token, which is the last of all. -/
theorem Inv.begin (h : s.Inv) (hover : s.isOver = false) (heof : s.tx.eofSubmitted = false)
    (hready : s.tx.writeActive = true → s.tx.writeHandler = none ∧ s.tx.writeSource = [])
    (handler : Option Handler) {buffer : List UInt8} {eof : Bool}
    (hcarries : buffer ≠ [] ∨ eof = true) : (s.begin handler buffer eof).Inv where
  tx := by
    have hidle := h.tx.idle_of_ready heof fun ha => (hready ha).2
    exact ((hover ▸ h.tx : s.tx.Inv s.kind s.mode false).begin hidle heof hcarries
      handler).over_mono fun _ => rfl
  wire := h.wire
  sent_le := h.sent_le
  bodySent_le := h.bodySent_le
  active := fun _ => ⟨s.writes, _, rfl, ⟨rfl, rfl, rfl, rfl, rfl, rfl, fun _ _ => rfl⟩⟩
  tokens := by
    rw [Sender.begin, List.map_append, List.pairwise_append]
    refine ⟨h.tokens, List.pairwise_singleton _ _, ?_⟩
    intro a ha b hb
    rw [List.map_singleton, List.mem_singleton] at hb
    obtain ⟨w, hw, rfl⟩ := List.mem_map.mp ha
    exact hb ▸ h.tokens_lt w hw
  tokens_lt := fun w hw => by
    -- the new write has the next token
    rcases List.mem_append.mp hw with hw | hw
    · exact Nat.lt_succ_of_lt (h.tokens_lt w hw)
    · rw [List.mem_singleton] at hw
      rw [hw]
      exact Nat.lt_succ_self _

/-- What the stack takes appears on the wire. -/
theorem Inv.take (h : s.Inv) {room n : Nat} (hn : n ≤ vecLen (s.vecs room).1) (header : Nat)
    (offers : List Offer) :
    ({ s with
      tx := s.taken n (s.fin room && n == vecLen (s.vecs room).1)
      offers := offers
      wire := s.wire ++ List.replicate header false ++ List.replicate n true
      sent := if s.kind = .http3 then s.sent else s.sent + n } : Sender).Inv := by
  obtain ⟨htaken, hoffered⟩ := h.taken hn
  obtain ⟨hsame, hhandler⟩ := s.sameWrite_taken n (s.fin room && n == vecLen (s.vecs room).1)
  have hcount : (s.wire ++ List.replicate header false ++ List.replicate n true).count true =
      s.tx.txOffered + n := by
    rw [List.count_append, List.count_append, h.wire]
    simp [List.count_replicate]
  have hlen := h.sent_le
  exact
    { tx := htaken
      wire := hcount.trans hoffered.symm
      sent_le := by
        simp only [List.length_append, List.length_replicate]
        split <;> omega
      bodySent_le := by
        by_cases hkind : s.kind = .http3
        · -- nothing has gone into packets yet
          simp only [Sender.bodySent, if_pos hkind]
          rw [List.append_assoc, bodySent_append hlen]
          refine le_trans h.bodySent_le (le_of_eq ?_)
          simp [Sender.taken, if_pos hkind, Outgoing.offered, (s.tx.sameWrite_carve s.mode).2.2]
        · -- all that is on the wire has gone into packets
          refine le_trans (count_take_le _ _) (le_of_eq ?_)
          rw [hcount, ← hoffered]
          exact (htaken.plain_sent hkind).symm
      active := h.tracks hsame rfl fun _ hd => ⟨hd, hhandler⟩
      tokens := h.tokens
      tokens_lt := fun w hw => hsame.next ▸ h.tokens_lt w hw }

/-- HTTP/3 puts the next bytes of the wire into a packet, framing and all. -/
theorem Inv.packet (h : s.Inv) {n : Nat} (hkind : s.kind = .http3)
    (hn : s.sent + n ≤ s.wire.length) :
    { s with tx := s.tx.sent (s.tx.txSent + n), sent := s.sent + n }.Inv where
  tx := by
    have htx := (hkind ▸ h.tx : s.tx.Inv .http3 s.mode s.isOver).sent (Nat.le_add_right _ n)
    exact hkind ▸ htx
  wire := h.wire
  sent_le := hn
  bodySent_le := by
    have hall : ((s.wire.take (s.sent + n)).count true) ≤ s.tx.txOffered :=
      h.wire ▸ count_take_le _ _
    have hmore : ((s.wire.take (s.sent + n)).count true) ≤ s.bodySent + n := by
      rw [List.take_add, List.count_append]
      have hlen : ((s.wire.drop s.sent).take n).count true ≤ n :=
        le_trans List.count_le_length (List.length_take_le _ _)
      exact Nat.add_le_add_left hlen _
    exact le_min (le_trans hmore (Nat.add_le_add_right h.bodySent_le n)) hall
  active := h.tracks ⟨rfl, rfl, rfl, rfl, rfl, rfl, rfl⟩ rfl fun _ hd => ⟨hd, rfl⟩
  tokens := h.tokens
  tokens_lt := h.tokens_lt

/-- Cancellation abandons what is left of the write. -/
theorem Inv.cancel (h : s.Inv) {handler : Handler} (hhandler : s.tx.writeHandler = some handler)
    (hdata : ¬(s.tx.writeIsEof = true ∧ s.tx.writeSource = []))
    (hheld : s.mode = .zeroCopy → s.tx.txAcked < s.tx.txOffered → s.isOver = true) :
    s.cancel.Inv where
  tx := h.tx.cancel (h.tx.handler_active (by simp [hhandler])) hdata hheld
  wire := h.wire
  sent_le := h.sent_le
  bodySent_le := h.bodySent_le
  active := fun ha => absurd ha Bool.false_ne_true
  tokens := by
    rw [Sender.cancel, abandon_tokens]
    exact h.tokens
  tokens_lt := fun w hw => by
    have hmem := List.mem_map_of_mem (f := WriteRec.token) hw
    rw [Sender.cancel, abandon_tokens] at hmem
    obtain ⟨v, hv, hvw⟩ := List.mem_map.mp hmem
    exact hvw ▸ h.tokens_lt v hv

/-- Every step of a sender keeps its invariant. -/
theorem Step.inv (h : s.Inv) (hstep : Step s cs s') : s'.Inv := by
  cases hstep with
  | flags closed writeAborted writer hclosed haborted =>
    refine
      { h with
        tx := h.tx.over_mono (over_eq_false hclosed haborted)
        active := fun ha => ?_ }
    · obtain ⟨ws, w, hws, hw⟩ := h.active ha
      exact ⟨ws, w, hws, { hw with }⟩
  | framing n hkind =>
    refine { h with wire := ?_, sent_le := ?_, bodySent_le := ?_, active := fun ha => ?_ }
    · rw [List.count_append, h.wire]
      simp [List.count_replicate]
    · exact le_trans h.sent_le (by simp)
    · exact le_trans (le_of_eq (bodySent_append h.sent_le _)) h.bodySent_le
    · obtain ⟨ws, w, hws, hw⟩ := h.active ha
      exact ⟨ws, w, hws, { hw with }⟩
  | detach handler _ _ hbare =>
    exact h.setTx (h.tx.setHandler none (by simp)) rfl le_rfl
      ⟨rfl, rfl, rfl, rfl, rfl, rfl, rfl⟩ fun hs => absurd hbare hs
  | release ec hover hactive =>
    refine h.setReleased (h.tx.release ?_ ?_) rfl rfl rfl
    · exact fun _ ho => absurd ho (by simp [hover])
    · exact fun ho => absurd ho (by simp [hover])
  | destroy =>
    exact
      { h with
        tx := h.tx.setHandler none (by simp)
        active := h.tracks ⟨rfl, rfl, rfl, rfl, rfl, rfl, rfl⟩ rfl fun _ hd => absurd hd (by simp) }
  | nothing =>
    exact
      { h with
        active := h.tracks ⟨rfl, rfl, rfl, rfl, rfl, rfl, rfl⟩ rfl fun _ hd => ⟨hd, rfl⟩ }
  | poll room =>
    have hcarve := h.carve
    exact
      { hcarve with
        active := hcarve.tracks ⟨rfl, rfl, rfl, rfl, rfl, rfl, rfl⟩ rfl fun _ hd => ⟨hd, rfl⟩ }
  | take room n header _ _ hn => exact h.take hn header _
  | packet n hkind hn => exact h.packet hkind hn
  | finish hactive hdone => exact h.finish hactive hdone
  | acked stop hold hstop hmore =>
    exact h.setTx (h.tx.acked hold (le_trans hstop h.bodySent_le) hmore) rfl le_rfl
      ⟨rfl, rfl, rfl, rfl, rfl, rfl, rfl⟩ fun _ => rfl
  | ackedLast stop hmode hactive hdata hstop hlast =>
    refine h.setReleased (t := s.tx.acked stop) ?_ rfl rfl rfl
    rw [hmode]
    exact (hmode ▸ h.tx : s.tx.Inv s.kind .zeroCopy s.isOver).acked_release hactive hdata
      (le_trans hstop h.bodySent_le) hlast

theorem Steps.inv (h : s.Inv) (hsteps : Steps s cs s') : s'.Inv := by
  induction hsteps with
  | refl => exact h
  | cons hstep _ ih => exact ih (hstep.inv h)

/-- What is over stays over. -/
structure Later (s s' : Sender) : Prop where
  kind : s'.kind = s.kind
  mode : s'.mode = s.mode
  closed : s.closed = true → s'.closed = true
  writeAborted : s.writeAborted = true → s'.writeAborted = true
  writer : s'.writer = true → s.writer = true
  destroyed : s.destroyed = true → s'.destroyed = true
  next : s.tx.nextWriteToken ≤ s'.tx.nextWriteToken

theorem Later.refl (s : Sender) : Later s s := ⟨rfl, rfl, id, id, id, id, le_rfl⟩

theorem Later.trans {u : Sender} (h₁ : Later s s') (h₂ : Later s' u) : Later s u where
  kind := h₂.kind.trans h₁.kind
  mode := h₂.mode.trans h₁.mode
  closed := fun h => h₂.closed (h₁.closed h)
  writeAborted := fun h => h₂.writeAborted (h₁.writeAborted h)
  writer := fun h => h₁.writer (h₂.writer h)
  destroyed := fun h => h₂.destroyed (h₁.destroyed h)
  next := le_trans h₁.next h₂.next

theorem Step.later (h : Step s cs s') : Later s s' := by
  cases h with
  | flags closed writeAborted writer hclosed haborted hwriter =>
    exact ⟨rfl, rfl, hclosed, haborted, hwriter, id, le_rfl⟩
  | destroy => exact ⟨rfl, rfl, id, id, by simp, fun _ => rfl, le_rfl⟩
  | poll => exact ⟨rfl, rfl, id, id, id, id, (s.tx.sameWrite_carve s.mode).1.next.ge⟩
  | take room n header =>
    exact ⟨rfl, rfl, id, id, id, id, (s.sameWrite_taken n _).1.next.ge⟩
  | framing | detach | release | nothing | packet | finish | acked |
    ackedLast => exact ⟨rfl, rfl, id, id, id, id, le_rfl⟩

theorem Step.next (h : Step s cs s') : s'.tx.nextWriteToken = s.tx.nextWriteToken := by
  cases h with
  | poll => exact (s.tx.sameWrite_carve s.mode).1.next
  | take room n header => exact (s.sameWrite_taken n _).1.next
  | _ => rfl

/-- A step moves the bytes of the active write, or ends it; it does not put another in its
place. -/
theorem Step.same_or_over (h : Step s cs s') :
    s'.tx.writeToken = s.tx.writeToken ∧ s'.tx.writeIsEof = s.tx.writeIsEof ∧
      (s'.tx.writeActive = true → s.tx.writeActive = true ∧
        s'.tx.writeSource = s.tx.writeSource) := by
  cases h with
  | poll =>
    have hsame := (s.tx.sameWrite_carve s.mode).1
    exact ⟨hsame.token, hsame.isEof, fun ha => ⟨hsame.active ▸ ha, hsame.source⟩⟩
  | take room n header =>
    have hsame := (s.sameWrite_taken n (s.fin room && n == vecLen (s.vecs room).1)).1
    exact ⟨hsame.token, hsame.isEof, fun ha => ⟨hsame.active ▸ ha, hsame.source⟩⟩
  | release | finish | ackedLast => exact ⟨rfl, rfl, fun ha => absurd ha Bool.false_ne_true⟩
  | _ => exact ⟨rfl, rfl, fun ha => ⟨ha, rfl⟩⟩

theorem Steps.later (h : Steps s cs s') : Later s s' := by
  induction h with
  | refl => exact Later.refl _
  | cons hstep _ ih => exact hstep.later.trans ih

/-- The stream is closed or reset on the way to a cancellation. -/
theorem step_setOver {closed writeAborted : Bool} (hclosed : s.closed = true → closed = true)
    (haborted : s.writeAborted = true → writeAborted = true) :
    Step s [] (s.setOver closed writeAborted) :=
  Step.flags s closed writeAborted s.writer hclosed haborted id
    fun hw hnw => absurd (hw.symm.trans hnw) (by simp)

/-- **Step lemma**: every turn of a sender keeps its invariant. -/
theorem Turn.inv (h : s.Inv) (hturn : Turn s a cs s') : s'.Inv := by
  cases hturn with
  | refuse => exact h
  | adopt handler _ _ _ _ _ _ _ hactive _ _ hbare =>
    exact h.setTx (h.tx.setHandler handler fun _ => hactive) rfl le_rfl
      ⟨rfl, rfl, rfl, rfl, rfl, rfl, rfl⟩ fun hs => absurd hbare hs
  | begin handler buffer eof _ hover heof hready hcarries =>
    exact h.begin hover heof hready handler hcarries
  | cancel closed writeAborted handler hhandler hdata hclosed haborted hheld =>
    exact ((step_setOver hclosed haborted).inv h).cancel hhandler hdata hheld
  | steps hsteps => exact hsteps.inv h

theorem Turn.later (h : Turn s a cs s') : Later s s' := by
  cases h with
  | refuse => exact Later.refl s
  | adopt => exact ⟨rfl, rfl, id, id, id, id, le_rfl⟩
  | begin => exact ⟨rfl, rfl, id, id, id, id, Nat.le_succ _⟩
  | cancel closed writeAborted handler _ _ hclosed haborted =>
    exact ⟨rfl, rfl, hclosed, haborted, id, id, le_rfl⟩
  | steps hsteps => exact hsteps.later

theorem Steps.single (h : Step s cs s') : Steps s cs s' := by
  have := Steps.cons h (Steps.refl s')
  rwa [List.append_nil] at this

theorem Steps.trans {u : Sender} {ds : List Call} (h₁ : Steps s cs s') (h₂ : Steps s' ds u) :
    Steps s (cs ++ ds) u := by
  induction h₁ with
  | refl => exact h₂
  | cons hstep _ ih =>
    rw [List.append_assoc]
    exact Steps.cons hstep (ih h₂)

end Sender

end AnyHttp.Quic
