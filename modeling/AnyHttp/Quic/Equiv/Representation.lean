import AnyHttp.Quic.Equiv.Simulation

/-!
# The outgoing side of every reachable stream

`Stream.OutgoingOk` spells out the representation invariant of the outgoing side in terms of the
fields of the class, and `Reachable.outgoingOk` proves it of every reachable stream: whatever the
order of writes, cancellations, packets, acknowledgements, resets and closes.
-/

namespace AnyHttp.Quic

open Lib

namespace Sender

variable {s : Sender}

/-- The record of the active write is the one with its token. -/
theorem Inv.tracks_of_token (h : s.Inv) (hactive : s.tx.writeActive = true) {w : WriteRec}
    (hw : w ∈ s.writes) (htoken : w.token = s.tx.writeToken) : s.Tracks w := by
  obtain ⟨ws, v, hws, hv⟩ := h.active hactive
  have hsorted := h.tokens
  rw [hws] at hw hsorted
  rcases List.mem_append.mp hw with hw | hw
  · -- an earlier write has a smaller token
    rw [List.map_append, List.pairwise_append] at hsorted
    have hlt := hsorted.2.2 w.token (List.mem_map_of_mem hw) v.token (by simp)
    rw [htoken, hv.token] at hlt
    exact absurd hlt (lt_irrefl _)
  · rw [List.mem_singleton] at hw
    exact hw ▸ hv

end Sender

namespace Stream

/-- The representation invariant of the outgoing side. -/
structure OutgoingOk (m : Stream) : Prop where
  acked_le_sent : m.q.tx.txAcked ≤ m.q.tx.txSent
  sent_le_offered : m.q.tx.txSent ≤ m.q.tx.txOffered
  offered_le_queued : m.q.tx.txOffered ≤ m.q.tx.txQueued
  /-- Staged: the chunks are contiguous and in order, the last one ends at `tx_queued`, and they
  cover everything from `tx_acked` on. -/
  staged_cover : m.q.writeMode = .staged →
    ∃ lo, lo ≤ m.q.tx.txAcked ∧ Contiguous lo m.q.tx.chunks m.q.tx.txQueued
  /-- ... and none of them lies wholly below `tx_acked`. -/
  staged_needed : m.q.writeMode = .staged → ∀ c ∈ m.q.tx.chunks, m.q.tx.txAcked < c.stop
  staged_pace : m.q.writeMode = .staged → m.q.tx.txQueued - m.q.tx.txSent ≤ kWriteChunkSize
  staged_active : m.q.writeMode = .staged → m.q.tx.writeActive = true →
    m.q.tx.txQueued = m.q.tx.writeBase + m.q.tx.writeCopied ∧
      m.q.tx.writeCopied ≤ m.q.tx.writeSource.length
  zero_active : m.q.writeMode = .zeroCopy → m.q.tx.writeActive = true →
    m.q.tx.txQueued = m.q.tx.writeBase + m.q.tx.writeSource.length ∧
      m.q.tx.writeBase ≤ m.q.tx.txAcked
  handler_active : m.q.tx.writeHandler ≠ none → m.q.tx.writeActive = true
  /-- A write that was started with a handler and has lost it is a bare end-of-body. -/
  detached_bare : m.destroyed = false → m.q.tx.writeActive = true → m.q.tx.writeHandler = none →
    ∀ w ∈ m.writes, w.token = m.q.tx.writeToken → w.handler ≠ none →
      m.q.tx.writeIsEof = true ∧ m.q.tx.writeSource = []

/-- In a contiguous list of segments whose first one reaches past `pos`, all do. -/
theorem stop_gt_of_head {lo hi pos : Nat} {cs : List Chunk} (h : Contiguous lo cs hi)
    (hhead : ∀ c ∈ cs.head?, pos < c.stop) : ∀ c ∈ cs, pos < c.stop := by
  cases cs with
  | nil => simp
  | cons d cs =>
    intro c hc
    have hd : pos < d.stop := hhead d rfl
    rcases List.mem_cons.mp hc with rfl | hc
    · exact hd
    · have hle := (h.2.2.mem_bounds hc).1
      have hstop : c.stop = c.offset + c.data.length := rfl
      omega

theorem Sound.outgoing {m : Stream} (h : m.Sound) : m.OutgoingOk where
  acked_le_sent := h.sender.tx.acked_le_sent
  sent_le_offered := h.sender.tx.sent_le_offered
  offered_le_queued := h.sender.tx.offered_le_queued
  staged_cover := fun hm => by
    obtain ⟨lo, hlo, hcont, _⟩ := h.sender.tx.staged_chunks hm
    exact ⟨lo, hlo, hcont⟩
  staged_needed := fun hm => by
    obtain ⟨lo, _, hcont, hhead⟩ := h.sender.tx.staged_chunks hm
    exact stop_gt_of_head hcont hhead
  staged_pace := fun hm => Nat.sub_le_iff_le_add'.mpr (h.sender.tx.staged_pace hm)
  staged_active := h.sender.tx.staged_active
  zero_active := fun hm ha => by
    obtain ⟨hqueued, hbase, _⟩ := h.sender.tx.zero_active hm ha
    exact ⟨hqueued, hbase⟩
  handler_active := h.sender.tx.handler_active
  detached_bare := fun hd ha hnone w hw htoken hhandler => by
    have hbare : m.q.tx.writeSource = [] := by
      by_contra hdata
      have htracks := h.sender.tracks_of_token ha hw htoken
      exact hhandler ((htracks.handler hdata hd).symm.trans hnone)
    rcases h.sender.tx.active_carries ha with hdata | heof
    · exact absurd hbare hdata
    · exact ⟨heof, hbare⟩

/-- **The representation invariant holds in every reachable state.** -/
theorem Reachable.outgoingOk {kind : Kind} {mode : WriteMode} {m : Stream}
    (h : Reachable kind mode m) : m.OutgoingOk :=
  h.sound.outgoing

/-- A staged write that is in packets as a whole, with the next one begun behind it. -/
def behindUnacked : Stream :=
  after (.plain ⟨0, 0⟩) .staged
    [.startWrite (some ⟨1, none⟩) [1, 2] false, .writePkt (.written 2), .acked 1,
      .startWrite (some ⟨2, none⟩) [3] false, .writePkt .notWritten]

theorem outgoingOk_behindUnacked :
    behindUnacked.q.tx.chunks = [⟨0, [1, 2]⟩, ⟨2, [3]⟩] ∧ behindUnacked.q.tx.txAcked = 1 ∧
      behindUnacked.q.tx.txSent = 2 ∧ behindUnacked.q.tx.txQueued = 3 ∧
      behindUnacked.OutgoingOk :=
  ⟨by decide, by decide, by decide, by decide, (reachable_after (by decide)).outgoingOk⟩

end Stream

end AnyHttp.Quic
