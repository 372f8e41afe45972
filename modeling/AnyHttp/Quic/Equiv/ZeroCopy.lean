import AnyHttp.Quic.Equiv.Simulation

/-!
# When a zero-copy write gives its buffer back

In `zeroCopy` mode the stack points straight into the caller's buffer, which is the caller's again
the moment the handler of the write runs.  `Reachable.released` says that this is safe: by then,
nothing of the buffer is held by the stack unacknowledged, unless sending is over or the stream is
being destroyed, and `pending_data()` never points into it again.  The destructor makes a difference
(`not_released_allSentDestroyed`): it completes the write on a stream that has not been reset.

* A completion, of whatever write, leaves no write active that carries data (`Turn.completes`), and
  then nothing at all is unacknowledged (`Inv.all_acked`).
* A token is given to one write only.  `Retired` says that a write will never be handed out again;
  it is kept by every turn (`Turn.retired`), and no vec is made for a retired write
  (`Turn.offers_avoid`).
-/

namespace AnyHttp.Quic

open Lib

namespace Sender

variable {s s' : Sender} {a : Act} {cs : List Call}

/-- The active write, if there is one, carries no data. -/
def NoData (s : Sender) : Prop := s.tx.writeActive = true → s.tx.writeSource = []

theorem Step.noData (h : Step s cs s') (hs : s.NoData) : s'.NoData := by
  intro ha
  obtain ⟨hactive, hsource⟩ := h.same_or_over.2.2 ha
  rw [hsource]
  exact hs hactive

/-- A step that completes a handler leaves no data behind. -/
theorem Step.completes (h : Step s cs s') {handler : Handler} {ec : ErrorCode}
    (hc : .completeWrite handler ec ∈ cs) : s'.destroyed = true ∨ s'.NoData := by
  cases h with
  | detach _ _ _ hbare => exact Or.inr fun _ => hbare
  | destroy => exact Or.inl rfl
  | release | finish | ackedLast => exact Or.inr fun ha => absurd ha Bool.false_ne_true
  | _ => exact absurd hc (by simp)

theorem Steps.noData (h : Steps s cs s') (hs : s.NoData) : s'.NoData := by
  induction h with
  | refl => exact hs
  | cons hstep _ ih => exact ih (hstep.noData hs)

theorem Steps.completes (h : Steps s cs s') {handler : Handler} {ec : ErrorCode}
    (hc : .completeWrite handler ec ∈ cs) : s'.destroyed = true ∨ s'.NoData := by
  induction h with
  | refl => exact absurd hc (by simp)
  | cons hstep hsteps ih =>
    rcases List.mem_append.mp hc with hc | hc
    · exact (hstep.completes hc).imp hsteps.later.destroyed hsteps.noData
    · exact ih hc

theorem Turn.completes (h : Turn s a cs s') {handler : Handler} {ec : ErrorCode}
    (hc : .completeWrite handler ec ∈ cs) : s'.destroyed = true ∨ s'.NoData := by
  cases h with
  | refuse _ _ _ _ hready => exact Or.inr fun ha => (hready ha).2
  | adopt handler | begin handler => simp [binding] at hc
  | cancel => exact Or.inr fun ha => absurd ha Bool.false_ne_true
  | steps hsteps => exact hsteps.completes hc

/-- Without data to send, and with the sending side alive, everything is acknowledged. -/
theorem Inv.all_acked (h : s.Inv) (hmode : s.mode = .zeroCopy) (hover : s.isOver = false)
    (hdata : s.NoData) : s.tx.txOffered ≤ s.tx.txAcked := by
  have hle := h.tx.offered_le_queued
  have hall : s.tx.txAcked = s.tx.txQueued := by
    cases ha : s.tx.writeActive with
    | false => exact h.tx.zero_idle hmode ha hover
    | true => exact (hmode ▸ h.tx : s.tx.Inv s.kind .zeroCopy s.isOver).bare_acked ha (hdata ha)
  omega

/-! ### Retired writes -/

/-- The write with this token has been, and is not the one that is being sent. -/
def Retired (token : Nat) (s : Sender) : Prop :=
  token < s.tx.nextWriteToken ∧
    (s.tx.writeActive = true → s.tx.writeSource ≠ [] → s.tx.writeToken ≠ token)

theorem Step.retired {token : Nat} (h : Step s cs s') (hs : s.Retired token) :
    s'.Retired token := by
  obtain ⟨htoken, _, hactive⟩ := h.same_or_over
  refine ⟨h.next ▸ hs.1, fun ha hdata => ?_⟩
  obtain ⟨hactive', hsource⟩ := hactive ha
  rw [htoken]
  exact hs.2 hactive' (hsource ▸ hdata)

/-- A vec that points into a caller's buffer points into that of the active write. -/
theorem Inv.vecs_owner (h : s.Inv) {room token : Nat} {v : IoVec} (hv : v ∈ (s.vecs room).1)
    (howner : v.owner = some token) :
    s.tx.writeActive = true ∧ s.tx.writeSource ≠ [] ∧ s.tx.writeToken = token := by
  have hsame := (s.tx.sameWrite_carve s.mode).1
  have hinv := h.tx.carve
  unfold Sender.vecs Outgoing.sourceVecs at hv
  split at hv
  case h_1 hmode =>
    split at hv
    case isTrue hpending =>
      obtain ⟨hactive, hlt⟩ := hpending
      rw [List.mem_singleton] at hv
      have htoken : (s.tx.carve s.mode).writeToken = token := by
        rw [hv] at howner
        exact Option.some.inj howner
      refine ⟨hsame.active ▸ hactive, fun hnil => ?_, hsame.token ▸ htoken⟩
      obtain ⟨hqueued, hbase, _⟩ := hinv.zero_active hmode hactive
      have hacked := hinv.acked_le_sent
      have hsent := hinv.sent_le_offered
      rw [hsame.source, hnil, List.length_nil] at hqueued
      rw [Outgoing.carve_txOffered] at hsent
      omega
    case isFalse => exact absurd hv (by simp)
  case h_2 =>
    -- the chunks are the stream's own
    exact absurd howner (by rw [Outgoing.chunkVecs_owner hv]; simp)

/-- The calls of `pending_data()` during a step, none of which returns a retired buffer. -/
theorem Step.offers_avoid {token : Nat} (hinv : s.Inv) (h : Step s cs s') (hs : s.Retired token) :
    ∃ more, s'.offers = s.offers ++ more ∧
      ∀ o ∈ more, ∀ v ∈ o.vecs, v.owner ≠ some token := by
  have hvecs : ∀ room, ∀ v ∈ (s.vecs room).1, v.owner ≠ some token := by
    intro room v hv howner
    obtain ⟨hactive, hdata, htoken⟩ := hinv.vecs_owner hv howner
    exact hs.2 hactive hdata htoken
  cases h with
  | nothing => exact ⟨_, rfl, by simp⟩
  | poll room => exact ⟨_, rfl, by simpa using hvecs room⟩
  | take room n header => exact ⟨_, rfl, by simpa using hvecs room⟩
  | _ => exact ⟨[], by simp, by simp⟩

theorem Steps.offers_avoid {token : Nat} (hinv : s.Inv) (h : Steps s cs s')
    (hs : s.Retired token) :
    s'.Retired token ∧ ∃ more, s'.offers = s.offers ++ more ∧
      ∀ o ∈ more, ∀ v ∈ o.vecs, v.owner ≠ some token := by
  induction h with
  | refl => exact ⟨hs, [], by simp, by simp⟩
  | cons hstep _ ih =>
    obtain ⟨more, hmore, havoid⟩ := hstep.offers_avoid hinv hs
    obtain ⟨hretired, more', hmore', havoid'⟩ := ih (hstep.inv hinv) (hstep.retired hs)
    refine ⟨hretired, more ++ more', by rw [hmore', hmore, List.append_assoc], fun o ho => ?_⟩
    rcases List.mem_append.mp ho with ho | ho
    · exact havoid o ho
    · exact havoid' o ho

theorem Turn.offers_avoid {token : Nat} (hinv : s.Inv) (h : Turn s a cs s')
    (hs : s.Retired token) :
    s'.Retired token ∧ ∃ more, s'.offers = s.offers ++ more ∧
      ∀ o ∈ more, ∀ v ∈ o.vecs, v.owner ≠ some token := by
  cases h with
  | refuse | adopt => exact ⟨hs, [], by simp, by simp⟩
  | begin handler buffer eof =>
    -- the new write has a new token
    exact ⟨⟨Nat.lt_succ_of_lt hs.1, fun _ _ => Nat.ne_of_gt hs.1⟩, [], by simp [Sender.begin],
      by simp⟩
  | cancel =>
    exact ⟨⟨hs.1, fun ha => absurd ha Bool.false_ne_true⟩, [], by simp [Sender.cancel, setOver],
      by simp⟩
  | steps hsteps => exact hsteps.offers_avoid hinv hs

end Sender

namespace Stream

variable {kind : Kind} {m m' : Stream}

/-- Once a write is retired, or the stream destroyed, the buffer of the write is never handed
out. -/
theorem run_offers_avoid {token : Nat} (hm : m.Sound)
    (hretired : m.destroyed = true ∨ m.sender.Retired token) {acts : List Act} {u : Stream}
    (hrun : run step m acts = some u) :
    ∃ more, u.offers = m.offers ++ more ∧ ∀ o ∈ more, ∀ v ∈ o.vecs, v.owner ≠ some token := by
  have hinv : u.Sound ∧ (u.destroyed = true ∨ u.sender.Retired token) ∧
      ∃ more, u.offers = m.offers ++ more ∧ ∀ o ∈ more, ∀ v ∈ o.vecs, v.owner ≠ some token := by
    refine run_inv (P := fun u => u.Sound ∧ (u.destroyed = true ∨ u.sender.Retired token) ∧
      ∃ more, u.offers = m.offers ++ more ∧ ∀ o ∈ more, ∀ v ∈ o.vecs, v.owner ≠ some token)
      ?_ ⟨hm, hretired, [], by simp, by simp⟩ hrun
    rintro s a t ⟨hs, hret, more, hmore, havoid⟩ hstep
    obtain ⟨hturn, ht⟩ := step_turn hs hstep
    refine ⟨ht, ?_⟩
    rcases hret with hd | hret
    · have hsame := step_destroyed hd hstep
      refine ⟨Or.inl (hturn.later.destroyed hd), more, ?_, havoid⟩
      exact (congrArg Sender.offers hsame).trans hmore
    · obtain ⟨hret', more', hmore', havoid'⟩ := hturn.offers_avoid hs.sender hret
      refine ⟨Or.inr hret', more ++ more', ?_, fun o ho => ?_⟩
      · rw [← List.append_assoc, ← hmore]
        exact hmore'
      · rcases List.mem_append.mp ho with ho | ho
        · exact havoid o ho
        · exact havoid' o ho
  exact hinv.2.2

/-- **Zero-copy release safety.** When the handler of a write is completed, no byte of its buffer,
nor of any other write's, is held by the stack unacknowledged, unless sending is over by then or the
stream is being destroyed; and no call of `pending_data()` in any continuation of the run returns a
pointer into it. -/
theorem Reachable.released (h : Reachable kind .zeroCopy m) {a : Act} (hstep : m.step a = some m')
    {handler : Handler} {ec : ErrorCode} (hcompleted : .completeWrite handler ec ∈ m'.q.calls)
    {w : WriteRec} (hw : w ∈ m'.writes) :
    (m'.q.sendingOver = true ∨ m'.destroyed = true ∨
      ∀ o, w.base ≤ o → o < w.base + w.buffer.length →
        ¬(m'.q.tx.txAcked ≤ o ∧ o < m'.q.tx.txOffered)) ∧
    ∀ acts u, run step m' acts = some u →
      ∃ more, u.offers = m'.offers ++ more ∧
        ∀ o ∈ more, ∀ v ∈ o.vecs, v.owner ≠ some w.token := by
  obtain ⟨hturn, hsound⟩ := step_turn h.sound hstep
  have hmode : m'.sender.mode = .zeroCopy := hturn.later.mode.trans h.kind_mode.2
  have hreleased := hturn.completes (List.mem_filter.mpr ⟨hcompleted, rfl⟩)
  constructor
  · cases hover : m'.q.sendingOver with
    | true => exact Or.inl rfl
    | false =>
      refine Or.inr (hreleased.imp id fun hnodata o _ _ ⟨hacked, hoffered⟩ => ?_)
      have hall := hsound.sender.all_acked hmode hover hnodata
      exact absurd (lt_of_le_of_lt hacked hoffered) (Nat.not_lt.mpr hall)
  · intro acts u hrun
    refine run_offers_avoid hsound (hreleased.imp id fun hnodata => ?_) hrun
    exact ⟨hsound.sender.tokens_lt w hw, fun ha hsource => absurd (hnodata ha) hsource⟩

/-- A write that is in a packet as a whole, and not acknowledged yet. -/
def allSent : Stream :=
  after (.plain ⟨0, 0⟩) .zeroCopy
    [.startWrite (some ⟨1, none⟩) [1, 2] false, .writePkt (.written 2)]

/-- Its last byte is acknowledged, on a stream that goes on. -/
def allAcked : Stream :=
  after (.plain ⟨0, 0⟩) .zeroCopy
    [.startWrite (some ⟨1, none⟩) [1, 2] false, .writePkt (.written 2), .acked 2]

theorem released_allAcked :
    allAcked.q.sendingOver = false ∧ allAcked.destroyed = false ∧
      ∀ acts u, run step allAcked acts = some u → ∃ more, u.offers = allAcked.offers ++ more ∧
        ∀ o ∈ more, ∀ v ∈ o.vecs, v.owner ≠ some 1 := by
  have hstep : allSent.step (.acked 2) = some allAcked := by decide
  have hcompleted : .completeWrite ⟨1, none⟩ .success ∈ allAcked.q.calls := by decide
  have hw : ⟨1, some ⟨1, none⟩, 0, [1, 2], false, 2, false⟩ ∈ allAcked.writes := by decide
  exact ⟨by decide, by decide,
    ((reachable_after (by decide)).released hstep hcompleted hw).2⟩

/-- The stream is destroyed instead. -/
def allSentDestroyed : Stream :=
  after (.plain ⟨0, 0⟩) .zeroCopy
    [.startWrite (some ⟨1, none⟩) [1, 2] false, .writePkt (.written 2), .destroy]

/-- What a stream hands out and is destroyed with is not taken back from ngtcp2: `detach_all()`
completes the write before the connection is closed, on a stream that has neither been reset nor
closed, while ngtcp2 may still look at the two bytes. -/
theorem not_released_allSentDestroyed :
    ¬∀ (m m' : Stream) (a : Act) (handler : Handler) (ec : ErrorCode) (w : WriteRec),
      Reachable (.plain ⟨0, 0⟩) .zeroCopy m → m.step a = some m' →
        .completeWrite handler ec ∈ m'.q.calls → w ∈ m'.writes →
          m'.q.sendingOver = true ∨ ∀ o, w.base ≤ o → o < w.base + w.buffer.length →
            ¬(m'.q.tx.txAcked ≤ o ∧ o < m'.q.tx.txOffered) := by
  intro h
  have hstep : allSent.step .destroy = some allSentDestroyed := by decide
  have hcompleted : .completeWrite ⟨1, none⟩ .connectionReset ∈ allSentDestroyed.q.calls := by
    decide
  have hw : ⟨1, some ⟨1, none⟩, 0, [1, 2], false, 2, false⟩ ∈ allSentDestroyed.writes := by
    decide
  rcases h _ _ _ _ _ _ (reachable_after (by decide)) hstep hcompleted hw with hover | hfree
  · exact absurd hover (by decide)
  · exact hfree 0 (by decide) (by decide) (by decide)

end Stream

end AnyHttp.Quic
