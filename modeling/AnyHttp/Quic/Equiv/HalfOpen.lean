import AnyHttp.Quic.Equiv.Simulation

/-!
# No sending side is left half-open

Once the writer handle is gone, nobody can end the body any more.  `delete_writer()` decides then
what becomes of the sending side: it is reset, unless the body counts as ended (`eof_submitted`),
and in that case the write that ends it hands over the FIN in due course (`Ending.hands_over`, by
induction on how much of it is left).

What the decision rests on can be rolled back, though: cancelling a write that carries data and the
end of the body clears `eof_submitted` again, also when the writer has been dropped behind it.
Unless the cancellation resets the stream (zero-copy, with bytes that the stack holds), nothing is
left then that would end the body.  `Stream.TakesBack` is this situation, and the only one:

* `Stream.settled_iff`: the sending side is `Settled` in all states of a run exactly if no step of
  the run is one that `TakesBack`; and a FIN is only ever handed over for the user's `write_eof()`.
-/

namespace AnyHttp.Quic

open Lib

namespace Sender

variable {s s' : Sender} {a : Act} {cs : List Call}

/-! ### Whether the body counts as ended -/

/-- A writer that has been dropped has ended the body, as long as that can be told the peer. -/
def Kept (s : Sender) : Prop :=
  s.writer = false → s.destroyed = false → s.isOver = false → s.tx.eofSubmitted = true

/-- A body that counts as ended has its FIN handed over, or a write that will. -/
theorem Inv.settled (h : s.Inv) (hk : s.Kept) (hwriter : s.writer = false)
    (hd : s.destroyed = false) (hclosed : s.closed = false) :
    s.writeAborted = true ∨ s.tx.finOffered = true ∨
      (s.isOver = false ∧ s.tx.writeActive = true ∧ s.tx.writeIsEof = true) := by
  cases haborted : s.writeAborted with
  | true => exact Or.inl rfl
  | false =>
    have hover : s.isOver = false := by rw [Sender.isOver, hclosed, haborted]; rfl
    rcases h.tx.ended (hk hwriter hd hover) hover with hfin | hactive
    · exact Or.inr (Or.inl hfin)
    · exact Or.inr (Or.inr ⟨hover, hactive⟩)

theorem Step.kept (h : Step s cs s') (hk : s.Kept) : s'.Kept := by
  cases h with
  | flags closed writeAborted writer hclosed haborted hwriter hdrop =>
    intro hw hd hover
    cases hold : s.writer with
    | true =>
      rcases hdrop hold hw with h | h
      · exact absurd (Eq.trans (Eq.symm hover) h) (by simp)
      · exact h
    | false => exact hk hold hd (over_eq_false hclosed haborted hover)
  | destroy => exact fun _ hd => absurd hd (by simp)
  | poll => exact fun hw hd hover => (s.tx.sameWrite_carve s.mode).1.eof ▸ hk hw hd hover
  | take room n header =>
    exact fun hw hd hover => (s.sameWrite_taken n _).1.eof ▸ hk hw hd hover
  | _ => exact hk

theorem Steps.kept (h : Steps s cs s') (hk : s.Kept) : s'.Kept := by
  induction h with
  | refl => exact hk
  | cons hstep _ ih => exact ih (hstep.kept hk)

/-- Cancelling the active write takes the end of the body back, with nobody there to end it
again. -/
def TakesBack (s : Sender) : Prop :=
  s.writer = false ∧ s.isOver = false ∧ s.tx.writeIsEof = true ∧ s.tx.writeSource ≠ [] ∧
    (s.mode = .zeroCopy → s.tx.txOffered ≤ s.tx.txAcked) ∧
    (s.mode = .staged → s.tx.finOffered = false)

theorem Turn.kept (h : Turn s a cs s') (hk : s.Kept)
    (hcond : ∀ handler, a = .cancelWrite s.tx.writeToken → s.tx.writeHandler = some handler →
      ¬s.TakesBack) : s'.Kept := by
  cases h with
  | refuse | adopt => exact hk
  | begin handler buffer eof hwriter =>
    exact fun hw => absurd (hwriter.symm.trans hw) (by simp)
  | steps hsteps => exact hsteps.kept hk
  | cancel closed writeAborted handler hhandler hdata hclosed haborted hheld =>
    intro hw hd hover
    have hover' : (closed || writeAborted) = false := hover
    have hold : s.isOver = false := over_eq_false hclosed haborted hover
    have hended := hk hw hd hold
    show (s.tx.eofSubmitted && !(s.tx.writeIsEof && (s.mode == .zeroCopy || !s.tx.finOffered))) =
      true
    cases heof : s.tx.writeIsEof with
    | false => simp [hended]
    | true =>
      have hsource : s.tx.writeSource ≠ [] := fun hs => hdata ⟨heof, hs⟩
      have hback := hcond handler rfl hhandler
      -- zero-copy takes the end back as a rule, staged only before the FIN is handed over
      cases hmode : s.mode with
      | zeroCopy =>
        -- what the stack holds unacknowledged would have reset the stream
        refine absurd ⟨hw, hold, heof, hsource, fun _ => ?_, by simp [hmode]⟩ hback
        by_contra hlt
        exact absurd (hover'.symm.trans (hheld hmode (Nat.not_le.mp hlt))) (by simp)
      | staged =>
        cases hfin : s.tx.finOffered with
        | true => simp [hended]
        | false =>
          exact absurd ⟨hw, hold, heof, hsource, by simp [hmode], fun _ => hfin⟩ hback

/-! ### Who hands over the FIN -/

@[simp] theorem carve_finOffered (t : Outgoing) (mode : WriteMode) :
    (t.carve mode).finOffered = t.finOffered := by
  unfold Outgoing.carve
  split <;> rfl

@[simp] theorem taken_finOffered (s : Sender) (n : Nat) (fin : Bool) :
    (s.taken n fin).finOffered = (s.tx.finOffered || fin) := by
  rw [← carve_finOffered s.tx s.mode]
  unfold Sender.taken
  dsimp only
  split <;> rfl

/-- The FIN is only ever handed over for the active write, and only if that ends the body. -/
theorem Step.fin (h : Step s cs s') (hold : s.tx.finOffered = false)
    (hnew : s'.tx.finOffered = true) : s.tx.writeActive = true ∧ s.tx.writeIsEof = true := by
  cases h with
  | poll =>
    rw [carve_finOffered] at hnew
    exact absurd (hold.symm.trans hnew) (by simp)
  | take room n header =>
    have hsame := (s.tx.sameWrite_carve s.mode).1
    have hfin : s.fin room = true := by
      rw [taken_finOffered, hold, Bool.false_or, Bool.and_eq_true] at hnew
      exact hnew.1
    obtain ⟨hactive, heof, _⟩ := Outgoing.endsAt_iff.mp hfin
    exact ⟨hsame.active ▸ hactive, hsame.isEof ▸ heof⟩
  | _ => exact absurd (hold.symm.trans hnew) (by simp)

theorem Steps.fin (h : Steps s cs s') (hold : s.tx.finOffered = false)
    (hnew : s'.tx.finOffered = true) : s.tx.writeActive = true ∧ s.tx.writeIsEof = true := by
  induction h with
  | refl => exact absurd (hold.symm.trans hnew) (by simp)
  | @cons s t u cs ds hstep _ ih =>
    cases hmid : t.tx.finOffered with
    | true => exact hstep.fin hold hmid
    | false =>
      obtain ⟨hactive, heof⟩ := ih hmid hnew
      obtain ⟨_, hsame, hover⟩ := hstep.same_or_over
      exact ⟨(hover hactive).1, hsame ▸ heof⟩

theorem Turn.fin (h : Turn s a cs s') (hold : s.tx.finOffered = false)
    (hnew : s'.tx.finOffered = true) : s.tx.writeActive = true ∧ s.tx.writeIsEof = true := by
  cases h with
  | refuse | adopt | begin | cancel => exact absurd (hold.symm.trans hnew) (by simp)
  | steps hsteps => exact hsteps.fin hold hnew

/-! ### A write that ends the body hands over the FIN -/

/-- There is always something in the vecs if there is something in the queue. -/
theorem chunkVecs_pos {start lo hi stop room : Nat} {cs : List Chunk} (h : Contiguous lo cs hi)
    (hlo : lo ≤ start) (hhi : start < hi) (hroom : 0 < room) :
    0 < vecLen (Outgoing.chunkVecs start room stop cs).1 := by
  -- on the chunks, of which the first ones may be sent already
  induction cs generalizing lo with
  | nil =>
    obtain rfl : lo = hi := h
    omega
  | cons c cs ih =>
    obtain ⟨rfl, _, htail⟩ := h
    by_cases hskip : c.stop ≤ start
    · rw [Outgoing.chunkVecs_skip hskip]
      exact ih htail hskip
    · obtain ⟨room, rfl⟩ := Nat.exists_eq_succ_of_ne_zero (Nat.pos_iff_ne_zero.mp hroom)
      have hstop : c.stop = c.offset + c.data.length := rfl
      rw [Outgoing.chunkVecs_succ hskip]
      simp only [vecLen_cons]
      omega

/-- Once everything is in packets, `pending_data()` has the next bytes of the write, or the FIN. -/
theorem Inv.pending (h : s.Inv) (hactive : s.tx.writeActive = true) (heof : s.tx.writeIsEof = true)
    (hsent : s.tx.txOffered ≤ s.tx.txSent) {room : Nat} (hroom : 0 < room) :
    s.fin room = true ∨ 0 < vecLen (s.vecs room).1 := by
  have hcarve := h.tx.carve
  have hsame := (s.tx.sameWrite_carve s.mode).1
  have hoffered : (s.tx.carve s.mode).txOffered = s.tx.txOffered := Outgoing.carve_txOffered
  have hle := hcarve.offered_le_queued
  have hactive' : (s.tx.carve s.mode).writeActive = true := hsame.active ▸ hactive
  -- either bytes are left to hand over, or it is the turn of the FIN
  rcases Nat.lt_or_ge s.tx.txOffered (s.tx.carve s.mode).txQueued with hlt | hge
  · right
    unfold Sender.vecs Outgoing.sourceVecs
    split
    · rw [if_pos ⟨hactive', hlt⟩]
      simp only [vecLen_cons, vecLen_nil]
      omega
    case h_2 hmode =>
      obtain ⟨lo, hlo, hcont, _⟩ := hcarve.staged_chunks hmode
      have hacked := le_trans hcarve.acked_le_sent hcarve.sent_le_offered
      exact chunkVecs_pos hcont (by omega) hlt hroom
  · -- the queue is empty, so there is nothing left to carve either
    left
    have hall : (s.tx.carve s.mode).AllQueued s.mode := by
      cases hmode : s.mode with
      | zeroCopy => exact Or.inl rfl
      | staged =>
        have hstaged := (h.tx.staged_active hmode hactive).2
        have hqueued := h.tx.offered_le_queued
        rw [hmode] at hge
        unfold Outgoing.carve at hge ⊢
        split
        case isTrue hc =>
          rw [if_pos hc] at hge
          have hpos : 0 < min (s.tx.writeSource.length - s.tx.writeCopied) kWriteChunkSize :=
            Nat.lt_min.mpr ⟨by omega, by decide⟩
          simp only at hge
          omega
        case isFalse hc =>
          rw [if_neg hc] at hge
          refine Or.inr ?_
          by_contra hne
          exact hc ⟨rfl, hactive, by omega, by omega⟩
    have hstop := (hcarve.sourceVecs_stop room).1
    refine Outgoing.endsAt_iff.mpr ⟨hactive', hsame.isEof ▸ heof, hall, ?_⟩
    show _ ≤ (s.vecs room).2
    have hstop' : (s.vecs room).2 = s.tx.txOffered + vecLen (s.vecs room).1 := by
      simpa [Sender.vecs] using hstop
    omega

end Sender

/-- The actions of ngtcp2 and nghttp3 on the outgoing side. -/
def Act.sends : Act → Bool
  | .writePkt _ | .acked _ | .frame _ | .dataReader _ _ | .packet _ | .writeAcked _ => true
  | _ => false

/-- What a write that ends the body is left with: it still is active, or the FIN is out. -/
theorem QuicStream.Settles.fin_or_active {q q' : QuicStream} {t : Outgoing} {kind : Kind}
    {isOver : Bool} (h : q.Settles t q') (ht : t.Inv kind q.writeMode isOver)
    (heof : t.writeIsEof = true) :
    (q'.tx = t ∨ q'.tx.finOffered = true) ∧ q'.closed = q.closed ∧
      q'.writeAborted = q.writeAborted ∧ q'.kind = q.kind := by
  rcases h with ⟨cs, rfl, _⟩ | ⟨hactive, hdone, rfl⟩
  · exact ⟨Or.inl rfl, rfl, rfl, rfl⟩
  · refine ⟨Or.inr ?_, rfl, rfl, rfl⟩
    show t.finOffered = true
    rcases hdone with ⟨_, hfin⟩ | ⟨_, hdata, hsent, hcopied⟩
    · exact hfin
    · have hoffered := ht.sent_le_offered
      have hqueued := ht.offered_le_queued
      exact ht.fin_of_offered hactive heof hdata (Or.inr hcopied) (by omega)

namespace Stream

variable {m m' : Stream}

/-- A write that ends the body is active on a stream that is otherwise idle. -/
structure Ending (m : Stream) : Prop where
  sound : m.Sound
  frames : m.frames = []
  destroyed : m.destroyed = false
  isOver : m.q.sendingOver = false
  active : m.q.tx.writeActive = true
  isEof : m.q.tx.writeIsEof = true

/-- What is left to hand over. -/
def rest (m : Stream) : Nat :=
  m.q.tx.writeBase + m.q.tx.writeSource.length - m.q.tx.txOffered

/-- A step after which the positions are `t`, as far as the write is not done. -/
theorem Ending.of_settles (h : m.Ending) {a : Act} (hstep : m.step a = some m')
    {q : QuicStream} {t : Outgoing} (hset : q.Settles t m'.q)
    (ht : t.Inv q.kind q.writeMode false) (hsame : m.q.tx.SameWrite t)
    (hover : q.sendingOver = false) (hframes : m'.frames = m.frames)
    (hdestroyed : m'.destroyed = m.destroyed) :
    m'.q.tx.finOffered = true ∨ m'.Ending ∧ m'.q.tx = t := by
  have heof : t.writeIsEof = true := hsame.isEof.trans h.isEof
  obtain ⟨htx, hclosed, haborted, _⟩ := hset.fin_or_active ht heof
  rcases htx with htx | hfin
  · refine Or.inr ⟨?_, htx⟩
    exact
      { sound := (step_turn h.sound hstep).2
        frames := hframes.trans h.frames
        destroyed := hdestroyed.trans h.destroyed
        isOver := by rw [QuicStream.sendingOver, hclosed, haborted]; exact hover
        active := by rw [htx]; exact hsame.active.trans h.active
        isEof := by rw [htx]; exact heof }
  · exact Or.inl hfin

theorem step_of_act (hd : m.destroyed = false) {a : Act} (h : m.fresh.act a = some m') :
    m.step a = some m'.record := by
  rw [Stream.step, hd, if_neg Bool.false_ne_true, h]
  rfl

/-- What is taken brings the end closer. -/
theorem Ending.rest_lt (h : m'.Ending) {n : Nat} (hn : 0 < n) (hsame : m.q.tx.SameWrite m'.q.tx)
    (hoffered : m'.q.tx.txOffered = m.q.tx.txOffered + n) : m'.rest < m.rest := by
  have hle : m'.q.tx.txOffered ≤ m'.q.tx.writeBase + m'.q.tx.writeSource.length := by
    have hqueued := h.sound.sender.tx.offered_le_queued
    have hlen : m'.q.tx.txQueued ≤ m'.q.tx.writeBase + m'.q.tx.writeSource.length := by
      cases hmode : m'.q.writeMode with
      | zeroCopy => exact (h.sound.sender.tx.zero_active hmode h.active).1.le
      | staged =>
        obtain ⟨hq, hcopied⟩ := h.sound.sender.tx.staged_active hmode h.active
        have hq' : m'.q.tx.txQueued = m'.q.tx.writeBase + m'.q.tx.writeCopied := hq
        have hcopied' : m'.q.tx.writeCopied ≤ m'.q.tx.writeSource.length := hcopied
        omega
    exact le_trans hqueued hlen
  unfold Stream.rest
  rw [← hsame.base, ← hsame.source]
  omega

/-- After all that there was to take: the FIN is out, or there is less left. -/
theorem Ending.of_taken (h : m.Ending) {a : Act} (hstep : m.step a = some m') {q : QuicStream}
    {n : Nat} {fin : Bool} (hset : q.Settles (m.sender.taken n (fin && n == n)) m'.q)
    (htaken : (m.sender.taken n (fin && n == n)).Inv q.kind q.writeMode q.sendingOver ∧
      (m.sender.taken n (fin && n == n)).txOffered = m.q.tx.txOffered + n)
    (hover : q.sendingOver = false) (hframes : m'.frames = m.frames)
    (hdestroyed : m'.destroyed = m.destroyed) (hpending : fin = true ∨ 0 < n) :
    m'.q.tx.finOffered = true ∨ m'.Ending ∧ m'.rest < m.rest := by
  obtain ⟨hsame, _⟩ := m.sender.sameWrite_taken n (fin && n == n)
  rcases h.of_settles hstep hset (hover ▸ htaken.1) hsame hover hframes hdestroyed with
    hfin | ⟨hending, htx⟩
  · exact Or.inl hfin
  rcases hpending with hfin | hpos
  · left
    rw [htx, Sender.taken_finOffered, hfin]
    simp
  · right
    refine ⟨hending, hending.rest_lt hpos (htx ▸ hsame) ?_⟩
    rw [htx]
    exact htaken.2

/-- One more packet of a plain stream, with all that `pending_data()` has for it. -/
theorem Ending.round_plain (h : m.Ending) (hkind : m.q.kind ≠ .http3)
    (hnofin : m.q.tx.finOffered = false) :
    ∃ n u, m.step (.writePkt (.written n)) = some u ∧
      (u.q.tx.finOffered = true ∨ u.Ending ∧ u.rest < m.rest) := by
  have hinv := h.sound.sender
  have hsent : m.q.tx.txSent = m.q.tx.txOffered := hinv.tx.plain_sent hkind
  have hpending := hinv.pending h.active h.isEof hsent.ge (by decide : 0 < 16)
  obtain ⟨n, hn⟩ : ∃ n, vecLen (m.sender.vecs 16).1 = n := ⟨_, rfl⟩
  have htaken := hinv.taken hn.ge
  rw [hn] at hpending htaken
  have hdata : ({ m.fresh.q with tx := m.q.tx.carve m.q.writeMode } : QuicStream).hasStreamData
      (m.sender.vecs 16).1 (m.sender.fin 16) = true := by
    -- the FIN goes with what is left, or some bytes go before it
    rcases hpending with hfin | hpos
    · simp [QuicStream.hasStreamData, hfin, hnofin]
    · have hne : (m.sender.vecs 16).1 ≠ [] := by
        intro hnil
        rw [hnil, vecLen_nil] at hn
        omega
      simp [QuicStream.hasStreamData, hne]
  have hact : m.fresh.act (.writePkt (.written n)) =
      some { m.fresh with
        q := { m.fresh.q with tx := m.q.tx.carve m.q.writeMode }.onStreamDataWritten n
          (m.sender.fin 16 && n == n)
        offers := m.offers ++ [⟨m.q.tx.txOffered, (m.sender.vecs 16).1, m.sender.fin 16, n⟩]
        wire := m.wire ++ List.replicate n true
        sent := m.sent + n } := by
    have hguard : m.fresh.isPlain = true ∧ m.fresh.idle = true := by
      refine ⟨by simpa [Stream.isPlain, Stream.fresh] using hkind, ?_⟩
      show m.frames.isEmpty = true
      rw [h.frames]
      rfl
    have hnext : m.fresh.q.nextStreamData =
        ({ m.fresh.q with tx := m.q.tx.carve m.q.writeMode }, (m.sender.vecs 16).1,
          m.sender.fin 16) := by
      rw [QuicStream.nextStreamData, show m.fresh.q.tx.txSent = m.q.tx.txOffered from hsent]
      exact pendingData_alive (q := m.fresh.q) h.isOver _ (by decide : 0 < 16)
    show (if m.fresh.isPlain = true ∧ m.fresh.idle = true then
      m.fresh.writePkt (.written n) else none) = _
    rw [if_pos hguard, Stream.writePkt, hnext]
    dsimp only
    rw [if_pos hdata, if_pos hn.ge, hn, show m.fresh.q.tx.txSent = m.q.tx.txOffered from hsent]
    rfl
  have hstep := step_of_act h.destroyed hact
  refine ⟨n, _, hstep, ?_⟩
  have hset := QuicStream.onStreamDataWritten_settles
    { m.fresh.q with tx := m.q.tx.carve m.q.writeMode } n (m.sender.fin 16 && n == n)
    (hinv.tx.carve.plain_sent hkind)
  have ht : (Outgoing.sent (Outgoing.offered (m.q.tx.carve m.q.writeMode)
      ((m.q.tx.carve m.q.writeMode).txOffered + n) (m.sender.fin 16 && n == n))
      ((m.q.tx.carve m.q.writeMode).txOffered + n)) =
      m.sender.taken n (m.sender.fin 16 && n == n) := by
    have hkind' : m.sender.kind ≠ .http3 := hkind
    rw [Sender.taken, if_neg hkind', Outgoing.carve_txOffered]
    rfl
  rw [ht] at hset
  exact h.of_taken hstep hset htaken h.isOver rfl rfl hpending

theorem Ending.tx_inv (h : m.Ending) : m.q.tx.Inv m.q.kind m.q.writeMode false := by
  have hover : m.sender.isOver = false := h.isOver
  exact hover ▸ h.sound.sender.tx

theorem Ending.idle (h : m.Ending) : m.fresh.idle = true := by
  show m.frames.isEmpty = true
  rw [h.frames]
  rfl

/-- HTTP/3: everything on the wire goes into packets. -/
theorem Ending.flush (h : m.Ending) (hkind : m.q.kind = .http3) :
    ∃ n u, m.step (.packet n) = some u ∧
      (u.q.tx.finOffered = true ∨
        u.Ending ∧ u.q.kind = .http3 ∧ u.q.tx.txOffered ≤ u.q.tx.txSent ∧
          u.q.tx.finOffered = m.q.tx.finOffered ∧ u.rest = m.rest) := by
  have hinv := h.sound.sender
  have hlen : m.sent ≤ m.wire.length := hinv.sent_le
  have hact : m.fresh.act (.packet (m.wire.length - m.sent)) =
      some { m.fresh with
        q := m.fresh.q.onWriteOffered (m.wire.length - m.sent)
        sent := m.sent + (m.wire.length - m.sent) } :=
    if_pos ⟨hkind, h.idle, show m.sent + (m.wire.length - m.sent) ≤ m.wire.length by omega⟩
  have hstep := step_of_act h.destroyed hact
  have hset := m.fresh.q.onWriteOffered_settles hinv.tx.sent_le_offered (m.wire.length - m.sent)
  -- the bytes of the body among those that are left are at most all of them
  have hall : m.q.tx.txOffered ≤ m.q.tx.txSent + (m.wire.length - m.sent) := by
    have hwire : m.wire.count true = m.q.tx.txOffered := hinv.wire
    have hsent : (m.wire.take m.sent).count true ≤ m.q.tx.txSent := hinv.bodySent_le
    have hsplit : m.wire.count true =
        (m.wire.take m.sent).count true + (m.wire.drop m.sent).count true := by
      rw [← List.count_append, List.take_append_drop]
    have hrest : (m.wire.drop m.sent).count true ≤ m.wire.length - m.sent := by
      rw [← List.length_drop]
      exact List.count_le_length
    omega
  have ht := (h.tx_inv.to_http3.sent
    (Nat.le_add_right m.q.tx.txSent (m.wire.length - m.sent))).of_http3 fun hk => absurd hkind hk
  refine ⟨_, _, hstep, ?_⟩
  rcases h.of_settles hstep hset ht ⟨rfl, rfl, rfl, rfl, rfl, rfl, rfl⟩ h.isOver
    rfl rfl with hfin | ⟨hending, htx⟩
  · exact Or.inl hfin
  · refine Or.inr ⟨hending, ?_, ?_, ?_, ?_⟩
    · exact (hset.fin_or_active ht h.isEof).2.2.2.trans hkind
    · rw [htx]
      exact le_min hall le_rfl
    · rw [htx]
      rfl
    · rw [Stream.rest, htx]
      rfl

/-- HTTP/3: nghttp3 asks for more, and gets all that there is. -/
theorem Ending.round_http3 (h : m.Ending) (hkind : m.q.kind = .http3)
    (hsent : m.q.tx.txOffered ≤ m.q.tx.txSent) :
    ∃ u, m.step (.dataReader 1 0) = some u ∧
      (u.q.tx.finOffered = true ∨ u.Ending ∧ u.rest < m.rest) := by
  have hinv := h.sound.sender
  have hpending := hinv.pending h.active h.isEof hsent (by decide : 0 < 1)
  obtain ⟨n, hn⟩ : ∃ n, vecLen (m.sender.vecs 1).1 = n := ⟨_, rfl⟩
  have htaken := hinv.taken hn.ge
  rw [hn] at hpending htaken
  have hsome : ¬((m.sender.vecs 1).1 = [] ∧ m.sender.fin 1 = false) := by
    rintro ⟨hnil, hnofin⟩
    rw [hnil, vecLen_nil] at hn
    -- the FIN goes with what is left, or some bytes go before it
    rcases hpending with hfin | hpos
    · exact absurd (hnofin.symm.trans hfin) (by simp)
    · omega
  have hact : m.fresh.act (.dataReader 1 0) =
      some { m.fresh with
        q := { m.fresh.q with tx := m.q.tx.carve m.q.writeMode }.takeOffer (m.sender.vecs 1).1
          (m.sender.fin 1)
        offers := m.offers ++ [⟨m.q.tx.txOffered, (m.sender.vecs 1).1, m.sender.fin 1,
          vecLen (m.sender.vecs 1).1⟩]
        wire := m.wire ++ List.replicate 0 false ++
          List.replicate (vecLen (m.sender.vecs 1).1) true } := by
    show (if m.q.kind = .http3 ∧ m.fresh.idle = true then
      some (m.fresh.dataReader 1 0) else none) = _
    rw [if_pos ⟨hkind, h.idle⟩, Stream.dataReader, if_neg Nat.one_ne_zero,
      pendingData_alive (q := m.fresh.q) h.isOver _ (by decide : 0 < 1)]
    exact congrArg some (if_neg hsome)
  have hstep := step_of_act h.destroyed hact
  refine ⟨_, hstep, ?_⟩
  have hset := QuicStream.onOffered_settles
    { m.fresh.q with tx := m.q.tx.carve m.q.writeMode } (m.q.tx.txOffered + n)
    (m.sender.fin 1 && n == n)
  have ht : Outgoing.offered (m.q.tx.carve m.q.writeMode) (m.q.tx.txOffered + n)
      (m.sender.fin 1 && n == n) = m.sender.taken n (m.sender.fin 1 && n == n) := by
    have hkind' : m.sender.kind = .http3 := hkind
    rw [Sender.taken, if_pos hkind']
    rfl
  rw [ht] at hset
  have htake : ({ m.fresh.q with tx := m.q.tx.carve m.q.writeMode } : QuicStream).takeOffer
      (m.sender.vecs 1).1 (m.sender.fin 1) =
      ({ m.fresh.q with tx := m.q.tx.carve m.q.writeMode } : QuicStream).onOffered
        (m.q.tx.txOffered + n) (m.sender.fin 1 && n == n) := by
    rw [QuicStream.takeOffer, hn, Outgoing.carve_txOffered, beq_self_eq_true, Bool.and_true]
  rw [← htake] at hset
  exact h.of_taken hstep hset htaken h.isOver rfl rfl hpending

/-- However much is left of it, the stack can be given all of it, and the FIN. -/
theorem Ending.hands_over {m : Stream} (h : m.Ending) :
    ∃ acts u, (∀ a ∈ acts, Act.sends a = true) ∧ run step m acts = some u ∧
      u.q.tx.finOffered = true := by
  -- by induction on how much that is: each round takes some of it, or the FIN
  induction hrest : m.rest using Nat.strongRecOn generalizing m with
  | ind n ih =>
    have hgo : ∀ {acts u}, (∀ a ∈ acts, Act.sends a = true) → run step m acts = some u →
        (u.q.tx.finOffered = true ∨ u.Ending ∧ u.rest < m.rest) →
        ∃ acts u, (∀ a ∈ acts, Act.sends a = true) ∧ run step m acts = some u ∧
          u.q.tx.finOffered = true := by
      intro acts u hacts hrun hround
      rcases hround with hfin | ⟨hending, hlt⟩
      · exact ⟨acts, u, hacts, hrun, hfin⟩
      · obtain ⟨more, v, hmore, hrun', hfin⟩ := ih u.rest (hrest ▸ hlt) hending rfl
        refine ⟨acts ++ more, v, ?_, run_trans hrun hrun', hfin⟩
        intro a ha
        rcases List.mem_append.mp ha with ha | ha
        · exact hacts a ha
        · exact hmore a ha
    cases hfin : m.q.tx.finOffered with
    | true => exact ⟨[], m, by simp, rfl, hfin⟩
    | false =>
      -- HTTP/3 first puts into packets what nghttp3 has
      by_cases hkind : m.q.kind = .http3
      · obtain ⟨k, u, hu, hround⟩ := h.flush hkind
        rcases hround with hfin' | ⟨hending, hkind', hsent, _, hsame⟩
        · exact ⟨[.packet k], u, by simp [Act.sends], run_cons_eq_some.mpr ⟨u, hu, rfl⟩, hfin'⟩
        · obtain ⟨v, hv, hround⟩ := hending.round_http3 hkind' hsent
          have hrun : run step m [.packet k, .dataReader 1 0] = some v :=
            run_cons_eq_some.mpr ⟨u, hu, run_cons_eq_some.mpr ⟨v, hv, rfl⟩⟩
          rw [hsame] at hround
          exact hgo (by simp [Act.sends]) hrun hround
      · obtain ⟨k, u, hu, hround⟩ := h.round_plain hkind hfin
        have hrun : run step m [.writePkt (.written k)] = some u :=
          run_cons_eq_some.mpr ⟨u, hu, rfl⟩
        exact hgo (by simp [Act.sends]) hrun hround

/-! ### The sending side after the writer is gone -/

/-- The active write ends the body, and it will be handed over with it: the stack only has to go on
asking. (It does so once the handlers that are running have returned.) -/
structure WillEnd (m : Stream) : Prop where
  active : m.q.tx.writeActive = true
  isEof : m.q.tx.writeIsEof = true
  hands_over : m.frames = [] → ∃ acts u, (∀ a ∈ acts, Act.sends a = true) ∧
    run step m acts = some u ∧ u.q.tx.finOffered = true

/-- A stream that has lost its writer, and is neither closed nor gone, has told the peer how its
sending side ended, or will. -/
def Settled (m : Stream) : Prop :=
  m.q.writer = false → m.destroyed = false → m.q.closed = false →
    m.q.writeAborted = true ∨ m.q.tx.finOffered = true ∨ m.WillEnd

/-- The step is the cancellation of the active write, which carries data and the end of the body,
after the writer has been dropped, and before the stack has anything that it could not give back. -/
def TakesBack (m : Stream) (a : Act) : Prop :=
  a = .cancelWrite m.q.tx.writeToken ∧ m.q.tx.writeHandler ≠ none ∧ m.sender.TakesBack

theorem settled_iff_kept (h : m.Sound) : m.Settled ↔ m.sender.Kept := by
  constructor
  · intro hs hwriter hd hover
    have hover' : m.q.closed = false ∧ m.q.writeAborted = false := Bool.or_eq_false_iff.mp hover
    rcases hs hwriter hd hover'.1 with haborted | hfin | hend
    · exact absurd (hover'.2.symm.trans haborted) Bool.false_ne_true
    · exact (h.sender.tx.fin_ended hfin hover).1
    · exact h.sender.tx.active_eof hend.active hend.isEof
  · intro hk hwriter hd hclosed
    -- reset, handed over, or with a write that is going to do it
    rcases h.sender.settled hk hwriter hd hclosed with haborted | hfin | ⟨hover, hactive, heof⟩
    · exact Or.inl haborted
    · exact Or.inr (Or.inl hfin)
    · exact Or.inr (Or.inr ⟨hactive, heof,
        fun hframes => Ending.hands_over ⟨h, hframes, hd, hover, hactive, heof⟩⟩)

/-- What is taken back is not there any more, and nothing comes in its place. -/
theorem TakesBack.not_settled (h : m.Sound) {a : Act} (hback : m.TakesBack a)
    (hstep : m.step a = some m') : ¬m'.Settled := by
  obtain ⟨rfl, hhandler, hwriter, hover, heof, hsource, hzero, hstaged⟩ := hback
  have hactive : m.q.tx.writeActive = true := h.sender.tx.handler_active hhandler
  have hnofin : m.q.tx.finOffered = false := by
    cases hmode : m.q.writeMode with
    | staged => exact hstaged hmode
    | zeroCopy =>
      by_contra hfin
      have hall := (h.sender.tx.fin_ended ((Bool.not_eq_false _).mp hfin) hover).2.1
      have hacked := (h.sender.tx.zero_active hmode hactive).2.2 hsource
      have hoffered := hzero hmode
      omega
  have hkeep : m.fresh.q.letGo = m.fresh.q := by
    refine if_neg ?_
    rintro ⟨hmode, hlt, _⟩
    exact absurd hlt (Nat.not_lt.mpr (hzero hmode))
  rw [Stream.step] at hstep
  obtain ⟨u, hu, rfl⟩ := Option.map_eq_some_iff.mp hstep
  split at hu
  · exact absurd hu (by simp [Stream.actDetached])
  case isFalse hd =>
    rw [← Option.some.inj hu]
    have hq : m.fresh.q.cancelWrite m.q.tx.writeToken =
        { m.fresh.q with tx := m.q.tx.cancel m.q.writeMode }.completeWrite m.q.tx.writeHandler
          .canceled := by
      rw [QuicStream.cancelWrite, if_neg (by simpa [Stream.fresh] using hhandler), if_neg, hkeep]
      · rfl
      · exact fun hbare => hsource hbare.2
    intro hs
    have hover' := Bool.or_eq_false_iff.mp hover
    have hs' := hs
    unfold Settled at hs'
    simp only [Stream.record, Stream.cancelWrite, hq, QuicStream.completeWrite_eq] at hs'
    rcases hs' hwriter (Bool.not_eq_true _ ▸ hd) hover'.1 with haborted | hfin | hend
    · exact absurd (hover'.2.symm.trans haborted) Bool.false_ne_true
    · exact absurd (hnofin.symm.trans hfin) Bool.false_ne_true
    · exact absurd hend.active Bool.false_ne_true

/-- One step: the sending side is settled afterwards exactly if the end of the body has not been
taken back. -/
theorem step_settled_iff (h : m.Sound) (hs : m.Settled) {a : Act} (hstep : m.step a = some m') :
    m'.Settled ↔ ¬m.TakesBack a := by
  constructor
  · exact fun hs' hback => hback.not_settled h hstep hs'
  · intro hback
    obtain ⟨hturn, hsound⟩ := step_turn h hstep
    refine (settled_iff_kept hsound).mpr (hturn.kept ((settled_iff_kept h).mp hs) ?_)
    intro handler ha hhandler htakes
    exact hback ⟨ha, by rw [show m.q.tx.writeHandler = some handler from hhandler]; simp, htakes⟩

/-- The FIN is handed over by this step for a write that the user has ended the body with, and that
has not been cancelled. -/
def FinEarned (m m' : Stream) : Prop :=
  m.q.tx.finOffered = false → m'.q.tx.finOffered = true →
    m.q.tx.eofSubmitted = true ∧ m.q.tx.writeActive = true ∧
      ∃ w ∈ m.writes, w.token = m.q.tx.writeToken ∧ w.eof = true ∧ w.cancelled = false

theorem step_finEarned (h : m.Sound) {a : Act} (hstep : m.step a = some m') : m.FinEarned m' := by
  intro hold hnew
  obtain ⟨hactive, heof⟩ := (step_turn h hstep).1.fin hold hnew
  obtain ⟨ws, w, hws, hw⟩ := h.sender.active hactive
  refine ⟨h.sender.tx.active_eof hactive heof, hactive, w, ?_, hw.token, hw.eof.trans heof,
    hw.cancelled⟩
  rw [show m.writes = ws ++ [w] from hws]
  simp

/-- **No sending side is left half-open**, in all states of a run, exactly if no step of it takes
the end of the body back after the writer has been dropped; and no step of any run hands over a FIN
that is not the user's. -/
theorem settled_iff {kind : Kind} {mode : WriteMode} {headers : Bool} {acts : List Act}
    (h : run step (init kind mode headers) acts = some m) :
    (Throughout step Settled (init kind mode headers) acts ↔
        Meets step (fun m a => ¬m.TakesBack a) (init kind mode headers) acts) ∧
      ∀ a m', m.step a = some m' → m.FinEarned m' := by
  have hinit : (init kind mode headers).Settled := fun hw => absurd hw (by simp [init])
  refine ⟨throughout_iff_meets (fun s a t hs ht => (step_turn hs ht).2)
    (fun s a t hs hP ht => step_settled_iff hs hP ht) (sound_init kind mode headers) hinit h,
    fun a m' ha => ?_⟩
  exact step_finEarned (Reachable.sound ⟨headers, acts, h⟩) ha

/-- A write that ends the body, the writer dropped behind it, and the stack asking for data. -/
def endingBehindWriter : List Act :=
  [.startWrite (some ⟨1, none⟩) [1, 2] true, .dropWriter, .writePkt .notWritten]

theorem settled_endingBehindWriter :
    (after (.plain ⟨0, 0⟩) .staged endingBehindWriter).q.writer = false ∧
      (after (.plain ⟨0, 0⟩) .staged endingBehindWriter).q.tx.writeActive = true ∧
      Throughout step Settled (init (.plain ⟨0, 0⟩) .staged true) endingBehindWriter := by
  have hrun : run step (init (.plain ⟨0, 0⟩) .staged true) endingBehindWriter =
      some (after (.plain ⟨0, 0⟩) .staged endingBehindWriter) := by decide
  refine ⟨by decide, by decide, (settled_iff hrun).1.mpr (meets_of_forall ?_ _)⟩
  simp [endingBehindWriter, TakesBack]

/-- The same write, cancelled after the writer has been dropped: the peer waits forever. -/
def takenBack : Stream :=
  after (.plain ⟨0, 0⟩) .staged
    [.startWrite (some ⟨1, none⟩) [1, 2] true, .dropWriter, .cancelWrite 1]

theorem takenBack_not_settled :
    Reachable (.plain ⟨0, 0⟩) .staged takenBack ∧ takenBack.q.writer = false ∧
      takenBack.destroyed = false ∧ takenBack.q.closed = false ∧
      takenBack.q.writeAborted = false ∧ takenBack.q.tx.finOffered = false ∧
      takenBack.q.tx.writeActive = false ∧ ¬takenBack.Settled := by
  refine ⟨reachable_after (by decide), by decide, by decide, by decide, by decide, by decide,
    by decide, fun h => ?_⟩
  rcases h (by decide) (by decide) (by decide) with h | h | h
  · exact absurd h (by decide)
  · exact absurd h (by decide)
  · exact absurd h.active (by decide)

end Stream

end AnyHttp.Quic
