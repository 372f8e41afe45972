import AnyHttp.Quic.Equiv.HalfOpen

/-!
# What HTTP/3 takes for sent

`on_write_offered()` takes the bytes of a packet for bytes of the body, whatever they are, as far as
there are any that nghttp3 holds.  It may take too many for sent, but never too few, so that no
staged write waits for bytes that have gone out.

nghttp3 does not ask a stream again that has answered `NGHTTP3_ERR_WOULDBLOCK`, until it is resumed.

* `accounting`: what holds in every state of every run.
-/

namespace AnyHttp.Quic

open Lib

variable {q : QuicStream} {blocked : Bool}

/-! ### While nothing goes out -/

namespace Sender

variable {s s' u : Sender} {a : Act} {cs : List Call}

/-- The positions of a staged stream are where they have been, and no write has begun. -/
structure Eased (s s' : Sender) : Prop where
  isOver : s.isOver = true → s'.isOver = true
  queued : s'.tx.txQueued = s.tx.txQueued
  offered : s'.tx.txOffered = s.tx.txOffered
  sent : s'.tx.txSent = s.tx.txSent
  write : s'.tx.writeActive = true → s.tx.writeActive = true ∧
    s'.tx.writeSource = s.tx.writeSource ∧ s'.tx.writeCopied = s.tx.writeCopied

theorem Eased.refl (s : Sender) : Eased s s := ⟨id, rfl, rfl, rfl, fun ha => ⟨ha, rfl, rfl⟩⟩

theorem Eased.trans (h₁ : Eased s s') (h₂ : Eased s' u) : Eased s u where
  isOver := fun hover => h₂.isOver (h₁.isOver hover)
  queued := h₂.queued.trans h₁.queued
  offered := h₂.offered.trans h₁.offered
  sent := h₂.sent.trans h₁.sent
  write := by
    intro ha
    obtain ⟨ha', hsource', hcopied'⟩ := h₂.write ha
    obtain ⟨ha, hsource, hcopied⟩ := h₁.write ha'
    exact ⟨ha, hsource'.trans hsource, hcopied'.trans hcopied⟩

/-- What has been offered, and what has gone out, only becomes more. -/
theorem Step.grows (h : Step s cs s') :
    s.offers.length ≤ s'.offers.length ∧ s.sent ≤ s'.sent := by
  cases h with
  | nothing | poll =>
    dsimp only
    rw [List.length_append]
    exact ⟨Nat.le_add_right _ _, Nat.le_refl _⟩
  | take =>
    dsimp only
    rw [List.length_append]
    refine ⟨Nat.le_add_right _ _, ?_⟩
    split
    · exact Nat.le_refl _
    · exact Nat.le_add_right _ _
  | packet => exact ⟨Nat.le_refl _, Nat.le_add_right _ _⟩
  | _ => exact ⟨Nat.le_refl _, Nat.le_refl _⟩

theorem Steps.grows (h : Steps s cs s') :
    s.offers.length ≤ s'.offers.length ∧ s.sent ≤ s'.sent := by
  induction h with
  | refl => exact ⟨Nat.le_refl _, Nat.le_refl _⟩
  | cons hstep _ ih =>
    exact ⟨Nat.le_trans hstep.grows.1 ih.1, Nat.le_trans hstep.grows.2 ih.2⟩

theorem Step.eased (h : s.Inv) (hmode : s.mode = .staged) (hstep : Step s cs s')
    (hoffers : s'.offers.length ≤ s.offers.length) (hsent : s'.sent ≤ s.sent) : Eased s s' := by
  cases hstep with
  | flags closed writeAborted writer hclosed haborted =>
    refine ⟨?_, rfl, rfl, rfl, fun ha => ⟨ha, rfl, rfl⟩⟩
    unfold Sender.isOver
    rw [Bool.or_eq_true, Bool.or_eq_true]
    exact Or.imp hclosed haborted
  | framing | detach | destroy | acked => exact ⟨id, rfl, rfl, rfl, fun ha => ⟨ha, rfl, rfl⟩⟩
  | release | finish => exact ⟨id, rfl, rfl, rfl, fun ha => absurd ha Bool.false_ne_true⟩
  | ackedLast _ hzero =>
    rw [hmode] at hzero
    exact nomatch hzero
  | nothing | poll | take =>
    dsimp only at hoffers
    rw [List.length_append, List.length_singleton] at hoffers
    omega
  | packet n =>
    have hle := h.tx.sent_le_offered
    refine ⟨id, rfl, rfl, ?_, fun ha => ⟨ha, rfl, rfl⟩⟩
    show min (s.tx.txSent + n) s.tx.txOffered = s.tx.txSent
    dsimp only at hsent
    omega

theorem Steps.eased (h : s.Inv) (hmode : s.mode = .staged) (hsteps : Steps s cs s')
    (hoffers : s'.offers.length ≤ s.offers.length) (hsent : s'.sent ≤ s.sent) : Eased s s' := by
  induction hsteps with
  | refl s => exact Eased.refl s
  | cons hstep hsteps ih =>
    obtain ⟨hoffers₁, hsent₁⟩ := hstep.grows
    obtain ⟨hoffers₂, hsent₂⟩ := hsteps.grows
    have hfirst := hstep.eased h hmode (by omega) (by omega)
    exact hfirst.trans (ih (hstep.inv h) (hstep.later.mode.trans hmode) (by omega) (by omega))

theorem Turn.eased (h : s.Inv) (hmode : s.mode = .staged) (hturn : Turn s a cs s')
    (hwrite : ∀ handler buffer eof, a ≠ .startWrite handler buffer eof)
    (hoffers : s'.offers.length ≤ s.offers.length) (hsent : s'.sent ≤ s.sent) : Eased s s' := by
  cases hturn with
  | refuse handler buffer eof => exact absurd rfl (hwrite handler buffer eof)
  | adopt handler buffer eof => exact absurd rfl (hwrite handler buffer eof)
  | begin handler buffer eof => exact absurd rfl (hwrite handler buffer eof)
  | cancel closed writeAborted handler _ _ hclosed haborted =>
    refine ⟨?_, ?_, rfl, rfl, fun ha => absurd ha Bool.false_ne_true⟩
    · exact ((step_setOver hclosed haborted).eased h hmode (Nat.le_refl _) (Nat.le_refl _)).isOver
    · show (s.tx.cancel s.mode).txQueued = s.tx.txQueued
      rw [hmode]
      rfl
  | steps hsteps => exact hsteps.eased h hmode hoffers hsent

/-- What is left of a staged write has not gone out, and where nghttp3 does not ask for it, it is on
its way. -/
structure Paced (s : Sender) (blocked : Bool) : Prop where
  unsent : s.tx.writeActive = true → s.tx.writeSource ≠ [] →
    s.tx.writeCopied = s.tx.writeSource.length → s.tx.txSent < s.tx.txQueued
  waiting : blocked = true → s.isOver = false → s.tx.writeActive = true →
    s.tx.writeSource ≠ [] → s.tx.txOffered = s.tx.txQueued ∧ s.tx.txSent < s.tx.txQueued

variable {blocked' : Bool}

theorem Paced.eased (h : s.Paced blocked) (heased : Eased s s')
    (hblocked : blocked' = true → blocked = true) : s'.Paced blocked' where
  unsent := by
    intro ha hs hcopied
    obtain ⟨ha', hsource, hcopied'⟩ := heased.write ha
    rw [hsource] at hs
    rw [hsource, hcopied'] at hcopied
    rw [heased.sent, heased.queued]
    exact h.unsent ha' hs hcopied
  waiting := by
    intro hb hover ha hs
    obtain ⟨ha', hsource, _⟩ := heased.write ha
    rw [hsource] at hs
    have hover' : s.isOver = false := by
      by_contra hne
      rw [heased.isOver (Bool.not_eq_false _ ▸ hne)] at hover
      exact nomatch hover
    rw [heased.sent, heased.queued, heased.offered]
    exact h.waiting (hblocked hb) hover' ha' hs

/-- `pending_data()` has something, as long as there is something left in the queue. -/
theorem Inv.vecs_ne_nil (h : s.Inv) (hmode : s.mode = .staged)
    (hlt : s.tx.txOffered < (s.tx.carve s.mode).txQueued) {room : Nat} (hroom : 0 < room) :
    (s.vecs room).1 ≠ [] := by
  have hcarve := h.tx.carve
  obtain ⟨lo, hlo, hcont, _⟩ := hcarve.staged_chunks hmode
  have hacked := hcarve.acked_le_sent
  have hsent := hcarve.sent_le_offered
  rw [Outgoing.carve_txOffered] at hsent
  have hpos : 0 < vecLen (Outgoing.chunkVecs s.tx.txOffered room s.tx.txOffered
      (s.tx.carve s.mode).chunks).1 :=
    chunkVecs_pos hcont (show lo ≤ s.tx.txOffered by omega) hlt hroom
  intro hnil
  unfold Sender.vecs Outgoing.sourceVecs at hnil
  rw [hmode] at hnil hpos
  dsimp only at hnil
  rw [hnil] at hpos
  exact nomatch hpos

/-- ... or in the caller's buffer, once the queue has gone out. -/
theorem Inv.carve_lt (h : s.Inv) (hmode : s.mode = .staged) (hactive : s.tx.writeActive = true)
    (hcopied : s.tx.writeCopied ≠ s.tx.writeSource.length) (hsent : s.tx.txQueued ≤ s.tx.txSent) :
    s.tx.txQueued < (s.tx.carve s.mode).txQueued := by
  have hle := (h.tx.staged_active hmode hactive).2
  have hlt : s.tx.writeCopied < s.tx.writeSource.length := by omega
  have hpos : 0 < min (s.tx.writeSource.length - s.tx.writeCopied) kWriteChunkSize :=
    Nat.lt_min.mpr ⟨by omega, by decide⟩
  unfold Outgoing.carve
  rw [if_pos ⟨hmode, hactive, hsent, hlt⟩]
  exact Nat.lt_add_of_pos_right hpos

/-- Carving keeps what is left of the write unsent. -/
theorem Paced.carve (h : s.Paced blocked) (hinv : s.Inv) (hactive : s.tx.writeActive = true)
    (hs : s.tx.writeSource ≠ []) (hmode : s.mode = .staged) :
    s.tx.txSent < (s.tx.carve s.mode).txQueued := by
  -- a slice is carved once everything before it is in packets
  by_cases hcarve : s.tx.txQueued ≤ s.tx.txSent
  · -- the whole write has been carved, so part of it is not in packets yet
    by_cases hcopied : s.tx.writeCopied = s.tx.writeSource.length
    · have hlt := h.unsent hactive hs hcopied
      omega
    · have hlt := hinv.carve_lt hmode hactive hcopied hcarve
      have hsent := hinv.tx.sent_le_offered
      have hoffered := hinv.tx.offered_le_queued
      omega
  · unfold Outgoing.carve
    rw [if_neg fun hc => hcarve hc.2.2.1]
    omega

end Sender

/-! ### Streams of HTTP/3 -/

namespace Stream

variable {m m' : Stream} {blocked : Bool} {a : Act}

/-- Whether nghttp3 waits for the stream to be resumed. -/
def blockedAfter (m : Stream) (blocked : Bool) (a : Act) (m' : Stream) : Bool :=
  match a with
  | .dataReader veccnt _ =>
    if veccnt = 0 then blocked
    else
      let answer := m.q.pendingData m.q.tx.txOffered veccnt
      answer.2.1.isEmpty && !answer.2.2
  | _ => blocked && !m'.q.calls.contains .onWritable

/-- A step of a stream, with what nghttp3 waits for. -/
def stepBlocked : Stream × Bool → Act → Option (Stream × Bool)
  | (m, blocked), a => (m.step a).map fun m' => (m', m.blockedAfter blocked a m')

/-- Only nghttp3 asks, and only ngtcp2 sends. -/
theorem act_quiet (hkind : m.q.kind = .http3)
    (hdata : ∀ veccnt header, a ≠ .dataReader veccnt header)
    (hpacket : ∀ n, a ≠ .packet n) (h : m.act a = some m') :
    m'.offers = m.offers ∧ m'.sent = m.sent := by
  have hsame (hsame : TxSame m m') : m'.offers = m.offers ∧ m'.sent = m.sent :=
    ⟨congrArg Sender.offers hsame.sender, congrArg Sender.sent hsame.sender⟩
  have hfail (m : Stream) (ec : ErrorCode) :
      (m.fail ec).offers = m.offers ∧ (m.fail ec).sent = m.sent := by
    unfold Stream.fail
    dsimp only
    split <;> exact ⟨rfl, rfl⟩
  have hplain : m.isPlain = false := by
    rw [isPlain, hkind]
    rfl
  unfold Stream.act at h
  cases a with
  | startWrite handler buffer eof =>
    obtain ⟨_, heq⟩ := Option.ite_none_right_eq_some.mp h
    exact Option.some.inj heq ▸ ⟨rfl, rfl⟩
  | cancelWrite token => exact Option.some.inj h ▸ ⟨rfl, rfl⟩
  | asyncReadSome handler size =>
    obtain ⟨_, heq⟩ := Option.ite_none_right_eq_some.mp h
    exact hsame (Option.some.inj heq ▸ TxSame.asyncReadSome m handler size)
  | cancelRead =>
    obtain ⟨_, heq⟩ := Option.ite_none_right_eq_some.mp h
    exact hsame (Option.some.inj heq ▸ TxSame.cancelRead m)
  | resetStream code =>
    obtain ⟨_, heq⟩ := Option.ite_none_right_eq_some.mp h
    exact Option.some.inj heq ▸ ⟨rfl, rfl⟩
  | stopSending code =>
    obtain ⟨⟨hp, _⟩, _⟩ := Option.ite_none_right_eq_some.mp h
    rw [hplain] at hp
    cases hp
  | submitHeaders =>
    obtain ⟨_, heq⟩ := Option.ite_none_right_eq_some.mp h
    exact Option.some.inj heq ▸ ⟨rfl, rfl⟩
  | dropReader =>
    obtain ⟨_, heq⟩ := Option.ite_none_right_eq_some.mp h
    exact Option.some.inj heq ▸ ⟨rfl, rfl⟩
  | dropWriter =>
    obtain ⟨_, heq⟩ := Option.ite_none_right_eq_some.mp h
    rw [← Option.some.inj heq]
    unfold Stream.dropWriter
    dsimp only
    split
    · exact ⟨rfl, rfl⟩
    · split
      · exact ⟨rfl, rfl⟩
      · split
        · exact ⟨rfl, rfl⟩
        · split
          · exact hfail _ _
          · exact ⟨rfl, rfl⟩
  | ret =>
    dsimp only at h
    split at h
    · cases h
    · rename_i consumed k frames hframes
      rw [← Option.some.inj h]
      have hloop := TxSame.readLoop { m with frames := frames } consumed k
        fun m => TxSame.resume m k
      exact ⟨congrArg Sender.offers hloop.sender, congrArg Sender.sent hloop.sender⟩
    · exact Option.some.inj h ▸ ⟨rfl, rfl⟩
  | recvStreamData data fin =>
    obtain ⟨⟨hp, _⟩, _⟩ := Option.ite_none_right_eq_some.mp h
    rw [hplain] at hp
    cases hp
  | recvData data =>
    obtain ⟨_, heq⟩ := Option.ite_none_right_eq_some.mp h
    exact hsame (Option.some.inj heq ▸ TxSame.onDataChunk m data false)
  | endStream =>
    obtain ⟨_, heq⟩ := Option.ite_none_right_eq_some.mp h
    exact hsame (Option.some.inj heq ▸ TxSame.onEof m)
  | streamReset =>
    obtain ⟨_, heq⟩ := Option.ite_none_right_eq_some.mp h
    rw [hplain] at heq
    exact Option.some.inj heq ▸ ⟨rfl, rfl⟩
  | streamStopSending =>
    obtain ⟨⟨hp, _⟩, _⟩ := Option.ite_none_right_eq_some.mp h
    rw [hplain] at hp
    cases hp
  | recvStopSending =>
    obtain ⟨⟨hp, _⟩, _⟩ := Option.ite_none_right_eq_some.mp h
    rw [hplain] at hp
    cases hp
  | writePkt r =>
    obtain ⟨⟨hp, _⟩, _⟩ := Option.ite_none_right_eq_some.mp h
    rw [hplain] at hp
    cases hp
  | acked stop =>
    obtain ⟨⟨hp, _⟩, _⟩ := Option.ite_none_right_eq_some.mp h
    rw [hplain] at hp
    cases hp
  | frame n =>
    obtain ⟨_, heq⟩ := Option.ite_none_right_eq_some.mp h
    exact Option.some.inj heq ▸ ⟨rfl, rfl⟩
  | dataReader veccnt header => exact absurd rfl (hdata veccnt header)
  | packet n => exact absurd rfl (hpacket n)
  | writeAcked n =>
    obtain ⟨_, heq⟩ := Option.ite_none_right_eq_some.mp h
    exact Option.some.inj heq ▸ ⟨rfl, rfl⟩
  | fail ec => exact Option.some.inj h ▸ hfail m ec
  | destroy =>
    obtain ⟨_, heq⟩ := Option.ite_none_right_eq_some.mp h
    exact Option.some.inj heq ▸ ⟨rfl, rfl⟩

/-- Where an operation completes the write, there is nothing left of it. -/
theorem settles_unsent {q q' : QuicStream} {t : Outgoing} (h : q.Settles t q')
    (ht : t.writeActive = true → t.writeSource ≠ [] → t.txSent < t.txQueued)
    (ha : q'.tx.writeActive = true) (hs : q'.tx.writeSource ≠ []) :
    q'.tx.txSent < q'.tx.txQueued := by
  rcases h with ⟨cs, rfl, _⟩ | ⟨_, _, rfl⟩
  · exact ht ha hs
  · exact absurd ha Bool.false_ne_true

/-- A write that begins wakes nghttp3. -/
theorem paced_startWrite (h : m.sender.Paced blocked) (handler : Option Handler)
    (buffer : List UInt8) (eof : Bool) :
    (m.startWrite handler buffer eof).sender.Paced
      (blocked && !(m.startWrite handler buffer eof).q.calls.contains .onWritable) := by
  have hless : ∀ b, (blocked && b) = true → blocked = true := fun b => by
    rw [Bool.and_eq_true]
    exact And.left
  rcases m.q.startWrite_cases handler buffer eof with
    ⟨_, ec, heq⟩ | ⟨_, _, _, _, _, _, _, heq⟩ | ⟨_, _, _, _, heq⟩
  · refine h.eased ⟨?_, ?_, ?_, ?_, ?_⟩ (hless _) <;> unfold Stream.startWrite <;> rw [heq]
    · exact id
    · rfl
    · rfl
    · rfl
    · exact fun ha => ⟨ha, rfl, rfl⟩
  · refine h.eased ⟨?_, ?_, ?_, ?_, ?_⟩ (hless _) <;> unfold Stream.startWrite <;> rw [heq]
    · exact id
    · rfl
    · rfl
    · rfl
    · exact fun ha => ⟨ha, rfl, rfl⟩
  · have hcalls : (m.startWrite handler buffer eof).q.calls.contains .onWritable = true := by
      unfold Stream.startWrite
      rw [heq]
      simp
    rw [hcalls]
    refine ⟨?_, fun hb => absurd hb (by simp)⟩
    intro _ hs hcopied
    unfold Stream.startWrite at hs hcopied
    rw [heq] at hs hcopied
    -- nothing of the buffer has been copied yet
    exact absurd (List.length_eq_zero_iff.mp (Eq.symm hcopied)) hs

/-- nghttp3 is told that there is nothing only where there is nothing. -/
theorem paced_dataReader (h : m.sender.Paced blocked) (hinv : m.sender.Inv)
    (hmode : m.q.writeMode = .staged) (veccnt header : Nat) :
    (m.dataReader veccnt header).sender.Paced
      (m.blockedAfter blocked (.dataReader veccnt header) (m.dataReader veccnt header)) := by
  -- without room, nghttp3 has nothing to ask for
  by_cases hcount : veccnt = 0
  · unfold blockedAfter dataReader
    dsimp only
    rw [if_pos hcount, if_pos hcount]
    exact h
  · have hroom : 0 < veccnt := Nat.pos_of_ne_zero hcount
    cases hover : m.q.sendingOver with
    | true =>
      unfold blockedAfter dataReader
      dsimp only
      rw [if_neg hcount, if_neg hcount, pendingData_over hover]
      dsimp only
      rw [if_pos ⟨rfl, rfl⟩]
      exact ⟨h.unsent, fun _ hover' => absurd (hover.symm.trans hover') (by simp)⟩
    | false =>
      have hsame := (m.q.tx.sameWrite_carve m.q.writeMode).1
      have hsent : (m.q.tx.carve m.q.writeMode).txSent = m.q.tx.txSent := by
        unfold Outgoing.carve
        split <;> rfl
      have hleft : (m.q.tx.carve m.q.writeMode).writeActive = true →
          (m.q.tx.carve m.q.writeMode).writeSource ≠ [] →
            (m.q.tx.carve m.q.writeMode).txSent < (m.q.tx.carve m.q.writeMode).txQueued := by
        intro ha hs
        rw [hsame.active] at ha
        rw [hsame.source] at hs
        rw [hsent]
        exact h.carve hinv ha hs hmode
      unfold blockedAfter dataReader
      dsimp only
      rw [if_neg hcount, if_neg hcount, pendingData_alive hover _ hroom]
      dsimp only
      split
      · rename_i hnone
        refine ⟨fun ha hs _ => hleft ha hs, fun _ _ ha hs => ⟨?_, hleft ha hs⟩⟩
        -- if there were something in the queue, it would have been handed out
        have hle := hinv.tx.carve.offered_le_queued
        by_contra hne
        rw [Outgoing.carve_txOffered] at hle
        have hne' : (m.q.tx.carve m.q.writeMode).txOffered ≠
            (m.q.tx.carve m.q.writeMode).txQueued := hne
        rw [Outgoing.carve_txOffered] at hne'
        have hlt : m.sender.tx.txOffered < (m.sender.tx.carve m.sender.mode).txQueued :=
          Nat.lt_of_le_of_ne hle hne'
        exact hinv.vecs_ne_nil hmode hlt hroom hnone.1
      · rename_i hsome
        have hawake : (((m.q.tx.carve m.q.writeMode).sourceVecs m.q.writeMode m.q.tx.txOffered
            veccnt).1.isEmpty && !(m.q.tx.carve m.q.writeMode).endsAt m.q.writeMode
              ((m.q.tx.carve m.q.writeMode).sourceVecs m.q.writeMode m.q.tx.txOffered
                veccnt).2) = false := by
          rw [← Bool.not_eq_true, Bool.and_eq_true, Bool.not_eq_true', List.isEmpty_iff]
          exact hsome
        rw [hawake]
        refine ⟨?_, nofun⟩
        intro ha hs _
        have hset := QuicStream.onOffered_settles { m.q with tx := m.q.tx.carve m.q.writeMode }
        unfold QuicStream.takeOffer at ha hs ⊢
        exact settles_unsent (hset _ _) hleft ha hs

theorem contains_call (q : QuicStream) (c : Call) : (q.call c).calls.contains c = true := by
  simp [QuicStream.call]

/-- What has been taken for sent wakes nghttp3, if that is all there was in the queue. -/
theorem paced_packet (h : m.sender.Paced blocked) (n sent : Nat)
    (hmode : m.q.writeMode = .staged) :
    ({ m with q := m.q.onWriteOffered n, sent := sent } : Stream).sender.Paced
      (blocked && !(m.q.onWriteOffered n).calls.contains .onWritable) := by
  have hkeep : ∀ b, m.sender.Paced (blocked && b) := by
    intro b
    refine ⟨h.unsent, fun hb => h.waiting ?_⟩
    rw [Bool.and_eq_true] at hb
    exact hb.1
  unfold QuicStream.onWriteOffered
  split
  · unfold QuicStream.onSent
    split
    · exact ⟨h.unsent, (hkeep _).waiting⟩
    · dsimp only
      split
      · rename_i hwait
        rcases hwait with hne | hidle | hlt
        · exact absurd hmode hne
        · exact ⟨fun ha => absurd (hidle.symm.trans ha) (by simp),
            fun _ _ ha => absurd (hidle.symm.trans ha) (by simp)⟩
        · refine ⟨fun _ _ _ => hlt, fun hb hover ha hs => ?_⟩
          rw [Bool.and_eq_true] at hb
          exact ⟨(h.waiting hb.1 hover ha hs).1, hlt⟩
      · split
        · rename_i hbare
          exact ⟨fun _ hs => absurd hbare hs, fun _ _ _ hs => absurd hbare hs⟩
        · split
          · rw [QuicStream.finishActiveWrite, QuicStream.completeWrite_eq]
            exact ⟨fun ha => absurd ha Bool.false_ne_true,
              fun _ _ ha => absurd ha Bool.false_ne_true⟩
          · rename_i hcopied
            refine ⟨fun _ _ hall => absurd hall hcopied, fun hb => ?_⟩
            rw [contains_call] at hb
            simp at hb
  · exact ⟨h.unsent, (hkeep _).waiting⟩

/-- What is answered does not depend on the calls that have been made. -/
theorem blockedAfter_dataReader (m u : Stream) (blocked : Bool) (veccnt header : Nat) :
    m.blockedAfter blocked (.dataReader veccnt header) u.record =
      m.fresh.blockedAfter blocked (.dataReader veccnt header) u := by
  unfold blockedAfter fresh QuicStream.pendingData
  dsimp only
  split
  · rfl
  · split <;> split <;> first | rfl | contradiction

/-- **Step lemma**: no step leaves a staged write waiting for bytes that are out. -/
theorem step_paced (hm : m.Sound) (hkind : m.q.kind = .http3) (hmode : m.q.writeMode = .staged)
    (h : m.sender.Paced blocked) (hstep : m.step a = some m') :
    m'.sender.Paced (m.blockedAfter blocked a m') := by
  have hturn := (step_turn hm hstep).1
  obtain ⟨u, hu, rfl⟩ := Option.map_eq_some_iff.mp hstep
  have hless : ∀ b, (blocked && b) = true → blocked = true := fun b => by
    rw [Bool.and_eq_true]
    exact And.left
  have heased (hwrite : ∀ handler buffer eof, a ≠ .startWrite handler buffer eof)
      (hdata : ∀ veccnt header, a ≠ .dataReader veccnt header) (hpacket : ∀ n, a ≠ .packet n) :
      m.sender.Eased u.record.sender := by
    have hquiet : u.offers = m.offers ∧ u.sent = m.sent := by
      split at hu
      · have hsame := txSame_actDetached hu
        exact ⟨congrArg Sender.offers hsame.sender, congrArg Sender.sent hsame.sender⟩
      · exact act_quiet (m := m.fresh) hkind hdata hpacket hu
    exact hturn.eased hm.sender hmode hwrite (congrArg List.length hquiet.1).le hquiet.2.le
  cases a with
  | startWrite handler buffer eof =>
    split at hu
    · exact nomatch hu
    · obtain ⟨_, heq⟩ := Option.ite_none_right_eq_some.mp hu
      obtain rfl := Option.some.inj heq
      exact paced_startWrite (m := m.fresh) h handler buffer eof
  | dataReader veccnt header =>
    split at hu
    · exact nomatch hu
    · obtain ⟨_, heq⟩ := Option.ite_none_right_eq_some.mp hu
      obtain rfl := Option.some.inj heq
      rw [blockedAfter_dataReader]
      exact paced_dataReader (m := m.fresh) h hm.sender hmode veccnt header
  | packet n =>
    split at hu
    · exact nomatch hu
    · obtain ⟨_, heq⟩ := Option.ite_none_right_eq_some.mp hu
      obtain rfl := Option.some.inj heq
      exact paced_packet (m := m.fresh) h n (m.sent + n) hmode
  | _ => exact h.eased (heased nofun nofun nofun) (hless _)

/-! ### Runs -/

theorem stepBlocked_eq_some {blocked' : Bool} :
    stepBlocked (m, blocked) a = some (m', blocked') ↔
      m.step a = some m' ∧ blocked' = m.blockedAfter blocked a m' := by
  simp only [stepBlocked, Option.map_eq_some_iff, Prod.mk.injEq]
  constructor
  · rintro ⟨u, hu, rfl, rfl⟩
    exact ⟨hu, rfl⟩
  · rintro ⟨hu, rfl⟩
    exact ⟨m', hu, rfl, rfl⟩

/-- What every step keeps. -/
structure Accounted (mode : WriteMode) (m : Stream) (blocked : Bool) : Prop where
  sound : m.Sound
  kind : m.q.kind = .http3
  writeMode : m.q.writeMode = mode
  paced : mode = .staged → m.sender.Paced blocked

theorem accounted_init (mode : WriteMode) (headers : Bool) :
    Accounted mode (init .http3 mode headers) false where
  sound := sound_init .http3 mode headers
  kind := rfl
  writeMode := rfl
  paced := fun _ => ⟨nofun, nofun⟩

theorem Accounted.step {mode : WriteMode} (h : Accounted mode m blocked)
    (hstep : m.step a = some m') : Accounted mode m' (m.blockedAfter blocked a m') := by
  obtain ⟨hturn, hsound⟩ := step_turn h.sound hstep
  refine ⟨hsound, hturn.later.kind.trans h.kind, hturn.later.mode.trans h.writeMode, ?_⟩
  intro hmode
  exact step_paced h.sound h.kind (h.writeMode.trans hmode) (h.paced hmode) hstep

/-- **Accounting**: in every state, no more bytes of the body are in packets than have been taken
for sent, nor have more of these been acknowledged.  A staged write has bytes that are not in
packets; once there are none of those that nghttp3 has been given, it is not waiting, and gets the
next ones, for which the next chunk is carved if there is none in the queue. -/
theorem accounting {mode : WriteMode} {headers : Bool} {acts : List Act}
    (hrun : run stepBlocked (init .http3 mode headers, false) acts = some (m, blocked)) :
    m.bodySent ≤ m.q.tx.txSent ∧ m.q.tx.txSent ≤ m.q.tx.txOffered ∧
      m.q.tx.txAcked ≤ m.q.tx.txSent ∧
      (∀ n m', m.step (.writeAcked n) = some m' → m.q.tx.txAcked + n ≤ m.q.tx.txSent) ∧
      (mode = .staged → m.q.tx.writeActive = true → m.q.tx.writeSource ≠ [] →
        m.bodySent < m.q.tx.writeBase + m.q.tx.writeSource.length ∧
        (m.q.sendingOver = false → m.bodySent = m.q.tx.txOffered → blocked = false ∧
          ∀ room, 0 < room → (m.q.pendingData m.q.tx.txOffered room).2.1 ≠ [] ∧
            m.q.tx.txOffered < (m.q.pendingData m.q.tx.txOffered room).1.tx.txQueued)) := by
  have hstep : ∀ (x : Stream × Bool) a y, Accounted mode x.1 x.2 → stepBlocked x a = some y →
      Accounted mode y.1 y.2 := by
    rintro ⟨m, blocked⟩ a ⟨m', blocked'⟩ hx hy
    obtain ⟨hu, rfl⟩ := stepBlocked_eq_some.mp hy
    exact hx.step hu
  have h : Accounted mode m blocked := run_inv
    (P := fun x : Stream × Bool => Accounted mode x.1 x.2)
    hstep (accounted_init mode headers) hrun
  have hinv := h.sound.sender
  have hbody : m.bodySent ≤ m.q.tx.txSent := hinv.bodySent_le
  refine ⟨hbody, hinv.tx.sent_le_offered, hinv.tx.acked_le_sent, ?_, ?_⟩
  · intro n m' hacked
    obtain ⟨u, hu, _⟩ := Option.map_eq_some_iff.mp hacked
    split at hu
    · exact nomatch hu
    · obtain ⟨⟨_, _, hn⟩, _⟩ := Option.ite_none_right_eq_some.mp hu
      have hn' : m.q.tx.txAcked + n ≤ m.bodySent := hn
      omega
  · intro hmode hactive hs
    have hstaged : m.sender.mode = .staged := h.writeMode.trans hmode
    have hpaced := h.paced hmode
    obtain ⟨hqueued, hcopied⟩ := hinv.tx.staged_active hstaged hactive
    have hqueued' : m.q.tx.txQueued = m.q.tx.writeBase + m.q.tx.writeCopied := hqueued
    have hcopied' : m.q.tx.writeCopied ≤ m.q.tx.writeSource.length := hcopied
    have hoffered : m.q.tx.txOffered ≤ m.q.tx.txQueued := hinv.tx.offered_le_queued
    have hsent : m.q.tx.txSent ≤ m.q.tx.txOffered := hinv.tx.sent_le_offered
    constructor
    · -- all of the write is carved, or the next slice of it is due
      by_cases hall : m.q.tx.writeCopied = m.q.tx.writeSource.length
      · have hunsent : m.q.tx.txSent < m.q.tx.txQueued := hpaced.unsent hactive hs hall
        omega
      · omega
    · intro hover hout
      have hlt : m.sender.tx.txOffered < (m.sender.tx.carve m.sender.mode).txQueued := by
        have hcarve := hpaced.carve hinv hactive hs hstaged
        have hsame : m.sender.tx.txSent = m.sender.tx.txOffered := by
          show m.q.tx.txSent = m.q.tx.txOffered
          omega
        rw [← hsame]
        exact hcarve
      constructor
      · rw [← Bool.not_eq_true]
        intro hb
        have hwaiting := (hpaced.waiting hb hover hactive hs).2
        have hwaiting' : m.q.tx.txSent < m.q.tx.txQueued := hwaiting
        have hsame := (hpaced.waiting hb hover hactive hs).1
        have hsame' : m.q.tx.txOffered = m.q.tx.txQueued := hsame
        omega
      · intro room hroom
        rw [pendingData_alive hover _ hroom]
        exact ⟨hinv.vecs_ne_nil hstaged hlt hroom, hlt⟩

/-- Ten bytes of headers and a body of three, where the first packet ends right before the body: the
write is done before any of it is out. -/
theorem accounting_early :
    ∃ m blocked, run stepBlocked (init .http3 .staged true, false)
        [.frame 10, .startWrite none [1, 2, 3] false, .dataReader 4 2, .packet 12] =
          some (m, blocked) ∧
      m.bodySent = 0 ∧ m.q.tx.txSent = 3 ∧ m.q.tx.writeActive = false ∧
      m.q.tx.txSent ≤ m.q.tx.txOffered := by
  obtain ⟨⟨m, blocked⟩, hrun⟩ : ∃ x, run stepBlocked (init .http3 .staged true, false)
      [.frame 10, .startWrite none [1, 2, 3] false, .dataReader 4 2, .packet 12] = some x :=
    ⟨_, rfl⟩
  have hpositions : (run stepBlocked (init .http3 .staged true, false)
      [.frame 10, .startWrite none [1, 2, 3] false, .dataReader 4 2, .packet 12]).map
        (fun x => (x.1.bodySent, x.1.q.tx.txSent, x.1.q.tx.writeActive)) = some (0, 3, false) := by
    decide
  rw [hrun, Option.map_some, Option.some.injEq, Prod.mk.injEq, Prod.mk.injEq] at hpositions
  obtain ⟨hbody, hsent, hactive⟩ := hpositions
  exact ⟨m, blocked, hrun, hbody, hsent, hactive, (accounting hrun).2.1⟩

end Stream

end AnyHttp.Quic
