import AnyHttp.Quic.Sender

/-!
# The representation invariant of the outgoing body

`Outgoing.Inv` is what holds of the four positions, the active write and the chunks at any time.
It depends on the kind of the stream and the write mode, and on whether the sending side is `over`,
since a reset leaves the positions where they are.  There is one lemma for each way the positions
are moved, named like the function of `Quic/Stream.lean`; together they give `Sender.Step.inv`, and
by it and the simulation of `Quic/Equiv/Sender.lean` the invariant holds in every reachable state.

The order `tx_acked ≤ tx_sent ≤ tx_offered ≤ tx_queued` carries most of the weight.  That an
acknowledgement does not overtake `tx_sent` cannot be seen from the stream alone, because HTTP/3's
counts include its framing: `Sender.Inv` relates the positions to what is on the wire.
-/

namespace AnyHttp.Quic

open Lib

/-- The whole of the active write's buffer is queued. -/
def Outgoing.AllQueued (mode : WriteMode) (t : Outgoing) : Prop :=
  mode = .zeroCopy ∨ t.writeCopied = t.writeSource.length

/-- The representation invariant of the outgoing side. `over` says that the sending side has been
reset or closed. -/
structure Outgoing.Inv (kind : Kind) (mode : WriteMode) (isOver : Bool) (t : Outgoing) : Prop where
  acked_le_sent : t.txAcked ≤ t.txSent
  sent_le_offered : t.txSent ≤ t.txOffered
  offered_le_queued : t.txOffered ≤ t.txQueued
  handler_active : t.writeHandler ≠ none → t.writeActive = true
  active_carries : t.writeActive = true → t.writeSource ≠ [] ∨ t.writeIsEof = true
  active_eof : t.writeActive = true → t.writeIsEof = true → t.eofSubmitted = true
  ended : t.eofSubmitted = true → isOver = false →
    t.finOffered = true ∨ (t.writeActive = true ∧ t.writeIsEof = true)
  fin_ended : t.finOffered = true → isOver = false → t.eofSubmitted = true ∧
    t.txOffered = t.txQueued ∧ (t.writeActive = true → t.AllQueued mode)
  fin_of_offered : t.writeActive = true → t.writeIsEof = true → t.writeSource ≠ [] →
    t.AllQueued mode → t.txOffered = t.txQueued → t.finOffered = true
  plain_sent : kind ≠ .http3 → t.txSent = t.txOffered
  zero_active : mode = .zeroCopy → t.writeActive = true →
    t.txQueued = t.writeBase + t.writeSource.length ∧ t.writeBase ≤ t.txAcked ∧
      (t.writeSource ≠ [] → t.txAcked < t.txQueued)
  zero_idle : mode = .zeroCopy → t.writeActive = false → isOver = false → t.txAcked = t.txQueued
  staged_active : mode = .staged → t.writeActive = true →
    t.txQueued = t.writeBase + t.writeCopied ∧ t.writeCopied ≤ t.writeSource.length
  staged_chunks : mode = .staged → ∃ lo, lo ≤ t.txAcked ∧ Contiguous lo t.chunks t.txQueued ∧
    ∀ c ∈ t.chunks.head?, t.txAcked < c.stop
  staged_pace : mode = .staged → t.txQueued ≤ t.txSent + kWriteChunkSize

variable {kind : Kind} {mode : WriteMode} {isOver : Bool} {t : Outgoing}

namespace Outgoing.Inv

theorem init : ({} : Outgoing).Inv kind mode false where
  acked_le_sent := le_rfl
  sent_le_offered := le_rfl
  offered_le_queued := le_rfl
  handler_active := by simp
  active_carries := by simp
  active_eof := by simp
  ended := by simp
  fin_ended := by simp
  fin_of_offered := by simp
  plain_sent := by simp
  zero_active := by simp
  zero_idle := by simp
  staged_active := by simp
  staged_chunks := fun _ => ⟨0, le_rfl, rfl, by simp⟩
  staged_pace := by simp

/-- What is only promised while the sending side is alive is not missed once it is not. -/
theorem over_mono {over' : Bool} (h : t.Inv kind mode isOver)
    (hover : over' = false → isOver = false) :
    t.Inv kind mode over' :=
  { h with
    ended := fun he ho => h.ended he (hover ho)
    fin_ended := fun hf ho => h.fin_ended hf (hover ho)
    zero_idle := fun hm ha ho => h.zero_idle hm ha (hover ho) }

/-- The active write goes away: it is done, or the sending side is over. -/
theorem release (h : t.Inv kind mode isOver)
    (hzero : mode = .zeroCopy → isOver = false → t.txAcked = t.txQueued)
    (hfin : isOver = false → t.writeIsEof = true → t.finOffered = true) :
    t.release.Inv kind mode isOver where
  acked_le_sent := h.acked_le_sent
  sent_le_offered := h.sent_le_offered
  offered_le_queued := h.offered_le_queued
  handler_active := fun hn => absurd rfl hn
  active_carries := by simp [Outgoing.release]
  active_eof := by simp [Outgoing.release]
  ended := fun he ho => by
    rcases h.ended he ho with hf | ⟨_, hw⟩
    · exact Or.inl hf
    · exact Or.inl (hfin ho hw)
  fin_ended := fun hf ho =>
    ⟨(h.fin_ended hf ho).1, (h.fin_ended hf ho).2.1, by simp [Outgoing.release]⟩
  fin_of_offered := by simp [Outgoing.release]
  plain_sent := h.plain_sent
  zero_active := by simp [Outgoing.release]
  zero_idle := fun hm _ ho => hzero hm ho
  staged_active := by simp [Outgoing.release]
  staged_chunks := h.staged_chunks
  staged_pace := h.staged_pace

/-- Only a bare end-of-body can be active while another write is ready to start, and not even
that before the body has been ended. -/
theorem idle_of_ready (h : t.Inv kind mode isOver) (heof : t.eofSubmitted = false)
    (hready : t.writeActive = true → t.writeSource = []) : t.writeActive = false := by
  by_contra ha
  rw [Bool.not_eq_false] at ha
  rcases h.active_carries ha with hs | he
  · exact hs (hready ha)
  · rw [h.active_eof ha he] at heof
    exact absurd heof (by simp)

/-- A write that gets past the entry ladder. -/
theorem begin (h : t.Inv kind mode false) (hidle : t.writeActive = false)
    (heof : t.eofSubmitted = false) {buffer : List UInt8} {eof : Bool}
    (hcarries : buffer ≠ [] ∨ eof = true) (handler : Option Handler) :
    (t.begin mode handler buffer eof).Inv kind mode false := by
  have hnofin : t.finOffered = false := by
    by_contra hf
    rw [Bool.not_eq_false] at hf
    have := (h.fin_ended hf rfl).1
    rw [heof] at this
    exact absurd this (by simp)
  have hle := h.offered_le_queued
  have hended : (t.begin mode handler buffer eof).eofSubmitted = true → eof = true := by
    simp [Outgoing.begin, heof]
  have hnofin' : ¬(t.begin mode handler buffer eof).finOffered = true := by
    simp [Outgoing.begin, hnofin]
  cases mode with
  | zeroCopy =>
    have hacked := h.zero_idle rfl hidle rfl
    have hlen : buffer ≠ [] → 0 < buffer.length := fun hb => List.length_pos_iff.mpr hb
    exact
      { acked_le_sent := h.acked_le_sent
        sent_le_offered := h.sent_le_offered
        offered_le_queued := le_trans hle (Nat.le_add_right _ _)
        handler_active := fun _ => rfl
        active_carries := fun _ => hcarries
        active_eof := fun _ (he : eof = true) => by simp [Outgoing.begin, he]
        ended := fun he _ => Or.inr ⟨rfl, hended he⟩
        fin_ended := fun hf _ => absurd hf hnofin'
        fin_of_offered := fun _ _ hb _ hoff => by
          have := hlen hb
          simp only [Outgoing.begin] at hoff
          omega
        plain_sent := h.plain_sent
        zero_active := fun _ _ => ⟨rfl, by simp [Outgoing.begin, hacked], fun hb => by
          have := hlen hb
          simp only [Outgoing.begin, hacked]
          omega⟩
        zero_idle := by simp [Outgoing.begin]
        staged_active := by simp
        staged_chunks := by simp
        staged_pace := by simp }
  | staged =>
    exact
      { acked_le_sent := h.acked_le_sent
        sent_le_offered := h.sent_le_offered
        offered_le_queued := hle
        handler_active := fun _ => rfl
        active_carries := fun _ => hcarries
        active_eof := fun _ (he : eof = true) => by simp [Outgoing.begin, he]
        ended := fun he _ => Or.inr ⟨rfl, hended he⟩
        fin_ended := fun hf _ => absurd hf hnofin'
        fin_of_offered := fun _ _ (hb : buffer ≠ []) hall _ => by
          rcases hall with hall | hall
          · exact absurd hall (by simp)
          · exact absurd (List.length_eq_zero_iff.mp hall.symm) hb
        plain_sent := h.plain_sent
        zero_active := by simp
        zero_idle := by simp
        staged_active := fun _ _ => ⟨rfl, Nat.zero_le _⟩
        staged_chunks := h.staged_chunks
        staged_pace := h.staged_pace }

/-- Cancelling a write that carries data. In `zeroCopy` mode, it survives only if the stack holds
nothing unacknowledged of it. -/
theorem cancel (h : t.Inv kind mode isOver) (hactive : t.writeActive = true)
    (hdata : ¬(t.writeIsEof = true ∧ t.writeSource = []))
    (hheld : mode = .zeroCopy → t.txAcked < t.txOffered → isOver = true) :
    (t.cancel mode).Inv kind mode isOver := by
  have hsent := h.acked_le_sent
  have hoff := h.sent_le_offered
  have hq := h.offered_le_queued
  cases mode with
  | zeroCopy =>
    have hall : isOver = false → t.txOffered ≤ t.txAcked := by
      intro ho
      by_contra hlt
      have := hheld rfl (by omega)
      rw [ho] at this
      exact absurd this (by simp)
    have hnofin : isOver = false → t.finOffered = true → t.writeIsEof = false := by
      -- the FIN went with the last bytes, and they are not acknowledged
      intro ho hf
      by_contra he
      rw [Bool.not_eq_false] at he
      have hlt := (h.zero_active rfl hactive).2.2 (fun hs => hdata ⟨he, hs⟩)
      have heq := (h.fin_ended hf ho).2.1
      have hle := hall ho
      omega
    exact
      { acked_le_sent := hsent
        sent_le_offered := hoff
        offered_le_queued := le_rfl
        handler_active := fun hn => absurd rfl hn
        active_carries := by simp [Outgoing.cancel, Outgoing.release]
        active_eof := by simp [Outgoing.cancel, Outgoing.release]
        ended := fun he ho => by
          simp only [Outgoing.cancel, beq_self_eq_true, Bool.true_or, Bool.and_true,
            Bool.and_eq_true, Bool.not_eq_true'] at he
          rcases h.ended he.1 ho with hf | ⟨_, hw⟩
          · exact Or.inl hf
          · rw [he.2] at hw
            exact absurd hw (by simp)
        fin_ended := fun hf ho => by
          refine ⟨?_, rfl, by simp [Outgoing.cancel, Outgoing.release]⟩
          simp [Outgoing.cancel, hnofin ho hf, (h.fin_ended hf ho).1]
        fin_of_offered := by simp [Outgoing.cancel, Outgoing.release]
        plain_sent := h.plain_sent
        zero_active := by simp [Outgoing.cancel, Outgoing.release]
        zero_idle := fun _ _ ho => by
          have hle := hall ho
          simp only [Outgoing.cancel, Outgoing.release]
          omega
        staged_active := by simp
        staged_chunks := by simp
        staged_pace := by simp }
  | staged =>
    exact
      { acked_le_sent := hsent
        sent_le_offered := hoff
        offered_le_queued := hq
        handler_active := fun hn => absurd rfl hn
        active_carries := by simp [Outgoing.cancel, Outgoing.release]
        active_eof := by simp [Outgoing.cancel, Outgoing.release]
        ended := fun he ho => by
          simp only [Outgoing.cancel, Bool.and_eq_true] at he
          rcases h.ended he.1 ho with hf | ⟨_, hw⟩
          · exact Or.inl hf
          · left
            show t.finOffered = true
            simpa [hw] using he.2
        fin_ended := fun hf ho => by
          have hend := h.fin_ended hf ho
          refine ⟨?_, hend.2.1, by simp [Outgoing.cancel, Outgoing.release]⟩
          have hf' : t.finOffered = true := hf
          simp [Outgoing.cancel, hend.1, hf']
        fin_of_offered := by simp [Outgoing.cancel, Outgoing.release]
        plain_sent := h.plain_sent
        zero_active := by simp
        zero_idle := by simp
        staged_active := by simp [Outgoing.cancel, Outgoing.release]
        staged_chunks := h.staged_chunks
        staged_pace := h.staged_pace }

/-- A handler is attached to the active write, or taken from it. -/
theorem setHandler (h : t.Inv kind mode isOver) (handler : Option Handler)
    (hactive : handler ≠ none → t.writeActive = true) :
    { t with writeHandler := handler }.Inv kind mode isOver :=
  { h with
    handler_active := hactive
    fin_ended := h.fin_ended
    fin_of_offered := h.fin_of_offered }

/-- The next chunk, carved off the caller's buffer once all before it is in packets. -/
theorem carve (h : t.Inv kind mode isOver) : (t.carve mode).Inv kind mode isOver := by
  unfold Outgoing.carve
  split
  case isFalse => exact h
  case isTrue hcarve =>
    obtain ⟨rfl, hactive, hsent, hlt⟩ := hcarve
    obtain ⟨n, hn⟩ : ∃ n, min (t.writeSource.length - t.writeCopied) kWriteChunkSize = n := ⟨_, rfl⟩
    have hpos : 0 < n := by
      rw [← hn]
      exact Nat.lt_min.mpr ⟨by omega, by decide⟩
    have hpace : n ≤ kWriteChunkSize := hn ▸ min_le_right _ _
    have hle : n ≤ t.writeSource.length - t.writeCopied := hn ▸ min_le_left _ _
    rw [hn]
    have hlen : ((t.writeSource.drop t.writeCopied).take n).length = n := by
      rw [List.length_take, List.length_drop]
      omega
    have hne : (t.writeSource.drop t.writeCopied).take n ≠ [] := by
      rw [← List.length_pos_iff, hlen]
      exact hpos
    have hacked := h.acked_le_sent
    have hsoff := h.sent_le_offered
    have hoffq := h.offered_le_queued
    obtain ⟨lo, hlo, hcont, hhead⟩ := h.staged_chunks rfl
    obtain ⟨hbase, _⟩ := h.staged_active rfl hactive
    exact
      { acked_le_sent := hacked
        sent_le_offered := hsoff
        offered_le_queued := le_trans hoffq (Nat.le_add_right _ _)
        handler_active := h.handler_active
        active_carries := h.active_carries
        active_eof := h.active_eof
        ended := h.ended
        fin_ended := fun hf ho => by
          rcases (h.fin_ended hf ho).2.2 hactive with hz | hall
          · exact absurd hz (by simp)
          · omega
        fin_of_offered := fun _ _ _ _ hoff => by
          simp only at hoff
          omega
        plain_sent := h.plain_sent
        zero_active := by simp
        zero_idle := by simp
        staged_active := fun _ _ => by
          simp only
          omega
        staged_chunks := fun _ => by
          refine ⟨lo, hlo, ?_, ?_⟩
          · have := hcont.append hne
            rwa [hlen] at this
          · intro c hc
            rw [List.head?_append] at hc
            cases hchunks : t.chunks.head? with
            | some d =>
              rw [hchunks, Option.some_or, Option.mem_some_iff] at hc
              exact hc ▸ hhead d (by rw [hchunks]; rfl)
            | none =>
              rw [hchunks, Option.none_or, List.head?_cons, Option.mem_some_iff] at hc
              rw [← hc]
              unfold Segment.stop
              rw [hlen]
              simp only
              omega
        staged_pace := fun _ => by
          simp only
          omega }

/-- On the way from `on_offered()` to `on_sent()`, a plain stream is like an HTTP/3 one. -/
theorem to_http3 (h : t.Inv kind mode isOver) : t.Inv .http3 mode isOver :=
  { h with plain_sent := fun hk => absurd rfl hk }

theorem of_http3 (h : t.Inv .http3 mode isOver) (hsent : kind ≠ .http3 → t.txSent = t.txOffered) :
    t.Inv kind mode isOver :=
  { h with plain_sent := hsent }

/-- `on_offered()`: the stack holds on to everything up to `stop`. The FIN comes with the last
byte of the write that ends the body, and with nothing else. -/
theorem offered (h : t.Inv .http3 mode isOver) {stop : Nat} {fin : Bool}
    (hfin : fin = true → t.writeActive = true ∧ t.writeIsEof = true ∧ t.AllQueued mode ∧
      t.txQueued ≤ stop)
    (hlast : t.writeActive = true → t.writeIsEof = true → t.writeSource ≠ [] →
      t.AllQueued mode → t.txQueued ≤ stop → fin = true) :
    (t.offered stop fin).Inv .http3 mode isOver := by
  have hsent := h.sent_le_offered
  have hq := h.offered_le_queued
  exact
    { acked_le_sent := h.acked_le_sent
      sent_le_offered := le_trans hsent (le_max_left _ _)
      offered_le_queued := max_le hq (min_le_right _ _)
      handler_active := h.handler_active
      active_carries := h.active_carries
      active_eof := h.active_eof
      ended := fun he ho => by
        rcases h.ended he ho with hf | hw
        · exact Or.inl (by simp [Outgoing.offered, hf])
        · exact Or.inr hw
      fin_ended := fun hf ho => by
        simp only [Outgoing.offered, Bool.or_eq_true] at hf
        rcases hf with hf | hf
        · obtain ⟨he, heq, hall⟩ := h.fin_ended hf ho
          refine ⟨he, ?_, hall⟩
          simp only [Outgoing.offered]
          omega
        · obtain ⟨ha, hw, hall, hstop⟩ := hfin hf
          refine ⟨h.active_eof ha hw, ?_, fun _ => hall⟩
          simp only [Outgoing.offered]
          omega
      fin_of_offered := fun ha hw hs hall heq => by
        simp only [Outgoing.offered, Bool.or_eq_true]
        by_cases hold : t.txOffered = t.txQueued
        · exact Or.inl (h.fin_of_offered ha hw hs hall hold)
        · right
          refine hlast ha hw hs hall ?_
          simp only [Outgoing.offered] at heq
          omega
      plain_sent := fun hk => absurd rfl hk
      zero_active := h.zero_active
      zero_idle := h.zero_idle
      staged_active := h.staged_active
      staged_chunks := h.staged_chunks
      staged_pace := h.staged_pace }

/-- A bare end-of-body has nothing that could be unacknowledged. -/
theorem bare_acked (h : t.Inv kind .zeroCopy isOver) (hactive : t.writeActive = true)
    (hbare : t.writeSource = []) : t.txAcked = t.txQueued := by
  obtain ⟨hq, hbase, _⟩ := h.zero_active rfl hactive
  rw [hbare, List.length_nil, Nat.add_zero] at hq
  have hsent := h.acked_le_sent
  have hoff := h.sent_le_offered
  have hle := h.offered_le_queued
  omega

/-- The queue ends where the buffer of a write does that is queued as a whole. -/
theorem queued_eq (h : t.Inv kind mode isOver) (hactive : t.writeActive = true)
    (hall : t.AllQueued mode) : t.txQueued = t.writeBase + t.writeSource.length := by
  cases mode with
  | zeroCopy => exact (h.zero_active rfl hactive).1
  | staged =>
    rcases hall with hzero | hcopied
    · exact absurd hzero (by simp)
    · rw [(h.staged_active rfl hactive).1, hcopied]

/-- There is nothing of a bare end-of-body that could be missing in the queue. -/
theorem allQueued_of_bare (h : t.Inv kind mode isOver) (hactive : t.writeActive = true)
    (hbare : t.writeSource = []) : t.AllQueued mode := by
  cases mode with
  | zeroCopy => exact Or.inl rfl
  | staged =>
    have hle := (h.staged_active rfl hactive).2
    rw [hbare, List.length_nil] at hle
    exact Or.inr (by rw [hbare, List.length_nil]; exact Nat.le_zero.mp hle)

/-- `on_sent()`: everything up to `stop` has gone into packets, as far as it was offered. -/
theorem sent (h : t.Inv .http3 mode isOver) {stop : Nat} (hstop : t.txSent ≤ stop) :
    (t.sent stop).Inv .http3 mode isOver := by
  have hmono : t.txSent ≤ min stop t.txOffered := le_min hstop h.sent_le_offered
  exact
    { h with
      acked_le_sent := le_trans h.acked_le_sent hmono
      sent_le_offered := min_le_right _ _
      fin_ended := h.fin_ended
      fin_of_offered := h.fin_of_offered
      plain_sent := fun hk => absurd rfl hk
      staged_pace := fun hm => le_trans (h.staged_pace hm) (Nat.add_le_add_right hmono _) }

/-- `on_acked()`: the peer has everything up to `stop`, which had gone into packets. -/
theorem acked (h : t.Inv kind mode isOver) {stop : Nat} (hold : t.txAcked < stop)
    (hstop : stop ≤ t.txSent)
    (hmore : mode = .zeroCopy → t.writeActive = true → t.writeSource ≠ [] →
      stop < t.writeBase + t.writeSource.length) :
    (t.acked stop).Inv kind mode isOver := by
  have hsoff := h.sent_le_offered
  have hoffq := h.offered_le_queued
  exact
    { h with
      acked_le_sent := hstop
      fin_ended := h.fin_ended
      fin_of_offered := h.fin_of_offered
      zero_active := fun hm ha => by
        obtain ⟨hq, hbase, _⟩ := h.zero_active hm ha
        refine ⟨hq, by simp only [Outgoing.acked]; omega, fun hs => ?_⟩
        have := hmore hm ha hs
        simp only [Outgoing.acked]
        omega
      zero_idle := fun hm ha ho => by
        have := h.zero_idle hm ha ho
        simp only [Outgoing.acked]
        omega
      staged_chunks := fun hm => by
        obtain ⟨lo, hlo, hcont, _⟩ := h.staged_chunks hm
        exact hcont.dropBelow (le_trans hlo hold.le) }

/-- The acknowledgement of the last byte of a zero-copy write, together with its completion. -/
theorem acked_release (h : t.Inv kind .zeroCopy isOver) {stop : Nat}
    (hactive : t.writeActive = true)
    (hs : t.writeSource ≠ []) (hstop : stop ≤ t.txSent)
    (hall : t.writeBase + t.writeSource.length ≤ stop) :
    (t.acked stop).release.Inv kind .zeroCopy isOver := by
  have hsoff := h.sent_le_offered
  have hoffq := h.offered_le_queued
  obtain ⟨hq, _, _⟩ := h.zero_active rfl hactive
  have hfin : t.writeIsEof = true → t.finOffered = true := fun hw =>
    h.fin_of_offered hactive hw hs (Or.inl rfl) (by omega)
  exact
    { acked_le_sent := hstop
      sent_le_offered := hsoff
      offered_le_queued := hoffq
      handler_active := fun hn => absurd rfl hn
      active_carries := by simp [Outgoing.release]
      active_eof := by simp [Outgoing.release]
      ended := fun he ho => by
        rcases h.ended he ho with hf | ⟨_, hw⟩
        · exact Or.inl hf
        · exact Or.inl (hfin hw)
      fin_ended := fun hf ho =>
        ⟨(h.fin_ended hf ho).1, (h.fin_ended hf ho).2.1, by simp [Outgoing.release]⟩
      fin_of_offered := by simp [Outgoing.release]
      plain_sent := h.plain_sent
      zero_active := by simp [Outgoing.release]
      zero_idle := fun _ _ _ => by
        simp only [Outgoing.acked, Outgoing.release]
        omega
      staged_active := by simp
      staged_chunks := by simp
      staged_pace := by simp }

end Outgoing.Inv

/-! ### Where the vecs end -/

@[simp] theorem vecLen_nil : vecLen [] = 0 := rfl

@[simp] theorem vecLen_cons (v : IoVec) (vs : List IoVec) :
    vecLen (v :: vs) = v.len + vecLen vs := by
  simp [vecLen]

theorem Outgoing.chunkVecs_skip {start stop : Nat} {c : Chunk} (hc : c.stop ≤ start) (room : Nat)
    (cs : List Chunk) : chunkVecs start room stop (c :: cs) = chunkVecs start room stop cs := by
  rw [chunkVecs.eq_def]
  exact if_pos hc

theorem Outgoing.chunkVecs_zero {start stop : Nat} {c : Chunk} (hc : ¬c.stop ≤ start)
    (cs : List Chunk) : chunkVecs start 0 stop (c :: cs) = ([], stop) := by
  rw [chunkVecs.eq_def]
  exact if_neg hc

theorem Outgoing.chunkVecs_succ {start stop : Nat} {c : Chunk} (hc : ¬c.stop ≤ start) (room : Nat)
    (cs : List Chunk) :
    chunkVecs start (room + 1) stop (c :: cs) =
      (⟨none, c.data, start - c.offset, c.data.length - (start - c.offset)⟩ ::
        (chunkVecs start room c.stop cs).1, (chunkVecs start room c.stop cs).2) := by
  have hskip : (if c.offset < start then start - c.offset else 0) = start - c.offset := by
    split <;> omega
  rw [chunkVecs.eq_def]
  simp only [if_neg hc, hskip]

theorem Outgoing.chunkVecs_owner {start room stop : Nat} {cs : List Chunk} {v : IoVec}
    (hv : v ∈ (chunkVecs start room stop cs).1) : v.owner = none := by
  induction cs generalizing room stop with
  | nil => exact absurd hv (by simp [chunkVecs])
  | cons c cs ih =>
    by_cases hc : c.stop ≤ start
    · rw [chunkVecs_skip hc] at hv
      exact ih hv
    cases room with
    | zero =>
      rw [chunkVecs_zero hc] at hv
      exact absurd hv (by simp)
    | succ room =>
      rw [chunkVecs_succ hc] at hv
      rcases List.mem_cons.mp hv with rfl | hv
      · rfl
      · exact ih hv

/-- Chunks that begin at or above `start` are handed out as a whole. -/
theorem Outgoing.chunkVecs_stop_of_le {start lo hi : Nat} {cs : List Chunk}
    (h : Contiguous lo cs hi) (hlo : start ≤ lo) (room : Nat) :
    (chunkVecs start room lo cs).2 = lo + vecLen (chunkVecs start room lo cs).1 ∧
      (chunkVecs start room lo cs).2 ≤ hi := by
  induction cs generalizing lo room with
  | nil => exact ⟨rfl, le_of_eq h⟩
  | cons c cs ih =>
    obtain ⟨rfl, hne, htail⟩ := h
    have hlen : 0 < c.data.length := List.length_pos_iff.mpr hne
    have hstop : c.stop = c.offset + c.data.length := rfl
    have hskip : ¬c.stop ≤ start := by omega
    cases room with
    | zero =>
      rw [chunkVecs_zero hskip]
      exact ⟨rfl, le_trans (by omega) htail.le⟩
    | succ room =>
      obtain ⟨hrest, hle⟩ := ih htail (by omega) room
      rw [chunkVecs_succ hskip]
      simp only [vecLen_cons]
      exact ⟨by omega, hle⟩

/-- The vecs are for `[start, …)`, without a gap, and end where `pending_data()` says they do. -/
theorem Outgoing.chunkVecs_stop {start lo hi : Nat} {cs : List Chunk} (h : Contiguous lo cs hi)
    (hlo : lo ≤ start) (hhi : start ≤ hi) (room : Nat) :
    (chunkVecs start room start cs).2 = start + vecLen (chunkVecs start room start cs).1 ∧
      (chunkVecs start room start cs).2 ≤ hi := by
  induction cs generalizing lo with
  | nil => exact ⟨rfl, hhi⟩
  | cons c cs ih =>
    obtain ⟨rfl, hne, htail⟩ := h
    by_cases hskip : c.stop ≤ start
    · rw [chunkVecs_skip hskip]
      exact ih htail hskip
    have hstop : c.stop = c.offset + c.data.length := rfl
    cases room with
    | zero =>
      rw [chunkVecs_zero hskip]
      exact ⟨rfl, hhi⟩
    | succ room =>
      -- the first chunk that reaches past `start` is handed out from there on
      obtain ⟨hrest, hle⟩ := chunkVecs_stop_of_le htail (show start ≤ c.stop by omega) room
      rw [chunkVecs_succ hskip]
      simp only [vecLen_cons]
      exact ⟨by omega, hle⟩

/-- The vecs for what is not handed over yet. -/
theorem Outgoing.Inv.sourceVecs_stop (h : t.Inv kind mode isOver) (room : Nat) :
    (t.sourceVecs mode t.txOffered room).2 =
        t.txOffered + vecLen (t.sourceVecs mode t.txOffered room).1 ∧
      (t.sourceVecs mode t.txOffered room).2 ≤ t.txQueued := by
  have hacked := h.acked_le_sent
  have hsent := h.sent_le_offered
  have hoff := h.offered_le_queued
  cases mode with
  | zeroCopy =>
    unfold Outgoing.sourceVecs
    dsimp only
    split
    · simp only [vecLen_cons, vecLen_nil]
      omega
    · exact ⟨rfl, hoff⟩
  | staged =>
    obtain ⟨lo, hlo, hcont, _⟩ := h.staged_chunks rfl
    exact Outgoing.chunkVecs_stop hcont (by omega) hoff room

theorem Outgoing.endsAt_iff {stop : Nat} : t.endsAt mode stop = true ↔
    t.writeActive = true ∧ t.writeIsEof = true ∧ t.AllQueued mode ∧ t.txQueued ≤ stop := by
  simp only [Outgoing.endsAt, Outgoing.AllQueued, Bool.and_eq_true, Bool.or_eq_true, beq_iff_eq,
    decide_eq_true_eq, and_assoc]

@[simp] theorem Outgoing.carve_txOffered : (t.carve mode).txOffered = t.txOffered := by
  unfold Outgoing.carve
  split <;> rfl

/-! ### The active write, while its bytes move -/

/-- Nothing has changed about which write is active and what it is to do. -/
structure Outgoing.SameWrite (t t' : Outgoing) : Prop where
  active : t'.writeActive = t.writeActive
  token : t'.writeToken = t.writeToken
  base : t'.writeBase = t.writeBase
  source : t'.writeSource = t.writeSource
  isEof : t'.writeIsEof = t.writeIsEof
  next : t'.nextWriteToken = t.nextWriteToken
  eof : t'.eofSubmitted = t.eofSubmitted

theorem Outgoing.SameWrite.trans {t t' t'' : Outgoing} (h₁ : t.SameWrite t')
    (h₂ : t'.SameWrite t'') : t.SameWrite t'' where
  active := h₂.active.trans h₁.active
  token := h₂.token.trans h₁.token
  base := h₂.base.trans h₁.base
  source := h₂.source.trans h₁.source
  isEof := h₂.isEof.trans h₁.isEof
  next := h₂.next.trans h₁.next
  eof := h₂.eof.trans h₁.eof

theorem Outgoing.sameWrite_carve (t : Outgoing) (mode : WriteMode) :
    t.SameWrite (t.carve mode) ∧ (t.carve mode).writeHandler = t.writeHandler ∧
      (t.carve mode).txSent = t.txSent := by
  unfold Outgoing.carve
  split <;> exact ⟨⟨rfl, rfl, rfl, rfl, rfl, rfl, rfl⟩, rfl, rfl⟩

end AnyHttp.Quic
