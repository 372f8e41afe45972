import AnyHttp.Quic.Equiv.Outgoing

/-!
# What a plain stream has to send

The scheduler looks at a stream only where something may have changed about what it has to send:
`on_writable()` says so, and so does ngtcp2.  Whatever else happens to a stream must therefore leave
it without anything to send that it did not have before (`Subsides`).

Of the body, that needs no more than the order of its positions, and that the chunks do not reach
beyond what is queued (`Ordered`).
-/

namespace AnyHttp.Quic

open Lib

variable {mode : WriteMode} {t t' t'' : Outgoing}

/-! ### The outgoing body -/

namespace Outgoing

/-- A plain stream hands its bytes to packets directly, and its chunks end where what is queued
ends, or before. -/
structure Ordered (mode : WriteMode) (t : Outgoing) : Prop where
  sent : t.txSent = t.txOffered
  queued : t.txOffered ≤ t.txQueued
  chunks : mode = .staged → ∀ c ∈ t.chunks, c.stop ≤ t.txQueued

/-- The vecs for what no packet has got yet. -/
def unsent (mode : WriteMode) (t : Outgoing) : List IoVec × Nat :=
  (t.carve mode).sourceVecs mode t.txSent 16

/-- `pending_data(tx_sent)` would return data, or a FIN that has not been handed over. -/
def hasMore (mode : WriteMode) (t : Outgoing) : Bool :=
  !((t.unsent mode).1.isEmpty && (!(t.carve mode).endsAt mode (t.unsent mode).2 || t.finOffered))

/-- A change that gives a stream nothing more to send. -/
structure Settles (t t' : Outgoing) : Prop where
  sent : t'.txSent = t.txSent
  offered : t'.txOffered = t.txOffered
  queued : t'.txQueued = t.txQueued
  chunks : t'.chunks ⊆ t.chunks
  more : ∀ mode, t'.hasMore mode = true → t.hasMore mode = true

namespace Settles

theorem refl (t : Outgoing) : t.Settles t := ⟨rfl, rfl, rfl, fun _ hc => hc, fun _ h => h⟩

/-- What settles a stream twice settles it. -/
theorem trans (h₁ : t.Settles t') (h₂ : t'.Settles t'') : t.Settles t'' where
  sent := h₂.sent.trans h₁.sent
  offered := h₂.offered.trans h₁.offered
  queued := h₂.queued.trans h₁.queued
  chunks := fun _ hc => h₁.chunks (h₂.chunks hc)
  more := fun mode h => h₁.more mode (h₂.more mode h)

end Settles

namespace Ordered

/-- A stream that has not sent anything is in order. -/
theorem init : ({} : Outgoing).Ordered mode := ⟨rfl, Nat.le_refl _, nofun⟩

/-- A change that gives it nothing more to send keeps it so, ... -/
theorem settles (h : t.Ordered mode) (ht : t.Settles t') : t'.Ordered mode where
  sent := ht.sent.trans (h.sent.trans ht.offered.symm)
  queued := ht.offered ▸ ht.queued ▸ h.queued
  chunks := fun hm c hc => ht.queued ▸ h.chunks hm c (ht.chunks hc)

/-- ... and so do a write that begins, ... -/
theorem begin (h : t.Ordered mode) (handler : Option Handler) (buffer : List UInt8) (eof : Bool) :
    (t.begin mode handler buffer eof).Ordered mode := by
  cases mode with
  | zeroCopy => exact ⟨h.sent, Nat.le_trans h.queued (Nat.le_add_right _ _), nofun⟩
  | staged => exact ⟨h.sent, h.queued, h.chunks⟩

/-- ... one that is cancelled, ... -/
theorem cancel (h : t.Ordered mode) : (t.cancel mode).Ordered mode := by
  cases mode with
  | zeroCopy => exact ⟨h.sent, Nat.le_refl _, nofun⟩
  | staged => exact ⟨h.sent, h.queued, h.chunks⟩

/-- ... and the chunks that are carved off the active write. -/
theorem carve (h : t.Ordered mode) : (t.carve mode).Ordered mode := by
  unfold Outgoing.carve
  split
  case isFalse => exact h
  case isTrue hcarve =>
    refine ⟨h.sent, Nat.le_trans h.queued (Nat.le_add_right _ _), fun hm c hc => ?_⟩
    rcases List.mem_append.mp hc with hc | hc
    · exact Nat.le_trans (h.chunks hm c hc) (Nat.le_add_right _ _)
    · rw [List.mem_singleton.mp hc]
      apply Nat.add_le_add_left
      rw [List.length_take]
      exact Nat.min_le_left _ _

/-- What has been carved off has to go out before the next slice is. -/
theorem carve_carve (h : t.Ordered mode) : (t.carve mode).carve mode = t.carve mode := by
  -- after a slice has been carved, there are bytes that are not in packets
  by_cases hcarve : mode = .staged ∧ t.writeActive = true ∧ t.txQueued ≤ t.txSent ∧
      t.writeCopied < t.writeSource.length
  · have hpos : 0 < min (t.writeSource.length - t.writeCopied) kWriteChunkSize :=
      Nat.lt_min.mpr ⟨Nat.sub_pos_of_lt hcarve.2.2.2, by decide⟩
    have hsent := h.sent
    have hqueued := h.queued
    generalize hcarved : t.carve mode = t'
    unfold Outgoing.carve at hcarved ⊢
    rw [if_pos hcarve] at hcarved
    rw [if_neg]
    rintro ⟨_, _, hle, _⟩
    rw [← hcarved] at hle
    dsimp only at hle
    omega
  · have hcarved : t.carve mode = t := if_neg hcarve
    rw [hcarved, hcarved]

end Ordered

/-! ### Chunks -/

/-- Chunks that end at `start` or before give no vecs. -/
theorem chunkVecs_of_le {start room stop : Nat} {cs : List Chunk}
    (h : ∀ c ∈ cs, c.stop ≤ start) : chunkVecs start room stop cs = ([], stop) := by
  induction cs with
  | nil => rfl
  | cons c cs ih =>
    rw [chunkVecs_skip (h c List.mem_cons_self)]
    exact ih fun d hd => h d (List.mem_cons_of_mem _ hd)

/-- There are vecs exactly if a chunk goes beyond `start`. -/
theorem chunkVecs_ne_nil_iff {start room stop : Nat} {cs : List Chunk} :
    (chunkVecs start (room + 1) stop cs).1 ≠ [] ↔ ∃ c ∈ cs, start < c.stop := by
  induction cs with
  | nil => simp [chunkVecs]
  | cons c cs ih =>
    by_cases hc : c.stop ≤ start
    · rw [chunkVecs_skip hc, ih]
      simp [Nat.not_lt.mpr hc]
    · rw [chunkVecs_succ hc]
      simp [Nat.lt_of_not_le hc]

/-! ### What there is to send -/

/-- A zero-copy stream has no chunks to carve. -/
theorem carve_zeroCopy (t : Outgoing) : t.carve .zeroCopy = t := if_neg fun h => nomatch h.1

/-- A zero-copy stream has vecs to send exactly if less has been sent of the active write than is
queued. -/
theorem unsent_zeroCopy : (t.unsent .zeroCopy).1 ≠ [] ↔
    t.writeActive = true ∧ t.txSent < t.txQueued := by
  unfold unsent sourceVecs
  rw [carve_zeroCopy]
  dsimp only
  split <;> simp [*]

/-- A staged stream has vecs to send exactly if one of its chunks goes beyond what has been sent. -/
theorem unsent_staged : (t.unsent .staged).1 ≠ [] ↔
    ∃ c ∈ (t.carve .staged).chunks, t.txSent < c.stop :=
  chunkVecs_ne_nil_iff

/-- Where there are no vecs, what there is to send ends where it starts. -/
theorem unsent_snd (h : (t.unsent mode).1 = []) : (t.unsent mode).2 = t.txSent := by
  -- without vecs, there is nothing behind what is sent
  cases mode with
  | zeroCopy =>
    unfold unsent sourceVecs at h ⊢
    dsimp only at h ⊢
    split at h
    · exact nomatch h
    · rename_i hnone
      rw [if_neg hnone]
  | staged =>
    have hnone : ∀ c ∈ (t.carve .staged).chunks, c.stop ≤ t.txSent := by
      intro c hc
      by_contra hlt
      exact unsent_staged.mpr ⟨c, hc, Nat.lt_of_not_le hlt⟩ h
    exact congrArg Prod.snd (chunkVecs_of_le hnone)

/-- There is more to send exactly if there are vecs, or a FIN that has not been offered. -/
theorem hasMore_iff : t.hasMore mode = true ↔ (t.unsent mode).1 ≠ [] ∨
    (t.carve mode).endsAt mode t.txSent = true ∧ t.finOffered = false := by
  unfold hasMore
  by_cases hnone : (t.unsent mode).1 = []
  · rw [unsent_snd hnone, hnone]
    simp
  · have hempty : (t.unsent mode).1.isEmpty = false := by
      rw [Bool.eq_false_iff, ne_eq, List.isEmpty_iff]
      exact hnone
    rw [hempty]
    simp [hnone]

/-- What is there to send is queued. -/
theorem lt_txQueued_of_unsent (h : t.Ordered mode) (hmore : (t.unsent mode).1 ≠ []) :
    t.txSent < (t.carve mode).txQueued := by
  cases mode with
  | zeroCopy =>
    rw [carve_zeroCopy]
    exact (unsent_zeroCopy.mp hmore).2
  | staged =>
    obtain ⟨c, hc, hlt⟩ := unsent_staged.mp hmore
    exact Nat.lt_of_lt_of_le hlt (h.carve.chunks rfl c hc)

/-- A change that leaves no chunk with more in it, and the end of the body where it is, or goes on
with nothing. -/
theorem hasMore_of_hasMore (h : t'.hasMore mode = true) (hsent : t'.txSent = t.txSent)
    (hfin : t'.finOffered = t.finOffered)
    (hvecs : (t'.unsent mode).1 ≠ [] → (t.unsent mode).1 ≠ [])
    (hends : (t'.carve mode).endsAt mode t.txSent = true →
      (t.carve mode).endsAt mode t.txSent = true) : t.hasMore mode = true := by
  rw [hasMore_iff] at h ⊢
  rw [hsent, hfin] at h
  exact h.imp hvecs fun hend => ⟨hends hend.1, hend.2⟩

/-- Without an active write, there is nothing to carve ... -/
theorem carve_of_idle (h : t.writeActive = false) : t.carve mode = t := by
  apply if_neg
  rintro ⟨_, hactive, _⟩
  cases h.symm.trans hactive

/-- ... and no FIN. -/
theorem endsAt_of_idle {stop : Nat} (h : t.writeActive = false) : t.endsAt mode stop = false := by
  rw [endsAt, h]
  rfl

/-- Carving drops no chunk. -/
theorem subset_chunks_carve (t : Outgoing) (mode : WriteMode) :
    t.chunks ⊆ (t.carve mode).chunks := by
  unfold carve
  split
  · exact List.subset_append_left _ _
  · exact fun _ hc => hc

/-- Without a write, only chunks are left to be sent. -/
theorem hasMore_of_idle (h : t'.hasMore mode = true) (hidle : t'.writeActive = false)
    (hsent : t'.txSent = t.txSent) (hfin : t'.finOffered = t.finOffered)
    (hchunks : t'.chunks ⊆ t.chunks) : t.hasMore mode = true := by
  apply hasMore_of_hasMore h hsent hfin
  · intro hvecs
    cases mode with
    | zeroCopy =>
      rw [unsent_zeroCopy, hidle] at hvecs
      cases hvecs.1
    | staged =>
      obtain ⟨c, hc, hlt⟩ := unsent_staged.mp hvecs
      rw [carve_of_idle hidle] at hc
      rw [hsent] at hlt
      exact unsent_staged.mpr ⟨c, subset_chunks_carve t .staged (hchunks hc), hlt⟩
  · intro hends
    rw [carve_of_idle hidle, endsAt_of_idle hidle] at hends
    cases hends

/-- What is acknowledged is not sent again, and nothing else is sent for that. -/
theorem hasMore_acked {stop : Nat} (h : (t.acked stop).hasMore mode = true) :
    t.hasMore mode = true := by
  apply hasMore_of_hasMore (t := t) h rfl rfl
  · intro hvecs
    cases mode with
    | zeroCopy => exact unsent_zeroCopy.mpr (unsent_zeroCopy.mp hvecs)
    | staged =>
      -- chunks that are acknowledged are dropped, which only takes vecs away
      obtain ⟨c, hc, hlt⟩ := unsent_staged.mp hvecs
      refine unsent_staged.mpr ⟨c, ?_, hlt⟩
      have hsub := (dropBelow_sublist stop t.chunks).subset
      unfold carve acked at hc
      unfold carve
      split at hc
      · rename_i hcarve
        rw [if_pos hcarve]
        rcases List.mem_append.mp hc with hc | hc
        · exact List.mem_append_left _ (hsub hc)
        · exact List.mem_append_right _ hc
      · rename_i hcarve
        rw [if_neg hcarve]
        exact hsub hc
  · intro hends
    unfold carve acked at hends
    unfold carve
    split at hends
    · rename_i hcarve
      rw [if_pos hcarve]
      exact hends
    · rename_i hcarve
      rw [if_neg hcarve]
      exact hends

/-- Who waits for a write makes no difference to what there is to send. -/
theorem hasMore_setHandler {handler : Option Handler} :
    { t with writeHandler := handler }.hasMore mode = t.hasMore mode := by
  unfold hasMore unsent carve
  dsimp only
  split <;> rfl

/-- What a write that is cancelled has in chunks already was there before. -/
theorem hasMore_cancel (h : (t.cancel mode).hasMore mode = true) : t.hasMore mode = true :=
  hasMore_of_idle h rfl rfl rfl fun _ hc => hc

namespace Settles

/-- So taking the handler away settles a stream. -/
theorem setHandler (t : Outgoing) (handler : Option Handler) :
    t.Settles { t with writeHandler := handler } :=
  ⟨rfl, rfl, rfl, fun _ hc => hc, fun _ h => hasMore_setHandler ▸ h⟩

/-- Once the active write is released, its FIN is not sent any more. -/
theorem release (t : Outgoing) : t.Settles t.release :=
  ⟨rfl, rfl, rfl, fun _ hc => hc, fun _ h => hasMore_of_idle h rfl rfl rfl fun _ hc => hc⟩

/-- An acknowledgement settles a stream. -/
theorem acked (t : Outgoing) (stop : Nat) : t.Settles (t.acked stop) :=
  ⟨rfl, rfl, rfl, (dropBelow_sublist _ _).subset, fun _ h => hasMore_acked h⟩

end Settles

end Outgoing

/-! ### A stream -/

namespace QuicStream

variable {q q' q'' : QuicStream}

/-- `next_stream_data()` would return this stream. -/
def hasMore (q : QuicStream) : Bool :=
  q.nextStreamData.1.hasStreamData q.nextStreamData.2.1 q.nextStreamData.2.2

/-- A stream whose sending side is over has nothing more to send, whatever is queued. -/
theorem hasMore_eq (q : QuicStream) :
    q.hasMore = (!q.sendingOver && q.tx.hasMore q.writeMode) := by
  unfold hasMore nextStreamData pendingData
  -- a stream that is over offers nothing
  by_cases hover : q.sendingOver = true
  · rw [if_pos (.inr hover), hover]
    rfl
  · have hfin : (q.tx.carve q.writeMode).finOffered = q.tx.finOffered := by
      unfold Outgoing.carve
      split <;> rfl
    rw [if_neg (by simpa using hover), eq_false_of_ne_true hover, hasStreamData, Outgoing.hasMore]
    dsimp only
    rw [hfin]
    rfl

/-- What to send next is told from what no packet has got yet, after carving. -/
theorem nextStreamData_open (h : q.sendingOver = false) :
    q.nextStreamData = ({ q with tx := q.tx.carve q.writeMode }, (q.tx.unsent q.writeMode).1,
      (q.tx.carve q.writeMode).endsAt q.writeMode (q.tx.unsent q.writeMode).2) := by
  unfold nextStreamData pendingData
  rw [if_neg (by simp [h])]
  rfl

/-- Once sending is over, asking changes nothing. -/
theorem nextStreamData_of_over (h : q.sendingOver = true) : q.nextStreamData.1 = q := by
  unfold nextStreamData pendingData
  rw [if_pos (.inr h)]

/-- Carving is all that asking for data does to a stream. -/
theorem nextStreamData_eq (q : QuicStream) :
    q.nextStreamData.1 = q ∧ q.sendingOver = true ∨
      q.nextStreamData.1 = { q with tx := q.tx.carve q.writeMode } ∧ q.sendingOver = false := by
  cases hover : q.sendingOver with
  | true => exact .inl ⟨nextStreamData_of_over hover, rfl⟩
  | false => exact .inr ⟨congrArg Prod.fst (nextStreamData_open hover), rfl⟩

/-- Asking keeps a stream in order ... -/
theorem ordered_nextStreamData (h : q.tx.Ordered q.writeMode) :
    q.nextStreamData.1.tx.Ordered q.nextStreamData.1.writeMode := by
  rcases q.nextStreamData_eq with ⟨heq, _⟩ | ⟨heq, _⟩
  · rwa [heq]
  · rw [heq]
    exact h.carve

/-- Whoever asks again gets the same answer. -/
theorem nextStreamData_again (h : q.tx.Ordered q.writeMode) :
    q.nextStreamData.1.nextStreamData = q.nextStreamData := by
  rcases q.nextStreamData_eq with ⟨heq, _⟩ | ⟨heq, hover⟩
  · rw [heq]
  · have hsent : (q.tx.carve q.writeMode).txSent = q.tx.txSent :=
      (Outgoing.sameWrite_carve q.tx q.writeMode).2.2
    have hagain := nextStreamData_open
      (q := { q with tx := q.tx.carve q.writeMode }) (show q.sendingOver = false from hover)
    dsimp only [Outgoing.unsent] at hagain
    rw [h.carve_carve, hsent] at hagain
    rw [heq, hagain, nextStreamData_open hover]
    rfl

/-- ... and does not change whether there is more to send. -/
theorem hasMore_nextStreamData (h : q.tx.Ordered q.writeMode) :
    q.nextStreamData.1.hasMore = q.hasMore := by
  unfold hasMore
  rw [nextStreamData_again h]

/-! ### What happens to it -/

/-- Nothing that a stream would have to report. -/
structure Subsides (q q' : QuicStream) : Prop where
  mode : q'.writeMode = q.writeMode
  sendingOver : q.sendingOver = true → q'.sendingOver = true
  tx : q.tx.Settles q'.tx

namespace Subsides

theorem refl (q : QuicStream) : q.Subsides q := ⟨rfl, id, .refl _⟩

theorem trans (h₁ : q.Subsides q') (h₂ : q'.Subsides q'') : q.Subsides q'' :=
  ⟨h₂.mode.trans h₁.mode, h₂.sendingOver ∘ h₁.sendingOver, h₁.tx.trans h₂.tx⟩

/-- A stream subsides if its outgoing body settles. -/
theorem setTx (q : QuicStream) {t : Outgoing} (h : q.tx.Settles t) :
    q.Subsides { q with tx := t } :=
  ⟨rfl, id, h⟩

theorem call (q : QuicStream) (c : Call) : q.Subsides (q.call c) := ⟨rfl, id, .refl _⟩

/-- Telling who waits gives a stream nothing to send. -/
theorem completeWrite (q : QuicStream) (h : Option Handler) (ec : ErrorCode) :
    q.Subsides (q.completeWrite h ec) := by
  cases h with
  | none => exact refl q
  | some h => exact call q _

theorem bindWriteCancellation (q : QuicStream) (h : Option Handler) (token : Nat) :
    q.Subsides (q.bindWriteCancellation h token) := by
  cases h with
  | none => exact refl q
  | some h => exact call q _

/-- Nor does the end of its sending side, ... -/
theorem setWriteAborted (q : QuicStream) : q.Subsides { q with writeAborted := true } :=
  ⟨rfl, fun _ => Bool.or_true _, .refl _⟩

/-- ... or of the stream. -/
theorem setClosed (q : QuicStream) : q.Subsides { q with closed := true } :=
  ⟨rfl, fun _ => Bool.true_or _, .refl _⟩

theorem maybeClose (q : QuicStream) : q.Subsides q.maybeClose := by
  unfold QuicStream.maybeClose
  split
  · exact refl q
  · exact call q _

/-- A reset ends the sending side. -/
theorem resetWriting (q : QuicStream) : q.Subsides q.resetWriting := by
  unfold QuicStream.resetWriting
  split
  · exact (call q _).trans (setWriteAborted _)
  · exact (call q _).trans (setClosed _)

/-- The active write is over. -/
theorem release (q : QuicStream) (ec : ErrorCode) :
    q.Subsides ({ q with tx := q.tx.release }.completeWrite q.tx.writeHandler ec) :=
  (setTx q (.release _)).trans (completeWrite _ _ _)

/-- So does the peer, when it does not want any more of the body. -/
theorem abortWriting (q : QuicStream) (ec : ErrorCode) : q.Subsides (q.abortWriting ec) := by
  have hover := setWriteAborted q
  unfold QuicStream.abortWriting
  dsimp only
  split
  · exact hover
  · exact hover.trans (release _ _)

theorem userReset (q : QuicStream) (code : Nat) : q.Subsides (q.userReset code) := by
  unfold QuicStream.userReset
  split
  · exact refl q
  · exact (call q _).trans (abortWriting _ _)

theorem failReading (q : QuicStream) (ec : ErrorCode) : q.Subsides (q.failReading ec) := by
  have hclosed := setClosed q
  unfold QuicStream.failReading
  dsimp only
  split
  · exact hclosed
  · exact hclosed.trans ⟨rfl, id, .refl _⟩

/-- `fail()` releases the active write after the stream has been closed. -/
theorem failWriting (q : QuicStream) (ec : ErrorCode) : q.Subsides (q.failWriting ec) := by
  unfold QuicStream.failWriting
  dsimp only
  split
  · exact (release _ _).trans (maybeClose _)
  · exact maybeClose q

/-- A writing adapter that is released leaves nothing to send behind, but a body that is ended. -/
theorem deleteWriter (q : QuicStream) : q.Subsides q.deleteWriter := by
  unfold QuicStream.deleteWriter
  dsimp only
  split
  · exact maybeClose q
  · split
    · exact maybeClose q
    · exact (resetWriting q).trans ((abortWriting _ _).trans (maybeClose _))

theorem deleteReader (q : QuicStream) : q.Subsides q.deleteReader := by
  have hclear : q.Subsides q.clearIncoming := ⟨rfl, id, .refl _⟩
  unfold QuicStream.deleteReader
  dsimp only
  split
  · exact hclear.trans ((call _ _).trans (maybeClose _))
  · exact hclear.trans (maybeClose _)

theorem onAcked (q : QuicStream) (stop : Nat) : q.Subsides (q.onAcked stop) := by
  unfold QuicStream.onAcked
  dsimp only
  split
  · exact refl q
  · have hacked := setTx q (.acked q.tx (min stop q.tx.txOffered))
    split
    · exact hacked.trans (release _ _)
    · exact hacked

end Subsides

/-- A write either begins, and is reported, or is nothing to be sent. -/
theorem startWrite_reports (q : QuicStream) (h : Option Handler) (buffer : List UInt8)
    (eof : Bool) :
    q.Subsides (q.startWrite h buffer eof) ∨
      (q.startWrite h buffer eof).tx = q.tx.begin q.writeMode h buffer eof ∧
        (q.startWrite h buffer eof).writeMode = q.writeMode ∧ q.sendingOver = false ∧
          .onWritable ∈ (q.startWrite h buffer eof).calls.drop q.calls.length := by
  unfold startWrite
  split
  · exact .inl (.completeWrite q h _)
  split
  · left
    split
    · exact .completeWrite q h _
    split
    · exact (Subsides.bindWriteCancellation q h _).trans (.setTx _ (.setHandler _ h))
    · exact .completeWrite q h _
  split
  · exact .inl (.completeWrite q h _)
  · rename_i hover
    refine .inr ⟨?_, ?_, eq_false_of_ne_true hover, ?_⟩
    · cases h <;> rfl
    · cases h <;> rfl
    · cases h with
      | none => simp [bindWriteCancellation, call]
      | some h => simp [bindWriteCancellation, call]

/-- The write with this token waits for its completion, and has data. -/
def Cancels (q : QuicStream) (token : Nat) : Prop :=
  q.tx.writeToken = token ∧ q.tx.writeHandler ≠ none ∧
    ¬(q.tx.writeIsEof = true ∧ q.tx.writeSource = [])

instance (q : QuicStream) (token : Nat) : Decidable (q.Cancels token) := inferInstanceAs
  (Decidable (_ ∧ _ ∧ _))

/-- A write is let go of by a reset, if at all. -/
theorem Subsides.letGo (q : QuicStream) : q.Subsides q.letGo := by
  unfold QuicStream.letGo
  split
  · exact .resetWriting q
  · exact .refl q

/-- A cancellation that finds no write with data under its token gives the stream nothing
to send. -/
theorem cancelWrite_of_not_cancels {token : Nat} (h : ¬q.Cancels token) :
    q.Subsides (q.cancelWrite token) := by
  unfold cancelWrite
  split
  · exact .refl q
  · rename_i hwaits
    rw [not_or, not_not] at hwaits
    split
    · exact (Subsides.setTx q (.setHandler _ none)).trans (.completeWrite _ _ _)
    · rename_i hdata
      exact absurd ⟨hwaits.1, hwaits.2, hdata⟩ h

/-- What is left of a write that is cancelled. -/
theorem cancelWrite_of_cancels {token : Nat} (h : q.Cancels token) :
    (q.cancelWrite token).tx = q.tx.cancel q.writeMode ∧
      (q.cancelWrite token).writeMode = q.writeMode ∧
        (q.cancelWrite token).sendingOver = q.letGo.sendingOver := by
  have hmode := (Subsides.letGo q).mode
  unfold cancelWrite
  rw [if_neg (by simpa using ⟨h.1, h.2.1⟩), if_neg h.2.2]
  cases q.tx.writeHandler with
  | none => exact ⟨rfl, hmode, rfl⟩
  | some h => exact ⟨rfl, hmode, rfl⟩

/-- Only a stream that has to be reset to get the buffer back is. -/
theorem letGo_sendingOver (h : q.letGo.sendingOver = false) :
    q.sendingOver = false ∧ (q.writeMode = .zeroCopy → q.tx.txOffered ≤ q.tx.txAcked) := by
  unfold letGo at h
  split at h
  · unfold resetWriting at h
    split at h
    · exact nomatch (Bool.or_true _).symm.trans h
    · exact nomatch (Bool.true_or _).symm.trans h
  · rename_i hkeep
    refine ⟨h, fun hmode => ?_⟩
    by_contra hlt
    exact hkeep ⟨hmode, Nat.lt_of_not_le hlt, h⟩

theorem onOffered_subsides (q : QuicStream) (stop : Nat) (fin : Bool) :
    Subsides { q with tx := q.tx.offered stop fin } (q.onOffered stop fin) := by
  unfold onOffered
  dsimp only
  split
  · exact .release _ _
  · exact .refl _

theorem onSent_subsides {stop : Nat} (h : ¬stop ≤ q.tx.txSent) :
    Subsides { q with tx := q.tx.sent stop } (q.onSent stop) := by
  unfold onSent
  rw [if_neg h]
  dsimp only
  split_ifs
  · exact .refl _
  · exact .refl _
  · exact .release _ _
  · exact .call _ _

/-- ngtcp2 has put more of the body into a packet. -/
theorem onStreamDataWritten_spec (h : q.tx.Ordered q.writeMode) (n : Nat) (fin : Bool) :
    (q.onStreamDataWritten n fin).writeMode = q.writeMode ∧
      (q.onStreamDataWritten n fin).tx.Ordered q.writeMode := by
  obtain ⟨hsent, hqueued, hchunks⟩ := h
  obtain ⟨hmode, _, htx⟩ := onOffered_subsides q (q.tx.txSent + n) fin
  unfold onStreamDataWritten
  dsimp only
  generalize q.onOffered (q.tx.txSent + n) fin = q' at hmode htx
  have hsent' : q'.tx.txSent = q.tx.txSent := htx.sent
  have hoff : q'.tx.txOffered = max q.tx.txOffered (min (q.tx.txSent + n) q.tx.txQueued) :=
    htx.offered
  have hq : q'.tx.txQueued = q.tx.txQueued := htx.queued
  have hchunks' : q.writeMode = .staged → ∀ c ∈ q'.tx.chunks, c.stop ≤ q'.tx.txQueued :=
    fun hm c hc => hq ▸ hchunks hm c (htx.chunks hc)
  -- nothing of it was new to the stream
  by_cases hle : q'.tx.txSent + n ≤ q'.tx.txSent
  · rw [onSent, if_pos hle]
    exact ⟨hmode, by omega, by omega, hchunks'⟩
  · obtain ⟨hmode', _, htx'⟩ := onSent_subsides hle
    have hordered : (q'.tx.sent (q'.tx.txSent + n)).Ordered q.writeMode := by
      refine ⟨?_, ?_, hchunks'⟩
      · show min (q'.tx.txSent + n) q'.tx.txOffered = q'.tx.txOffered
        omega
      · show q'.tx.txOffered ≤ q'.tx.txQueued
        omega
    exact ⟨hmode'.trans hmode, hordered.settles htx'⟩

end QuicStream

end AnyHttp.Quic
