import AnyHttp.H1.Equiv.Stream

/-!
# The end of an HTTP/1.1 client session is orderly

`shutdown()` waits for what is in progress when it has let go of the readers and writers, and they
begin nothing after that; so nothing is in progress when the wait is over (`Awaited`), unless it has
been cancelled.

* `shutdown_orderly_iff`: the shutdown is orderly, whatever else happens, exactly if nothing is in
  progress any more whenever it goes on after its wait has been cancelled.
* `shutdown_overlaps_read`: which it does not look at.
-/

namespace AnyHttp.H1

open Lib

variable {P : Type*} {Γ : Client.Context P} {throws : Bool}

namespace StreamOps

/-! ### The event that `shutdown()` waits for -/

variable {o : StreamOps}

/-- Nobody waits for it. -/
def Asleep (o : StreamOps) : Prop := o.idle.waiting = false ∧ o.idle.woken = none

/-- Somebody waits for it, and it is still to come, or the wait is over. -/
def Awaited (o : StreamOps) (cancelled : Bool) : Prop :=
  o.idle.waiting = true ∧ o.idle.isSet = false ∧ o.idle.woken = none ∧ 0 < o.pending ∨
    o.idle.waiting = false ∧ ∃ ec, o.idle.woken = some ec ∧
      (ec = .success → o.pending = 0) ∧ (ec ≠ .success → ec = .canceled ∧ cancelled = true)

theorem Asleep.apply (ho : o.Asleep) (e : StreamEvent) : (o.apply e).Asleep := by
  have hset : o.idle.set.waiting = false ∧ o.idle.set.woken = none := by
    refine ⟨Event.set_waiting _, ?_⟩
    rw [Event.set_woken, ho.1, if_neg (by decide), ho.2]
  cases e with
  | readOver | writeOver ec =>
    simp only [StreamOps.apply, finish, Asleep]
    split_ifs
    · exact hset
    · exact ho
  | begins write => exact ho
  | cut | detached | ended notify pending => exact ho

theorem Asleep.applyAll (ho : o.Asleep) (es : List StreamEvent) :
    (es.foldl StreamOps.apply o).Asleep := by
  induction es generalizing o with
  | nil => exact ho
  | cons e es ih => exact ih (ho.apply e)

theorem Awaited.finish {cancelled : Bool} (ho : o.Awaited cancelled) (write : Bool) :
    (o.finish write).Awaited cancelled := by
  rcases ho with ⟨hwaiting, hclear, hwoken, hpending⟩ | ⟨hwaiting, ec, hwoken, hdone, hcancel⟩
  · by_cases hlast : o.pending - 1 = 0
    · refine .inr ⟨?_, .success, ?_, fun _ => hlast, fun h => absurd rfl h⟩
      · rw [StreamOps.finish, if_pos hlast, Event.set_waiting]
      · rw [StreamOps.finish, if_pos hlast, Event.set_woken, if_pos hwaiting]
    · rw [StreamOps.finish, if_neg hlast]
      exact .inl ⟨hwaiting, hclear, hwoken, Nat.pos_of_ne_zero hlast⟩
  · have hidle : (o.finish write).idle.waiting = false ∧ (o.finish write).idle.woken = some ec := by
      simp only [StreamOps.finish]
      split_ifs
      · refine ⟨Event.set_waiting _, ?_⟩
        rw [Event.set_woken, hwaiting, if_neg (by decide), hwoken]
      · exact ⟨hwaiting, hwoken⟩
    refine .inr ⟨hidle.1, ec, hidle.2, fun hec => ?_, hcancel⟩
    rw [StreamOps.finish, hdone hec]

theorem Awaited.applyAll {cancelled : Bool} (ho : o.Awaited cancelled) {es : List StreamEvent}
    (hes : ∀ e ∈ es, ¬ e.touches = true) : (es.foldl StreamOps.apply o).Awaited cancelled := by
  induction es generalizing o with
  | nil => exact ho
  | cons e es ih =>
    refine ih ?_ fun e' he' => hes e' (List.mem_cons_of_mem _ he')
    cases e with
    | begins write => exact absurd rfl (hes _ List.mem_cons_self)
    | readOver => exact ho.finish false
    | writeOver ec => exact ho.finish true
    | cut | detached | ended notify pending => exact ho

/-- The coroutine that waits is cancelled. -/
theorem Awaited.cancel {cancelled : Bool} (ho : o.Awaited cancelled) :
    Awaited { o with idle := o.idle.cancel } true := by
  rcases ho with ⟨hwaiting, _, _, _⟩ | ⟨hwaiting, ec, hwoken, hdone, hcancel⟩
  · refine .inr ⟨Event.cancel_waiting _, .canceled, ?_, ?_, fun _ => ⟨rfl, rfl⟩⟩
    · change o.idle.cancel.woken = _
      rw [Event.cancel, if_pos hwaiting]
      rfl
    · intro h
      exact nomatch h
  · refine .inr ⟨Event.cancel_waiting _, ec, ?_, hdone, fun h => ⟨(hcancel h).1, rfl⟩⟩
    change o.idle.cancel.woken = _
    rw [Event.cancel, hwaiting, if_neg (by decide), hwoken]

theorem Asleep.cancel (ho : o.Asleep) : Asleep { o with idle := o.idle.cancel } := by
  have hsame : o.idle.cancel = o.idle := by rw [Event.cancel, ho.1, if_neg (by decide)]
  rw [hsame]
  exact ho

/-- Writes that do not begin do not become more. -/
theorem writes_applyAll_le {es : List StreamEvent} (hes : ∀ e ∈ es, ¬ e.touches = true) :
    (es.foldl StreamOps.apply o).writes ≤ o.writes := by
  induction es generalizing o with
  | nil => exact le_rfl
  | cons e es ih =>
    refine (ih fun e' he' => hes e' (List.mem_cons_of_mem _ he')).trans ?_
    cases e with
    | begins write => exact absurd rfl (hes _ List.mem_cons_self)
    | readOver | writeOver ec => exact Nat.sub_le _ _
    | cut | detached | ended notify pending => exact le_rfl

end StreamOps

namespace ClientSession

variable {s t : ClientSession P} {a : Action}

/-- Nothing touches the stream any more once the readers and writers have been detached. -/
def Quiet (log : List StreamEvent) : Prop :=
  log.Pairwise fun e e' => e = .detached → ¬ e'.touches = true

/-- If `shutdown()` goes on although its wait has been cancelled, nothing is in progress. -/
def Settled (throws : Bool) (s : ClientSession P) : Action → Prop
  | .resume => throws = false → s.ops.idle.woken = some .canceled → s.ops.pending = 0
  | _ => True

instance (throws : Bool) (s : ClientSession P) : ∀ a, Decidable (Settled throws s a)
  | .resume => inferInstanceAs (Decidable (_ → _ → _))
  | .session _ | .round _ | .shutdown | .cancel => inferInstanceAs (Decidable True)

/-- Nothing was in progress when the connection was ended. -/
def Calm (s : ClientSession P) : Prop := ∀ notify n, .ended notify n ∈ s.log → n = 0

structure Orderly (s : ClientSession P) : Prop where
  /-- `end_connection()` is started only with nothing in progress. -/
  calm : Calm s
  /-- What is in progress is counted. -/
  counts : s.client.Counts s.ops
  writes : s.ops.writes ≤ s.ops.pending
  quiet : Quiet s.log
  /-- `close_notify` is sent only after writes that have all succeeded. -/
  notify : ∀ n, .ended true n ∈ s.log → ∀ ec, .writeOver ec ∈ s.log → ec = .success
  /-- What `shutdown()` waits for is still to come. -/
  idle : ∀ intact, s.phase = .waiting intact → s.ops.idle.woken = none →
    0 < s.ops.pending ∧ s.ops.idle.isSet = false

/-! ### Invariants -/

structure Inv (Γ : Client.Context P) (s : ClientSession P) : Prop where
  sending : Client.Sending Γ s.client
  standing : s.client.Standing
  counts : s.client.Counts s.ops
  notYet : s.phase = .notYet ↔ s.client.shuttingDown = false
  begun : s.phase = .notYet → .detached ∉ s.log
  quiet : Quiet s.log
  failed : s.phase = .notYet → s.client.alive = true → ∀ ec, .writeOver ec ∈ s.log →
    ec ≠ .success → s.client.sendFailed = true
  intact : s.phase = .waiting true ∨ s.phase = .ended true →
    s.ops.writes = 0 ∧ ∀ ec, .writeOver ec ∈ s.log → ec = .success
  ended : ∀ notify n, .ended notify n ∈ s.log → s.phase = .ended notify
  waiting : ∀ intact, s.phase = .waiting intact → s.ops.Awaited s.cancelled
  asleep : (∀ intact, s.phase ≠ .waiting intact) → s.ops.Asleep

theorem inv_init : Inv Γ ({} : ClientSession P) where
  sending := Client.sending_init
  standing := Client.standing_init
  counts := ⟨rfl, rfl⟩
  notYet := by simp
  begun := by simp
  quiet := List.Pairwise.nil
  failed := by simp
  intact := by simp
  ended := by simp
  waiting := by simp
  asleep := fun _ => ⟨rfl, rfl⟩

theorem quiet_append {log es : List StreamEvent} (hlog : Quiet log) (hes : .detached ∉ es)
    (htouch : .detached ∈ log → ∀ e ∈ es, ¬ e.touches = true) : Quiet (log ++ es) := by
  refine List.pairwise_append.mpr ⟨hlog, ?_, ?_⟩
  · refine List.pairwise_of_forall_mem_list fun e he _ _ hd => ?_
    exact absurd (hd ▸ he) hes
  · intro e he e' he' hd
    exact htouch (hd ▸ he) e' he'

/-- A step of the session, its readers and writers. -/
theorem Inv.record (hs : Inv Γ s) {c : Client P} {es : List StreamEvent}
    (hsending : Client.Sending Γ c) (he : Client.Effect s.client c es)
    (hsteady : Client.Steady s.client c) : Inv Γ ({ s with client := c }.record es) := by
  have hshut : s.phase ≠ .notYet → s.client.shuttingDown = true := by
    intro h
    by_contra hn
    exact h (hs.notYet.mpr (by simpa using hn))
  have htouch : s.phase ≠ .notYet → ∀ e ∈ es, ¬ e.touches = true := fun h =>
    (he.letGo (hs.standing.letGo (hshut h)) (hs.standing.failed (hshut h))).2
  constructor
  · exact hsending
  · exact hs.standing.step he hsteady
  · exact he.counts hs.standing.asked hs.counts
  · exact hs.notYet.trans (by rw [← hsteady.shuttingDown]; rfl)
  · intro h hd
    rcases List.mem_append.mp hd with hd | hd
    · exact hs.begun h hd
    · exact (he.plain _ hd).1 rfl
  · refine quiet_append hs.quiet (fun hd => (he.plain _ hd).1 rfl) fun hd => htouch fun h => ?_
    exact hs.begun h hd
  · intro h halive ec hec hne
    rcases List.mem_append.mp hec with hec | hec
    · exact hsteady.sendFailed (hs.failed h (hsteady.alive halive) ec hec hne)
    · obtain ⟨x, hx, _, hfailed⟩ := he.of_writeOver hec
      exact hfailed (hs.standing.attached (hsteady.alive halive) (hs.notYet.mp h) x hx) hne
  · intro h
    obtain ⟨hwrites, hall⟩ := hs.intact h
    have hphase : s.phase ≠ .notYet := by
      rintro hn
      rcases h with h | h
      · exact nomatch hn.symm.trans h
      · exact nomatch hn.symm.trans h
    refine ⟨Nat.le_zero.mp ((StreamOps.writes_applyAll_le (htouch hphase)).trans hwrites.le), ?_⟩
    intro ec hec
    rcases List.mem_append.mp hec with hec | hec
    · exact hall ec hec
    · obtain ⟨x, hx, hbusy, _⟩ := he.of_writeOver hec
      have hnone : s.client.writeSlots.countP Client.WriteSlot.writing = 0 := by
        rw [← Client.writing_eq, ← hs.counts.1, hwrites]
      exact absurd hbusy (List.countP_eq_zero.mp hnone x hx)
  · intro notify n h
    rcases List.mem_append.mp h with h | h
    · exact hs.ended notify n h
    · exact absurd rfl ((he.plain _ h).2 notify n)
  · intro intact h
    refine (hs.waiting intact h).applyAll (htouch fun hn => ?_)
    exact nomatch hn.symm.trans h
  · exact fun h => (hs.asleep h).applyAll es

/-- A read that starts over is one of an attached reader. -/
theorem Inv.round (hs : Inv Γ s) {i : Nat} {r : Client.Reader P}
    (hr : s.client.readers[i]? = some r) (hreading : r.reading = true)
    (hattached : r.attached = true) : Inv Γ (s.record [.readOver, .begins false]) := by
  have hopen : s.client.shuttingDown = false := by
    by_contra hshut
    have hgone := (hs.standing.letGo (by simpa using hshut)).2 r.slot
      (List.mem_map_of_mem (List.mem_of_getElem? hr))
    exact absurd (hattached.symm.trans hgone) (by decide)
  have hphase := hs.notYet.mpr hopen
  have hpos : 0 < s.client.reading :=
    List.countP_pos_iff.mpr ⟨r, List.mem_of_getElem? hr, hreading⟩
  obtain ⟨hwrites, hpending⟩ := hs.counts
  constructor
  · exact hs.sending
  · exact hs.standing
  · constructor
    · exact hwrites
    · change s.ops.pending - 1 + 1 = s.client.writing + s.client.reading
      omega
  · exact hs.notYet
  · intro h hd
    rcases List.mem_append.mp hd with hd | hd
    · exact hs.begun h hd
    · simp at hd
  · exact quiet_append hs.quiet (by simp) fun hd => absurd hd (hs.begun hphase)
  · intro h halive ec hec
    -- a round of reading reports no error
    rcases List.mem_append.mp hec with hec | hec
    · exact hs.failed h halive ec hec
    · simp at hec
  · rintro (h | h)
    · exact nomatch hphase.symm.trans h
    · exact nomatch hphase.symm.trans h
  · intro notify n h
    rcases List.mem_append.mp h with h | h
    · exact hs.ended notify n h
    · simp at h
  · intro intact h
    exact nomatch hphase.symm.trans h
  · exact fun h => (hs.asleep h).applyAll _

/-- The readers and writers have been detached, and the connection is to be ended. -/
structure Closing (Γ : Client.Context P) (s : ClientSession P) (intact : Bool) : Prop where
  sending : Client.Sending Γ s.client
  standing : s.client.Standing
  counts : s.client.Counts s.ops
  shuttingDown : s.client.shuttingDown = true
  quiet : Quiet s.log
  unended : ∀ notify n, .ended notify n ∉ s.log
  intact : intact = true → s.ops.writes = 0 ∧ ∀ ec, .writeOver ec ∈ s.log → ec = .success

theorem Inv.closing (hs : Inv Γ s) {intact : Bool} (h : s.phase = .waiting intact) :
    Closing Γ s intact where
  sending := hs.sending
  standing := hs.standing
  counts := hs.counts
  shuttingDown := by
    by_contra hn
    exact nomatch (hs.notYet.mpr (by simpa using hn)).symm.trans h
  quiet := hs.quiet
  unended notify n hended := nomatch (hs.ended notify n hended).symm.trans h
  intact hintact := hs.intact (.inl (hintact ▸ h))

theorem Closing.leave {intact : Bool} (hs : Closing Γ s intact) (hasleep : s.ops.Asleep) :
    Inv Γ { s with phase := .left } where
  sending := hs.sending
  standing := hs.standing
  counts := hs.counts
  notYet := by simp [hs.shuttingDown]
  begun := by simp
  quiet := hs.quiet
  failed := by simp
  intact := by simp
  ended notify n h := absurd h (hs.unended notify n)
  waiting := by simp
  asleep _ := hasleep

theorem Closing.endConnection {intact : Bool} (hs : Closing Γ s intact)
    (hasleep : s.ops.Asleep) : Inv Γ (s.endConnection throws intact) := by
  unfold ClientSession.endConnection
  split_ifs
  · exact hs.leave hasleep
  constructor
  · exact hs.sending
  · exact hs.standing
  · exact hs.counts
  · simp [hs.shuttingDown]
  · simp
  · exact quiet_append hs.quiet (by simp) (by simp [StreamEvent.touches])
  · simp
  · rintro (h | h)
    · cases h
    · obtain ⟨hwrites, hall⟩ := hs.intact (Progress.ended.inj h)
      refine ⟨hwrites, fun ec hec => ?_⟩
      rcases List.mem_append.mp hec with hec | hec
      · exact hall ec hec
      · simp at hec
  · intro notify n h
    -- what goes out last is what `end_connection()` sends
    rcases List.mem_append.mp h with h | h
    · exact absurd h (hs.unended notify n)
    · simp only [List.mem_singleton, StreamEvent.ended.injEq] at h
      rw [h.1]
  · simp
  · exact fun _ => hasleep

/-- What has nothing to do with the event. -/
theorem Closing.of_idle {intact : Bool} (hs : Closing Γ s intact) (e : Event) :
    Closing Γ { s with ops.idle := e } intact where
  sending := hs.sending
  standing := hs.standing
  counts := hs.counts
  shuttingDown := hs.shuttingDown
  quiet := hs.quiet
  unended := hs.unended
  intact := hs.intact

theorem Closing.await {intact : Bool} (hs : Closing Γ s intact)
    (hawaited : s.ops.Awaited s.cancelled) : Inv Γ { s with phase := .waiting intact } where
  sending := hs.sending
  standing := hs.standing
  counts := hs.counts
  notYet := by simp [hs.shuttingDown]
  begun := by simp
  quiet := hs.quiet
  failed := by simp
  intact h := by
    rcases h with h | h
    · exact hs.intact (Progress.waiting.inj h)
    · exact nomatch h
  ended notify n h := absurd h (hs.unended notify n)
  waiting _ _ := hawaited
  asleep h := absurd rfl (h intact)

theorem Closing.waitIdle {intact : Bool} (hs : Closing Γ s intact) (hasleep : s.ops.Asleep)
    (hclear : s.ops.idle.isSet = false) (hpending : 0 < s.ops.pending) :
    Inv Γ (s.waitIdle throws intact) := by
  have hawaited : StreamOps.Awaited { s.ops with idle := s.ops.idle.wait } s.cancelled :=
    .inl ⟨rfl, hclear, hasleep.2, hpending⟩
  unfold ClientSession.waitIdle
  split_ifs with hleft hcancelled
  · exact hs.leave hasleep
  · have hcancel := hawaited.cancel
    rw [← hcancelled] at hcancel
    exact (hs.of_idle _).await hcancel
  · exact (hs.of_idle _).await hawaited

/-- The readers and writers have been detached. -/
def letGo (s : ClientSession P) : ClientSession P :=
  { s with client := s.client.shutdown }.record [.detached]

/-- Nothing that has been written so far is incomplete. -/
def isIntact (s : ClientSession P) : Bool := !s.client.sendFailed && s.ops.writes == 0

theorem shutdown_of_idle (hopen : s.client.shuttingDown = false) (hidle : s.ops.pending = 0) :
    s.shutdown throws = s.letGo.endConnection throws s.isIntact := by
  rw [ClientSession.shutdown, if_neg (by simp [hopen])]
  exact if_neg (not_not.mpr hidle)

theorem shutdown_of_busy (hopen : s.client.shuttingDown = false) (hbusy : s.ops.pending ≠ 0) :
    s.shutdown throws =
      { s.letGo with ops.idle := s.ops.idle.clear }.waitIdle throws s.isIntact := by
  rw [ClientSession.shutdown, if_neg (by simp [hopen])]
  exact if_pos hbusy

theorem Inv.letGo (hs : Inv Γ s) (halive : s.client.alive = true)
    (hopen : s.client.shuttingDown = false) : Closing Γ s.letGo s.isIntact := by
  have hphase := hs.notYet.mpr hopen
  constructor
  · exact hs.sending.step (a := .shutdown) (if_pos halive)
  · exact hs.standing.shutdown hopen
  · exact hs.counts.shutdown
  · change s.client.shutdown.shuttingDown = true
    rw [Client.shutdown, if_neg (by simp [hopen])]
  · refine List.pairwise_append.mpr ⟨hs.quiet, List.pairwise_singleton _ _, ?_⟩
    intro e _ e' he' _
    rw [List.mem_singleton.mp he']
    simp [StreamEvent.touches]
  · intro notify n h
    rcases List.mem_append.mp h with h | h
    · cases hphase.symm.trans (hs.ended notify n h)
    · simp at h
  · intro hintact
    simp only [isIntact, Bool.and_eq_true, Bool.not_eq_true', beq_iff_eq] at hintact
    refine ⟨hintact.2, fun ec hec => ?_⟩
    rcases List.mem_append.mp hec with hec | hec
    · by_contra hne
      have hfailed := hs.failed hphase halive ec hec hne
      exact absurd (hintact.1.symm.trans hfailed) (by decide)
    · simp at hec

theorem Inv.shutdown (hs : Inv Γ s) (halive : s.client.alive = true) :
    Inv Γ (s.shutdown throws) := by
  by_cases hshut : s.client.shuttingDown = true
  · rw [ClientSession.shutdown, if_pos hshut]
    exact hs
  have hopen : s.client.shuttingDown = false := by simpa using hshut
  have hclosing := hs.letGo halive hopen
  have hasleep : s.ops.Asleep :=
    hs.asleep fun intact h => nomatch (hs.notYet.mpr hopen).symm.trans h
  by_cases hidle : s.ops.pending = 0
  · rw [shutdown_of_idle hopen hidle]
    exact hclosing.endConnection hasleep
  · rw [shutdown_of_busy hopen hidle]
    exact (hclosing.of_idle _).waitIdle hasleep rfl (Nat.pos_of_ne_zero hidle)

theorem resume_eq_some (h : s.resume throws = some t) :
    ∃ intact ec, s.phase = .waiting intact ∧ s.ops.idle.woken = some ec ∧
      t = { s with ops.idle.woken := none }.endConnection throws intact := by
  unfold ClientSession.resume at h
  split at h
  · rename_i intact hphase
    obtain ⟨ec, hec, h⟩ := Option.map_eq_some_iff.mp h
    exact ⟨intact, ec, hphase, hec, h.symm⟩
  · exact nomatch h

theorem Inv.step (hs : Inv Γ s) (h : step Γ throws s a = some t) : Inv Γ t := by
  cases a with
  | session a =>
    obtain ⟨hpossible, h⟩ := Option.ite_none_right_eq_some.mp h
    obtain ⟨c, hc, rfl⟩ := Option.map_eq_some_iff.mp h
    have ha : a ≠ .shutdown := by
      rintro rfl
      exact nomatch hpossible
    obtain ⟨heffect, hsteady⟩ := Client.step_effect hs.sending ha hc
    exact hs.record (hs.sending.step hc) heffect hsteady
  | round i =>
    obtain ⟨r, hr, h⟩ := Option.bind_eq_some_iff.mp h
    obtain ⟨hc, h⟩ := Option.ite_none_right_eq_some.mp h
    simp only [Bool.and_eq_true] at hc
    rw [← Option.some.inj h]
    exact hs.round hr hc.1.1.2 hc.1.2
  | shutdown =>
    obtain ⟨halive, h⟩ := Option.ite_none_right_eq_some.mp h
    rw [← Option.some.inj h]
    exact hs.shutdown halive
  | cancel =>
    rw [← Option.some.inj h]
    exact ⟨hs.sending, hs.standing, hs.counts, hs.notYet, hs.begun, hs.quiet, hs.failed, hs.intact,
      hs.ended, fun intact h => (hs.waiting intact h).cancel, fun h => (hs.asleep h).cancel⟩
  | resume =>
    obtain ⟨intact, ec, hphase, hec, rfl⟩ := resume_eq_some h
    refine ((hs.closing hphase).of_idle _).endConnection ⟨?_, rfl⟩
    rcases hs.waiting intact hphase with ⟨_, _, hnone, _⟩ | ⟨hwaiting, _⟩
    · exact absurd (hec.symm.trans hnone) (by simp)
    · exact hwaiting

/-! ### The connection is ended with nothing in progress -/

theorem calm_append {log : List StreamEvent} (es : List StreamEvent)
    (h : ∀ notify n, .ended notify n ∈ es → n = 0) :
    (∀ notify n, .ended notify n ∈ log ++ es → n = 0) ↔
      ∀ notify n, .ended notify n ∈ log → n = 0 := by
  constructor
  · exact fun hall notify n hn => hall notify n (List.mem_append_left _ hn)
  · intro hall notify n hn
    rcases List.mem_append.mp hn with hn | hn
    · exact hall notify n hn
    · exact h notify n hn

/-- The connection is ended with what is in progress then. -/
theorem calm_endConnection (intact : Bool) (hleft : ¬ (throws && s.cancelled) = true) :
    Calm (s.endConnection throws intact) ↔ Calm s ∧ s.ops.pending = 0 := by
  rw [ClientSession.endConnection, if_neg hleft]
  constructor
  · intro h
    refine ⟨fun notify n hn => h notify n (List.mem_append_left _ hn), ?_⟩
    exact h intact _ (List.mem_append_right _ (List.mem_singleton.mpr rfl))
  · rintro ⟨h, hzero⟩
    refine (calm_append [.ended intact s.ops.pending] fun notify n hn => ?_).mpr h
    simp only [List.mem_singleton, StreamEvent.ended.injEq] at hn
    rw [hn.2, hzero]

theorem calm_endConnection_of_idle (intact : Bool) (hidle : s.ops.pending = 0) :
    Calm (s.endConnection throws intact) ↔ Calm s := by
  by_cases hleft : (throws && s.cancelled) = true
  · rw [ClientSession.endConnection, if_pos hleft]
    exact Iff.rfl
  · exact (calm_endConnection intact hleft).trans (and_iff_left hidle)

theorem calm_waitIdle (intact : Bool) : Calm (s.waitIdle throws intact) ↔ Calm s := by
  unfold ClientSession.waitIdle
  split_ifs <;> exact Iff.rfl

theorem calm_shutdown : Calm (s.shutdown throws) ↔ Calm s := by
  by_cases hshut : s.client.shuttingDown = true
  · rw [ClientSession.shutdown, if_pos hshut]
  have hopen : s.client.shuttingDown = false := by simpa using hshut
  have hletGo : Calm s.letGo ↔ Calm s := calm_append _ (by simp)
  by_cases hidle : s.ops.pending = 0
  · rw [shutdown_of_idle hopen hidle, ← hletGo]
    exact calm_endConnection_of_idle _ hidle
  · rw [shutdown_of_busy hopen hidle, ← hletGo]
    exact calm_waitIdle _

/-- Only a wait that has been cancelled can leave something in progress. -/
theorem calm_resume (hs : Inv Γ s) (h : s.resume throws = some t) :
    Calm t ↔ Calm s ∧ Settled throws s .resume := by
  obtain ⟨intact, ec, hphase, hec, rfl⟩ := resume_eq_some h
  rcases hs.waiting intact hphase with ⟨_, _, hnone, _⟩ | ⟨_, ec', hec', hdone, hcancel⟩
  · exact absurd (hec.symm.trans hnone) (by simp)
  have hsame : ec' = ec := Option.some.inj (hec'.symm.trans hec)
  subst hsame
  by_cases hleft : (throws && s.cancelled) = true
  · rw [ClientSession.endConnection, if_pos hleft]
    refine (and_iff_left fun hn => ?_).symm
    simp [hn] at hleft
  · refine (calm_endConnection (s := { s with ops.idle.woken := none }) intact hleft).trans
      (and_congr_right fun _ => ?_)
    constructor
    · exact fun hzero _ _ => hzero
    · intro hsettled
      by_cases hsuccess : ec' = .success
      · exact hdone hsuccess
      · obtain ⟨rfl, hcancelled⟩ := hcancel hsuccess
        exact hsettled (by simpa [hcancelled] using hleft) hec

theorem calm_step (hs : Inv Γ s) (h : step Γ throws s a = some t) :
    Calm t ↔ Calm s ∧ Settled throws s a := by
  cases a with
  | session a =>
    obtain ⟨hpossible, h⟩ := Option.ite_none_right_eq_some.mp h
    obtain ⟨c, hc, rfl⟩ := Option.map_eq_some_iff.mp h
    have ha : a ≠ .shutdown := by
      rintro rfl
      exact nomatch hpossible
    have heffect := (Client.step_effect hs.sending ha hc).1
    refine (calm_append _ fun notify n hn => ?_).trans (and_iff_left trivial).symm
    exact absurd rfl ((heffect.plain _ hn).2 notify n)
  | round i =>
    obtain ⟨r, hr, h⟩ := Option.bind_eq_some_iff.mp h
    obtain ⟨_, h⟩ := Option.ite_none_right_eq_some.mp h
    rw [← Option.some.inj h]
    exact (calm_append _ (by simp)).trans (and_iff_left trivial).symm
  | shutdown =>
    obtain ⟨_, h⟩ := Option.ite_none_right_eq_some.mp h
    rw [← Option.some.inj h]
    exact calm_shutdown.trans (and_iff_left trivial).symm
  | cancel =>
    rw [← Option.some.inj h]
    exact (and_iff_left trivial).symm
  | resume => exact calm_resume hs h

theorem Inv.orderly (hs : Inv Γ s) (hcalm : Calm s) : Orderly s where
  calm := hcalm
  counts := hs.counts
  writes := by
    rw [hs.counts.1, hs.counts.2]
    exact Nat.le_add_right _ _
  quiet := hs.quiet
  notify n hn := (hs.intact (.inr (hs.ended true n hn))).2
  idle intact hphase hnone := by
    rcases hs.waiting intact hphase with ⟨_, hclear, _, hpending⟩ | ⟨_, ec, hec, _⟩
    · exact ⟨hpending, hclear⟩
    · exact absurd (hec.symm.trans hnone) (by simp)

/-- **The shutdown is orderly exactly if nothing is in progress any more whenever it goes on after
its wait has been cancelled**, which it can do only where a cancelled coroutine does not throw. -/
theorem shutdown_orderly_iff {as : List Action} (hrun : run (step Γ throws) {} as = some t) :
    Orderly t ↔ Meets (step Γ throws) (Settled throws) {} as := by
  have hcalm : Calm t ↔
      Calm ({} : ClientSession P) ∧ Meets (step Γ throws) (Settled throws) {} as :=
    run_iff_meets (fun _ _ _ hs h => hs.step h) (fun _ _ _ hs h => calm_step hs h) inv_init hrun
  have hinv : Inv Γ t := run_inv (fun _ _ _ hs h => hs.step h) inv_init hrun
  have hinit : Calm ({} : ClientSession P) := by simp [Calm]
  refine Iff.trans ?_ (hcalm.trans (and_iff_right hinit))
  exact ⟨Orderly.calm, hinv.orderly⟩

/-! ### Runs -/

/-- A request is sent, and the client waits for its response when the session is shut down. -/
def shutDownMeanwhile : List Action :=
  (Client.sent 0 ++ [Client.Action.getResponse 0]).map Action.session ++ [.shutdown]

/-- The read is cancelled then, and over before the connection is ended. -/
def shutDownAfterRead : List Action :=
  shutDownMeanwhile ++ [.session (.deliver 0 .canceled), .resume]

theorem shutdown_orderly_iff_shutDownAfterRead :
    ∃ t, run (step Client.twoResponses false) {} shutDownAfterRead = some t ∧
      t.log = [.begins true, .writeOver .success, .begins false, .detached, .readOver,
        .ended true 0] ∧ Orderly t := by
  have hlog : (run (step Client.twoResponses false) {} shutDownAfterRead).map
      (fun t => t.log) = some [.begins true, .writeOver .success, .begins false, .detached,
        .readOver, .ended true 0] := by
    decide +kernel
  obtain ⟨t, hrun, hlog⟩ := Option.map_eq_some_iff.mp hlog
  exact ⟨t, hrun, hlog, (shutdown_orderly_iff hrun).mpr (by decide +kernel)⟩

/-- The coroutine that shuts down the session is cancelled while it waits. -/
def shutDownCancelled : List Action := shutDownMeanwhile ++ [.cancel, .resume]

/-- **Where a cancelled coroutine goes on, the connection is ended while a read is in progress.** -/
theorem shutdown_overlaps_read :
    ¬ ∀ as t, run (step Client.twoResponses false) {} as = some t → Orderly t := by
  intro h
  have hlog : (run (step Client.twoResponses false) {} shutDownCancelled).map
      (fun t => t.log) = some [.begins true, .writeOver .success, .begins false, .detached,
        .ended true 1] := by
    decide +kernel
  obtain ⟨t, hrun, hlog⟩ := Option.map_eq_some_iff.mp hlog
  have hcalm := (h _ t hrun).calm true 1
  rw [hlog] at hcalm
  exact absurd (hcalm (by simp)) (by decide)

end ClientSession

end AnyHttp.H1
