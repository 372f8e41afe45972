import AnyHttp.Lib.ReadyQueue
import AnyHttp.Quic.Equiv.Packing
import AnyHttp.Quic.Equiv.Unsent
import AnyHttp.Quic.Scheduler

/-!
# The write queue

What each function of `StreamApplication` does to `write_queue_` and to the flags of the streams.
Between any two of them the application is `InStep`: the flags are right (`Tracked`), and a stream
that could send something is queued (`Awake`).  In the middle of one of them this may not be so for
the stream it is about (`InStepBut`), and `schedule()` settles that.

* `nextStreamData_spec`: what `next_stream_data()` returns.
* `onStreamDataWritten_writeQueue`: a stream that has been given room goes to the back.
* `Keeps` is what all of them have in common.
-/

namespace AnyHttp.Quic.Packing

open Lib

namespace StreamApplication

variable {app app' : StreamApplication} {id j : Nat} {f : PlainStream → PlainStream}
  {stream : PlainStream} {P : PlainStream → Prop}

/-! ### The streams -/

/-- What `write_queue_` should have of a stream. -/
def flag (app : StreamApplication) (id : Nat) : Option Bool :=
  (app.findStream id).map PlainStream.scheduled

/-- A stream that could send something has been queued. -/
def Awake (app : StreamApplication) (id : Nat) : Prop :=
  ∀ stream, app.findStream id = some stream → stream.blocked = false →
    stream.q.hasMore = true → stream.scheduled = true

/-- `P` holds of every stream of the session. -/
def All (P : PlainStream → Prop) (app : StreamApplication) : Prop :=
  ∀ id stream, app.findStream id = some stream → P stream

/-- The id is that of a stream, or of one that has been erased and is still queued. -/
def Known (app : StreamApplication) (id : Nat) : Prop :=
  id ∈ app.writeQueue ∨ app.findStream id ≠ none

/-- A stream that is modified is found as modified. -/
theorem findStream_modify_self (h : app.findStream id = some stream) :
    (app.modify id f).findStream id = some (f stream) := by
  rw [findStream_modify, if_pos rfl, h]
  rfl

/-- Other streams are found as they were. -/
theorem findStream_modify_of_ne (h : j ≠ id) :
    (app.modify id f).findStream j = app.findStream j := by
  rw [findStream_modify, if_neg h]

/-- Modifying a stream neither adds nor removes one. -/
theorem findStream_modify_eq_none :
    (app.modify id f).findStream j = none ↔ app.findStream j = none := by
  rw [findStream_modify]
  split
  · exact Option.map_eq_none_iff
  · exact Iff.rfl

/-- There is nothing to modify of a stream that is not there. -/
theorem modify_of_none (h : app.findStream id = none) (j : Nat) :
    (app.modify id f).findStream j = app.findStream j := by
  rw [findStream_modify]
  split
  · rename_i hj
    rw [hj, h]
    rfl
  · rfl

/-- The flags say the same unless the modification is of a flag. -/
theorem flag_modify (hf : ∀ stream, (f stream).scheduled = stream.scheduled) :
    (app.modify id f).flag = app.flag := by
  funext j
  unfold flag
  rw [findStream_modify]
  split
  · rw [Option.map_map]
    exact congrFun (congrArg Option.map (funext hf)) _
  · rfl

theorem flag_setScheduled (h : app.findStream id = some stream) (b : Bool) :
    (app.modify id fun stream => { stream with scheduled := b }).flag =
      Function.update app.flag id (some b) := by
  funext j
  by_cases hj : j = id
  · subst hj
    rw [Function.update_self, flag, findStream_modify_self h]
    rfl
  · rw [Function.update_of_ne hj, flag, findStream_modify_of_ne hj]
    rfl

/-- What holds of all streams is kept if the modified stream still has it. -/
theorem All.modify (h : app.All P)
    (hf : ∀ stream, app.findStream id = some stream → P stream → P (f stream)) :
    (app.modify id f).All P := by
  intro j stream hj
  rw [findStream_modify] at hj
  split at hj
  · rename_i heq
    subst heq
    obtain ⟨stream, hstream, rfl⟩ := Option.map_eq_some_iff.mp hj
    exact hf stream hstream (h _ stream hstream)
  · exact h j stream hj

/-- Whether a stream is awake does not depend on other streams. -/
theorem awake_modify_of_ne (h : j ≠ id) : (app.modify id f).Awake j ↔ app.Awake j := by
  unfold Awake
  rw [findStream_modify_of_ne h]

/-! ### In and out of the queue -/

/-- A stream that is not there is not scheduled. -/
theorem schedule_of_none (h : app.findStream id = none) (wake : Bool) :
    app.schedule id wake = app := by
  rw [schedule, h]

/-- Nor is one that is scheduled already, or blocked, or on a connection that is closed. -/
theorem schedule_of_not (h : app.findStream id = some stream)
    (hnot : (stream.scheduled || stream.blocked || app.closed) = true) (wake : Bool) :
    app.schedule id wake = app := by
  rw [schedule, h]
  exact if_pos hnot

/-- Any other one gets the flag and a place at the end of the queue. -/
theorem schedule_eq (h : app.findStream id = some stream)
    (hnot : (stream.scheduled || stream.blocked || app.closed) = false) (wake : Bool) :
    app.schedule id wake =
      { app.modify id fun stream => { stream with scheduled := true } with
        writeQueue := app.writeQueue ++ [id]
        woken := app.woken || wake } := by
  rw [schedule, h]
  exact if_neg (ne_true_of_eq_false hnot)

theorem schedule_closed (wake : Bool) : (app.schedule id wake).closed = app.closed := by
  unfold schedule
  split
  · rfl
  · split <;> rfl

/-- What does not depend on the flag holds of all streams after a call of `schedule()`, ... -/
theorem All.schedule (h : app.All P) (hP : ∀ stream b, P stream → P { stream with scheduled := b })
    (wake : Bool) : (app.schedule id wake).All P := by
  unfold StreamApplication.schedule
  split
  · exact h
  · split
    · exact h
    · exact h.modify fun stream _ => hP stream true

/-- ... and after the front of the queue has been taken off. -/
theorem All.unscheduleFront (h : app.All P)
    (hP : ∀ stream b, P stream → P { stream with scheduled := b }) :
    (app.unscheduleFront id).All P :=
  h.modify (f := fun stream => { stream with scheduled := false }) fun stream _ => hP stream false

/-- Scheduling makes no stream known. -/
theorem known_schedule (wake : Bool) (h : (app.schedule id wake).Known j) : app.Known j := by
  unfold schedule at h
  split at h
  · exact h
  · rename_i stream hstream
    split at h
    · exact h
    · rcases h with hmem | hfind
      · rcases List.mem_append.mp hmem with hmem | hmem
        · exact .inl hmem
        · rw [List.mem_singleton.mp hmem]
          exact .inr (Option.ne_none_iff_exists'.mpr ⟨stream, hstream⟩)
      · refine .inr fun hnone => hfind ?_
        exact (findStream_modify_eq_none
          (f := fun stream => { stream with scheduled := true })).mpr hnone

theorem known_unscheduleFront (h : (app.unscheduleFront id).Known j) : app.Known j := by
  rcases h with hmem | hfind
  · left
    unfold unscheduleFront at hmem
    dsimp only at hmem
    split at hmem
    · exact List.mem_of_mem_tail hmem
    · exact hmem
  · refine .inr fun hnone => hfind ?_
    exact (findStream_modify_eq_none
      (f := fun stream => { stream with scheduled := false })).mpr hnone

theorem known_modify (h : (app.modify id f).Known j) : app.Known j :=
  h.imp_right fun hfind hnone => hfind (findStream_modify_eq_none.mpr hnone)

/-- The flags are right. -/
def Tracked (app : StreamApplication) : Prop := Tracks app.flag app.writeQueue

/-- The queue holds streams with the flag set only, whatever else of them changes. -/
theorem Tracked.modify (h : app.Tracked) (hf : ∀ stream, (f stream).scheduled = stream.scheduled) :
    (app.modify id f).Tracked := by
  unfold Tracked
  rw [flag_modify hf]
  exact h

theorem Tracked.schedule (h : app.Tracked) (id : Nat) (wake : Bool) :
    (app.schedule id wake).Tracked := by
  cases hstream : app.findStream id with
  | none => exact (schedule_of_none hstream wake).symm ▸ h
  | some stream =>
    cases hnot : stream.scheduled || stream.blocked || app.closed with
    | true => exact (schedule_of_not hstream hnot wake).symm ▸ h
    | false =>
      rw [schedule_eq hstream hnot]
      rw [Bool.or_eq_false_iff, Bool.or_eq_false_iff] at hnot
      show Tracks (app.modify id fun stream => { stream with scheduled := true }).flag _
      rw [flag_setScheduled hstream]
      apply h.push
      rw [flag, hstream, Option.map_some, hnot.1.1]

/-- Only what is at the front may be taken out. -/
theorem Tracked.unscheduleFront (h : app.Tracked)
    (hfront : app.flag id = some true → app.writeQueue.head? = some id) :
    (app.unscheduleFront id).Tracked := by
  show Tracks (app.modify id fun stream => { stream with scheduled := false }).flag _
  -- a stream that is gone has no flag to clear
  cases hstream : app.findStream id with
  | none =>
    have hsame : (app.modify id fun stream => { stream with scheduled := false }).flag =
        app.flag := by
      funext j
      rw [flag, modify_of_none hstream, flag]
    rw [hsame]
    unfold StreamApplication.unscheduleFront
    dsimp only
    split
    · rename_i hhead
      obtain ⟨rest, hrest⟩ := List.head?_eq_some_iff.mp hhead
      unfold Tracked at h
      rw [hrest] at h ⊢
      exact h.drop (by rw [flag, hstream]; rfl)
    · exact h
  | some stream =>
    rw [flag_setScheduled hstream]
    have hflag : app.flag id = some stream.scheduled := by rw [flag, hstream]; rfl
    unfold StreamApplication.unscheduleFront
    dsimp only
    split
    · rename_i hhead
      obtain ⟨rest, hrest⟩ := List.head?_eq_some_iff.mp hhead
      unfold Tracked at h
      rw [hrest] at h ⊢
      exact h.pop hflag
    · rename_i hhead
      have hclear : stream.scheduled = false := by
        apply eq_false_of_ne_true
        intro hset
        exact hhead (hfront (hset ▸ hflag))
      rw [hclear] at hflag
      exact h.add fun hmem => by cases (h.mem_iff hflag).mp hmem

/-- A stream that is scheduled is awake, and so is every one that has been before. -/
theorem awake_schedule (wake : Bool) (h : app.Awake j ∨ j = id ∧ app.closed = false) :
    (app.schedule id wake).Awake j := by
  cases hstream : app.findStream id with
  | none =>
    rw [schedule_of_none hstream]
    rcases h with h | ⟨rfl, _⟩
    · exact h
    · exact fun stream hsome => nomatch hstream.symm.trans hsome
  | some stream =>
    -- a stream that is blocked stays asleep, as it is woken when there is credit
    cases hnot : stream.scheduled || stream.blocked || app.closed with
    | true =>
      rw [schedule_of_not hstream hnot]
      rcases h with h | ⟨rfl, hopen⟩
      · exact h
      · -- it is queued already, or has to wait for credit
        intro stream' hsome hblocked _
        rw [hstream, Option.some.injEq] at hsome
        subst hsome
        rwa [hblocked, hopen, Bool.or_false, Bool.or_false] at hnot
    | false =>
      rw [schedule_eq hstream hnot]
      -- the stream itself is in the queue now, and the others are as they were
      by_cases hj : j = id
      · subst hj
        intro stream' hsome _ _
        have hself := findStream_modify_self (f := fun stream => { stream with scheduled := true })
          hstream
        rw [← Option.some.inj (hself.symm.trans hsome)]
      · have hawake : app.Awake j := h.resolve_right fun hself => hj hself.1
        exact (awake_modify_of_ne (f := fun stream => { stream with scheduled := true }) hj).mpr
          hawake

/-! ### Looking for a stream with something to send -/

/-- What holds of the queue between any two calls. -/
structure InStep (app : StreamApplication) : Prop where
  tracked : app.Tracked
  awake : ∀ id, app.Awake id

/-- The stream could send something. -/
def Eligible (app : StreamApplication) (id : Nat) : Prop :=
  ∃ stream, app.findStream id = some stream ∧ stream.blocked = false ∧ stream.q.hasMore = true

/-- The positions of every stream are in order. -/
def Ordered (app : StreamApplication) : Prop :=
  app.All fun stream => stream.q.tx.Ordered stream.q.writeMode

/-- `pending_data()` is called on a stream. -/
def asked (app : StreamApplication) (id : Nat) : StreamApplication :=
  app.modify id fun stream => { stream with q := stream.q.nextStreamData.1 }

/-- A pass that goes on has taken the front off the queue: the stream is gone, or there is nothing
to ask it for. -/
theorem nextPass_inl (h : app.nextPass = .inl app') :
    ∃ id rest, app.writeQueue = id :: rest ∧ app'.writeQueue = rest ∧
      (app.findStream id = none ∧ app' = { app with writeQueue := rest } ∨
        (∃ stream, app.findStream id = some stream ∧ stream.blocked = true) ∧
          app' = app.unscheduleFront id ∨
        (∃ stream, app.findStream id = some stream ∧ stream.blocked = false ∧
          stream.q.hasMore = false) ∧ app' = (app.asked id).unscheduleFront id) := by
  unfold nextPass at h
  split at h
  · exact nomatch h
  · rename_i id rest hqueue
    have hfront (app₁ : StreamApplication) (happ₁ : app₁.writeQueue = app.writeQueue) :
        (app₁.unscheduleFront id).writeQueue = rest := by
      unfold unscheduleFront
      dsimp only
      rw [happ₁, hqueue, if_pos List.head?_cons, List.tail_cons]
    refine ⟨id, rest, hqueue, ?_⟩
    split at h
    · rename_i hstream
      obtain rfl := Sum.inl.inj h
      exact ⟨rfl, .inl ⟨hstream, rfl⟩⟩
    · rename_i stream hstream
      split at h
      · rename_i hblocked
        obtain rfl := Sum.inl.inj h
        exact ⟨hfront app rfl, .inr (.inl ⟨⟨stream, hstream, hblocked⟩, rfl⟩)⟩
      · rename_i hblocked
        dsimp only at h
        split at h
        · exact nomatch h
        · rename_i hmore
          obtain rfl := Sum.inl.inj h
          refine ⟨hfront _ rfl, .inr (.inr ⟨⟨stream, hstream, ?_, ?_⟩, rfl⟩)⟩
          · exact eq_false_of_ne_true hblocked
          · exact eq_false_of_ne_true hmore

/-- A pass that is the last one leaves an empty queue, or asks the stream at the front, which stays
there. -/
theorem nextPass_inr {data : Option StreamData} (h : app.nextPass = .inr (app', data)) :
    data = none ∧ app.writeQueue = [] ∧ app' = app ∨
      ∃ id stream rest, app.writeQueue = id :: rest ∧ app.findStream id = some stream ∧
        stream.blocked = false ∧ stream.q.hasMore = true ∧ app' = app.asked id ∧
        data = some ⟨id, stream.q.nextStreamData.2.1, stream.q.nextStreamData.2.2⟩ := by
  unfold nextPass at h
  split at h
  · rename_i hqueue
    obtain ⟨rfl, rfl⟩ := Prod.mk.inj (Sum.inr.inj h)
    exact .inl ⟨rfl, hqueue, rfl⟩
  · rename_i id rest hqueue
    split at h
    · exact nomatch h
    · rename_i stream hstream
      split at h
      · exact nomatch h
      · rename_i hblocked
        dsimp only at h
        split at h
        · rename_i hmore
          obtain ⟨rfl, rfl⟩ := Prod.mk.inj (Sum.inr.inj h)
          exact .inr ⟨id, stream, rest, hqueue, hstream, eq_false_of_ne_true hblocked, hmore,
            rfl, rfl⟩
        · exact nomatch h

/-- Asking a stream keeps the queue in order. -/
theorem Ordered.asked (h : app.Ordered) (id : Nat) : (app.asked id).Ordered :=
  All.modify h fun _ _ hordered => QuicStream.ordered_nextStreamData hordered

/-- Asking does not change who has something to send ... -/
theorem eligible_asked (h : app.Ordered) : (app.asked id).Eligible j ↔ app.Eligible j := by
  by_cases hj : j = id
  · subst hj
    constructor
    · rintro ⟨stream', hstream', hblocked, hmore⟩
      rw [StreamApplication.asked, findStream_modify, if_pos rfl] at hstream'
      obtain ⟨stream, hstream, rfl⟩ := Option.map_eq_some_iff.mp hstream'
      rw [QuicStream.hasMore_nextStreamData (h j stream hstream)] at hmore
      exact ⟨stream, hstream, hblocked, hmore⟩
    · rintro ⟨stream, hstream, hblocked, hmore⟩
      refine ⟨_, findStream_modify_self hstream, hblocked, ?_⟩
      rwa [QuicStream.hasMore_nextStreamData (h j stream hstream)]
  · unfold Eligible StreamApplication.asked
    rw [findStream_modify_of_ne hj]

/-- ... and neither does taking the front off the queue. -/
theorem eligible_unscheduleFront : (app.unscheduleFront id).Eligible j ↔ app.Eligible j := by
  show (∃ stream, (app.modify id fun stream => { stream with scheduled := false }).findStream j =
    some stream ∧ _) ↔ _
  constructor
  · rintro ⟨stream', hstream', hrest⟩
    rw [findStream_modify] at hstream'
    split at hstream'
    · obtain ⟨stream, hstream, rfl⟩ := Option.map_eq_some_iff.mp hstream'
      exact ⟨stream, hstream, hrest⟩
    · exact ⟨stream', hstream', hrest⟩
  · rintro ⟨stream, hstream, hrest⟩
    by_cases hj : j = id
    · subst hj
      exact ⟨_, findStream_modify_self hstream, hrest⟩
    · refine ⟨stream, ?_, hrest⟩
      rwa [findStream_modify_of_ne hj]

/-- Taking a stream off the queue puts no other one to sleep. -/
theorem awake_unscheduleFront_of_ne (hj : j ≠ id) :
    (app.unscheduleFront id).Awake j ↔ app.Awake j :=
  awake_modify_of_ne (f := fun stream => { stream with scheduled := false }) hj

/-- The stream at the front loses its flag. -/
theorem findStream_unscheduleFront (h : app.findStream id = some stream) :
    (app.unscheduleFront id).findStream id = some { stream with scheduled := false } :=
  findStream_modify_self (f := fun stream => { stream with scheduled := false }) h

/-- A stream that can not send anything need not be queued. -/
theorem awake_of_not_eligible (h : ¬app.Eligible id) : app.Awake id :=
  fun stream hstream hblocked hmore => absurd ⟨stream, hstream, hblocked, hmore⟩ h

/-- A stream that can not send anything leaves the queue. -/
theorem InStep.unscheduleFront (h : app.InStep) (hfront : app.writeQueue.head? = some id)
    (hnot : ¬app.Eligible id) : (app.unscheduleFront id).InStep where
  tracked := h.tracked.unscheduleFront fun _ => hfront
  awake := fun j => by
    by_cases hj : j = id
    · rw [hj]
      exact awake_of_not_eligible (mt eligible_unscheduleFront.mp hnot)
    · exact (awake_unscheduleFront_of_ne hj).mpr (h.awake j)

theorem InStep.asked (h : app.InStep) (hordered : app.Ordered) (id : Nat) :
    (app.asked id).InStep where
  tracked := h.tracked.modify fun _ => rfl
  awake := fun j stream' hstream' hblocked hmore => by
    obtain ⟨stream, hstream, hblocked', hmore'⟩ :=
      (eligible_asked hordered).mp ⟨stream', hstream', hblocked, hmore⟩
    have hset := h.awake j stream hstream hblocked' hmore'
    rw [StreamApplication.asked, findStream_modify] at hstream'
    split at hstream'
    · rw [hstream] at hstream'
      exact Option.some.inj hstream' ▸ hset
    · rw [hstream] at hstream'
      exact Option.some.inj hstream' ▸ hset

/-- What everything that happens to an application keeps, until it is closed. -/
structure Keeps (app app' : StreamApplication) : Prop where
  closed : app'.closed = app.closed
  known : ∀ j, app'.Known j → app.Known j
  ordered : app.Ordered → app'.Ordered
  inStep : app.closed = false → app.Ordered → app.InStep → app'.InStep

theorem Keeps.refl (app : StreamApplication) : app.Keeps app :=
  ⟨rfl, fun _ h => h, id, fun _ _ h => h⟩

/-- What one function keeps and then another one is kept by both. -/
theorem Keeps.trans {app'' : StreamApplication} (h₁ : app.Keeps app') (h₂ : app'.Keeps app'') :
    app.Keeps app'' where
  closed := h₂.closed.trans h₁.closed
  known := fun j h => h₁.known j (h₂.known j h)
  ordered := fun h => h₂.ordered (h₁.ordered h)
  inStep := fun hopen hordered h => h₂.inStep (h₁.closed.trans hopen) (h₁.ordered hordered)
    (h₁.inStep hopen hordered h)

theorem keeps_asked (app : StreamApplication) (id : Nat) : app.Keeps (app.asked id) :=
  ⟨rfl, fun _ => known_modify, fun h => h.asked id, fun _ hordered h => h.asked hordered id⟩

/-- The front may be taken off the queue if it has nothing to send. -/
theorem keeps_unscheduleFront (hfront : app.writeQueue.head? = some id)
    (hnot : ¬app.Eligible id) : app.Keeps (app.unscheduleFront id) :=
  ⟨rfl, fun _ => known_unscheduleFront, fun h => h.unscheduleFront fun _ _ h => h,
    fun _ _ h => h.unscheduleFront hfront hnot⟩

/-- What one pass of the loop does, if it goes on. -/
theorem nextPass_keeps (hordered : app.Ordered) (hpass : app.nextPass = .inl app') :
    app.Keeps app' ∧ (∀ j, app'.Eligible j ↔ app.Eligible j) ∧
      ∃ id, app.writeQueue = id :: app'.writeQueue ∧ ¬app.Eligible id := by
  obtain ⟨id, rest, hqueue, hrest, hcase⟩ := nextPass_inl hpass
  have hfront : app.writeQueue.head? = some id := by rw [hqueue, List.head?_cons]
  -- gone, blocked, or with nothing to send: none of these is eligible
  rcases hcase with ⟨hnone, rfl⟩ | ⟨⟨stream, hstream, hblocked⟩, rfl⟩ |
    ⟨⟨stream, hstream, hblocked, hmore⟩, rfl⟩
  · have hnot : ¬app.Eligible id := by
      rintro ⟨stream, hstream, _⟩
      cases hnone.symm.trans hstream
    refine ⟨⟨rfl, ?_, fun h => h, ?_⟩, fun _ => Iff.rfl, id, hqueue, hnot⟩
    · exact fun j hj => hj.imp_left fun hmem => hqueue ▸ List.mem_cons_of_mem id hmem
    · intro _ _ h
      refine ⟨?_, h.awake⟩
      have htracked := h.tracked
      unfold Tracked at htracked
      rw [hqueue] at htracked
      exact htracked.drop (by rw [flag, hnone]; rfl)
  · have hnot : ¬app.Eligible id := by
      rintro ⟨stream', hstream', hblocked', _⟩
      rw [hstream, Option.some.injEq] at hstream'
      subst hstream'
      cases hblocked.symm.trans hblocked'
    exact ⟨keeps_unscheduleFront hfront hnot, fun _ => eligible_unscheduleFront, id,
      hrest.symm ▸ hqueue, hnot⟩
  · have hnot : ¬app.Eligible id := by
      rintro ⟨stream', hstream', _, hmore'⟩
      rw [hstream, Option.some.injEq] at hstream'
      subst hstream'
      cases hmore.symm.trans hmore'
    have hnot' : ¬(app.asked id).Eligible id := mt (eligible_asked hordered).mp hnot
    exact ⟨(keeps_asked app id).trans (keeps_unscheduleFront hfront hnot'),
      fun _ => eligible_unscheduleFront.trans (eligible_asked hordered), id,
      hrest.symm ▸ hqueue, hnot⟩

/-- The first stream of the queue that could send something has been found, and what it has to
send. -/
structure Found (app app' : StreamApplication) (data : StreamData) : Prop where
  first : ∃ passed rest, app.writeQueue = passed ++ data.id :: rest ∧
    (∀ id ∈ passed, ¬app.Eligible id) ∧ app'.writeQueue = data.id :: rest
  eligible : app.Eligible data.id
  stream : ∃ stream, app'.findStream data.id = some stream ∧ stream.blocked = false ∧
    stream.q.hasMore = true ∧ stream.q.nextStreamData = (stream.q, data.vecs, data.fin)

/-- **What `next_stream_data()` returns.** -/
theorem nextStreamData_spec (hordered : app.Ordered) :
    app.Keeps app.nextStreamData.1 ∧
      (app.nextStreamData.2 = none → ∀ id ∈ app.writeQueue, ¬app.Eligible id) ∧
        ∀ data, app.nextStreamData.2 = some data → app.Found app.nextStreamData.1 data := by
  refine loop_induction nextPass_variant
    (P := fun app r => app.Ordered → app.Keeps r.1 ∧
      (r.2 = none → ∀ id ∈ app.writeQueue, ¬app.Eligible id) ∧
        ∀ data, r.2 = some data → app.Found r.1 data) ?_ ?_ app hordered
  · intro app app' hpass ih hordered
    obtain ⟨hkeeps, heligible, id, hqueue, hnot⟩ := nextPass_keeps hordered hpass
    obtain ⟨hkeeps', hnone, hsome⟩ := ih (hkeeps.ordered hordered)
    refine ⟨hkeeps.trans hkeeps', ?_, ?_⟩
    · intro hr j hj
      rw [hqueue] at hj
      rcases List.mem_cons.mp hj with rfl | hj
      · exact hnot
      · exact mt (heligible j).mpr (hnone hr j hj)
    · intro data hr
      obtain ⟨⟨passed, rest, hqueue', hpassed, hrest⟩, hfound, hstream⟩ := hsome data hr
      refine ⟨⟨id :: passed, rest, ?_, ?_, hrest⟩, (heligible _).mp hfound, hstream⟩
      · rw [hqueue, hqueue', List.cons_append]
      · intro j hj
        rcases List.mem_cons.mp hj with rfl | hj
        · exact hnot
        · exact mt (heligible j).mpr (hpassed j hj)
  · intro app r hpass hordered
    obtain ⟨app', data⟩ := r
    -- the queue is empty, or the stream at its front has something to send
    rcases nextPass_inr hpass with ⟨rfl, hqueue, rfl⟩ |
      ⟨id, stream, rest, hqueue, hstream, hblocked, hmore, rfl, rfl⟩
    · refine ⟨.refl _, fun _ j hj => ?_, nofun⟩
      rw [hqueue] at hj
      exact absurd hj List.not_mem_nil
    · refine ⟨keeps_asked app id, nofun, ?_⟩
      intro data hdata
      obtain rfl := Option.some.inj hdata
      have hq := hordered id stream hstream
      refine ⟨⟨[], rest, hqueue, nofun, hqueue⟩, ⟨stream, hstream, hblocked, hmore⟩,
        { stream with q := stream.q.nextStreamData.1 }, findStream_modify_self hstream, hblocked,
        ?_, ?_⟩
      · exact (QuicStream.hasMore_nextStreamData hq).trans hmore
      · exact QuicStream.nextStreamData_again hq

/-! ### What ngtcp2 says of it -/

/-- It is about to be settled if the stream has to be queued. -/
structure InStepBut (app : StreamApplication) (id : Nat) : Prop where
  tracked : app.Tracked
  awake : ∀ j, j ≠ id → app.Awake j

/-- The queue is in step with all streams, so with all but one. -/
theorem InStep.but (h : app.InStep) (id : Nat) : app.InStepBut id :=
  ⟨h.tracked, fun j _ => h.awake j⟩

namespace InStepBut

/-- That one may be modified, ... -/
theorem modify (h : app.InStepBut id) (hf : ∀ stream, (f stream).scheduled = stream.scheduled) :
    (app.modify id f).InStepBut id :=
  ⟨h.tracked.modify hf, fun j hj => (awake_modify_of_ne hj).mpr (h.awake j hj)⟩

/-- ... taken off the front of the queue, ... -/
theorem unscheduleFront (h : app.InStepBut id)
    (hfront : app.flag id = some true → app.writeQueue.head? = some id) :
    (app.unscheduleFront id).InStepBut id :=
  ⟨h.tracked.unscheduleFront hfront,
    fun j hj => (awake_unscheduleFront_of_ne hj).mpr (h.awake j hj)⟩

/-- ... and scheduled, which brings the queue in step again. -/
theorem schedule (h : app.InStepBut id) (hopen : app.closed = false) (wake : Bool) :
    (app.schedule id wake).InStep where
  tracked := h.tracked.schedule id wake
  awake := fun j => awake_schedule wake <| by
    by_cases hj : j = id
    · exact .inr ⟨hj, hopen⟩
    · exact .inl (h.awake j hj)

/-- The queue is in step as well if there is nothing to send on that one. -/
theorem inStep (h : app.InStepBut id) (hnot : ¬app.Eligible id) : app.InStep where
  tracked := h.tracked
  awake := fun j => by
    by_cases hj : j = id
    · rw [hj]
      exact awake_of_not_eligible hnot
    · exact h.awake j hj

end InStepBut

theorem Ordered.schedule (h : app.Ordered) (id : Nat) (wake : Bool) :
    (app.schedule id wake).Ordered :=
  All.schedule h (fun _ _ h => h) wake

theorem Ordered.unscheduleFront (h : app.Ordered) (id : Nat) : (app.unscheduleFront id).Ordered :=
  All.unscheduleFront h fun _ _ h => h

/-- A stream has something to send if it has more of its body, and is not blocked. -/
theorem eligible_of_stream (hstream : app.findStream id = some stream) :
    app.Eligible id ↔ stream.blocked = false ∧ stream.q.hasMore = true := by
  constructor
  · rintro ⟨stream', hstream', h⟩
    rw [hstream, Option.some.injEq] at hstream'
    exact hstream' ▸ h
  · exact fun h => ⟨stream, hstream, h⟩

/-- A stream that flow control blocks may leave the queue, as it is not eligible then. -/
theorem keeps_onStreamBlocked
    (hfront : app.flag id = some true → app.writeQueue.head? = some id) :
    app.Keeps (app.onStreamBlocked id) := by
  unfold onStreamBlocked
  split
  · exact .refl app
  · rename_i stream hstream
    have hflag : (app.modify id fun stream => { stream with blocked := true }).flag = app.flag :=
      flag_modify fun _ => rfl
    refine ⟨rfl, fun _ h => known_modify (known_unscheduleFront h), fun h => ?_, fun _ _ h => ?_⟩
    · apply Ordered.unscheduleFront
      exact All.modify h fun _ _ h => h
    · refine InStepBut.inStep (InStepBut.unscheduleFront ((h.but id).modify fun _ => rfl) ?_) ?_
      · rw [hflag]
        exact hfront
      rw [eligible_unscheduleFront, eligible_of_stream (findStream_modify_self hstream)]
      exact fun h => nomatch h.1

/-- So may one whose sending side is shut, as nothing is sent on it any more. -/
theorem keeps_onStreamShutWr
    (hfront : app.flag id = some true → app.writeQueue.head? = some id) :
    app.Keeps (app.onStreamShutWr id) := by
  unfold onStreamShutWr
  split
  · exact .refl app
  · rename_i stream hstream
    refine ⟨rfl, fun _ h => known_unscheduleFront (known_modify h), fun h => ?_, fun _ _ h => ?_⟩
    · refine All.modify (h.unscheduleFront id) fun stream _ h => ?_
      have hsub := QuicStream.Subsides.abortWriting stream.q .connectionReset
      exact hsub.mode ▸ h.settles hsub.tx
    · refine InStepBut.inStep (((h.but id).unscheduleFront hfront).modify fun _ => rfl) ?_
      rw [eligible_of_stream (findStream_modify_self (findStream_unscheduleFront hstream))]
      rintro ⟨_, hmore⟩
      have hover := abortWriting_writeAborted stream.q .connectionReset
      rw [QuicStream.hasMore_eq, QuicStream.sendingOver, hover, Bool.or_true] at hmore
      cases hmore

/-- `on_stream_data_written()`, up to where the stream is scheduled again. -/
def took (app : StreamApplication) (id n : Nat) (fin : Bool) : StreamApplication :=
  (app.unscheduleFront id).modify id fun stream =>
    { stream with q := stream.q.onStreamDataWritten n fin }

/-- A second call of `schedule()` does nothing. -/
theorem schedule_schedule (app : StreamApplication) (id : Nat) (wake wake' : Bool) :
    (app.schedule id wake).schedule id wake' = app.schedule id wake := by
  cases hstream : app.findStream id with
  | none => rw [schedule_of_none hstream, schedule_of_none hstream]
  | some stream =>
    cases hnot : stream.scheduled || stream.blocked || app.closed with
    | true => rw [schedule_of_not hstream hnot, schedule_of_not hstream hnot]
    | false =>
      have hself : (app.schedule id wake).findStream id =
          some { stream with scheduled := true } := by
        rw [schedule_eq hstream hnot]
        exact findStream_modify_self
          (f := fun stream : PlainStream => { stream with scheduled := true }) hstream
      exact schedule_of_not hself rfl wake'

/-- `on_stream_data_written()` takes the bytes, and schedules the stream again. -/
theorem onStreamDataWritten_eq (hstream : app.findStream id = some stream) (n : Nat)
    (fin : Bool) :
    ∃ wake, app.onStreamDataWritten id n fin = (app.took id n fin).schedule id wake := by
  unfold onStreamDataWritten
  rw [hstream]
  dsimp only
  split
  · exact ⟨true, schedule_schedule _ id true false⟩
  · exact ⟨false, rfl⟩

theorem ordered_took (h : app.Ordered) (n : Nat) (fin : Bool) : (app.took id n fin).Ordered := by
  refine All.modify (h.unscheduleFront id) fun stream _ h => ?_
  obtain ⟨hmode, hordered⟩ := QuicStream.onStreamDataWritten_spec h n fin
  dsimp only
  rwa [hmode]

theorem known_took {n : Nat} {fin : Bool} (h : (app.took id n fin).Known j) : app.Known j :=
  known_unscheduleFront (known_modify h)

/-- So a stream that is not done is in the queue after that. -/
theorem keeps_onStreamDataWritten
    (hfront : app.flag id = some true → app.writeQueue.head? = some id) (n : Nat) (fin : Bool) :
    app.Keeps (app.onStreamDataWritten id n fin) := by
  cases hstream : app.findStream id with
  | none =>
    have hsame : app.onStreamDataWritten id n fin = app := by rw [onStreamDataWritten, hstream]
    exact hsame.symm ▸ .refl app
  | some stream =>
    obtain ⟨wake, heq⟩ := onStreamDataWritten_eq hstream n fin
    rw [heq]
    refine ⟨schedule_closed wake, fun _ h => known_took (known_schedule wake h),
      fun h => (ordered_took h n fin).schedule id wake, fun hopen _ h => ?_⟩
    have htook : (app.took id n fin).InStepBut id :=
      ((h.but id).unscheduleFront hfront).modify fun _ => rfl
    exact htook.schedule hopen wake

/-- **Round robin**: a stream that has been given room goes behind all the others. -/
theorem onStreamDataWritten_writeQueue {rest : List Nat} (hopen : app.closed = false)
    (hstream : app.findStream id = some stream) (hblocked : stream.blocked = false)
    (hqueue : app.writeQueue = id :: rest) (n : Nat) (fin : Bool) :
    (app.onStreamDataWritten id n fin).writeQueue = rest ++ [id] := by
  have htook : (app.took id n fin).findStream id =
      some { stream with
        q := stream.q.onStreamDataWritten n fin
        scheduled := false } :=
    findStream_modify_self (f := fun stream =>
      { stream with q := stream.q.onStreamDataWritten n fin }) (findStream_unscheduleFront hstream)
  have hrest : (app.took id n fin).writeQueue = rest := by
    show (if app.writeQueue.head? = some id then app.writeQueue.tail else app.writeQueue) = rest
    rw [hqueue, if_pos List.head?_cons, List.tail_cons]
  have hnot : (false || stream.blocked || (app.took id n fin).closed) = false := by
    rw [hblocked]
    exact hopen
  obtain ⟨wake, heq⟩ := onStreamDataWritten_eq hstream n fin
  rw [heq, schedule_eq htook hnot, ← hrest]

/-! ### What else happens to a stream -/

/-- A stream that is erased is not found, and the others are. -/
theorem findStream_eraseStream (app : StreamApplication) (id j : Nat) :
    (app.eraseStream id).findStream j = if j = id then none else app.findStream j := by
  have hlookup (xs : List (Nat × PlainStream)) :
      (xs.filter fun x => x.1 ≠ id).lookup j = if j = id then none else xs.lookup j := by
    induction xs with
    | nil => simp
    | cons x xs ih =>
      rw [List.filter_cons, List.lookup_cons]
      by_cases hx : x.1 = id
      · rw [if_neg (by simp [hx]), ih]
        by_cases hj : j = id
        · rw [if_pos hj, if_pos hj]
        · rw [if_neg hj, if_neg hj, beq_false_of_ne (hx ▸ hj)]
      · rw [if_pos (by simp [hx]), List.lookup_cons, ih]
        by_cases hj : j = id
        · rw [if_pos hj, if_pos hj, beq_false_of_ne (hj ▸ Ne.symm hx)]
        · rw [if_neg hj, if_neg hj]
  exact hlookup app.streams

theorem keeps_eraseStream (app : StreamApplication) (id : Nat) :
    app.Keeps (app.eraseStream id) := by
  have hfind : ∀ {j stream}, (app.eraseStream id).findStream j = some stream →
      app.findStream j = some stream := by
    intro j stream h
    rw [findStream_eraseStream] at h
    split at h
    · exact nomatch h
    · exact h
  refine ⟨rfl, fun j h => h.imp_right fun hne => ?_, fun h j stream hj => h j stream (hfind hj),
    fun _ _ h => ⟨?_, fun j stream hj => h.awake j stream (hfind hj)⟩⟩
  · obtain ⟨stream, hstream⟩ := Option.ne_none_iff_exists'.mp hne
    exact Option.ne_none_iff_exists'.mpr ⟨stream, hfind hstream⟩
  · have hflag : (app.eraseStream id).flag = Function.update app.flag id none := by
      funext j
      unfold flag
      rw [findStream_eraseStream]
      -- the stream that is erased is not eligible, and its place in the queue is dropped later
      by_cases hj : j = id
      · rw [if_pos hj, hj, Function.update_self, Option.map_none]
      · rw [if_neg hj, Function.update_of_ne hj]
    unfold Tracked
    rw [hflag]
    exact h.tracked.forget

end StreamApplication

/-- A function of a stream has nothing to report, or begins a write, or cancels one. -/
theorem Operation.apply_cases (q : QuicStream) (o : Operation) :
    q.Subsides (o.apply q) ∨
      (∃ h buffer eof, o = .startWrite h buffer eof ∧
        (o.apply q).tx = q.tx.begin q.writeMode h buffer eof ∧
          (o.apply q).writeMode = q.writeMode ∧ q.sendingOver = false ∧
            .onWritable ∈ (o.apply q).calls.drop q.calls.length) ∨
        ∃ token, o = .cancelWrite token ∧ q.Cancels token := by
  cases o with
  | makeHandle => exact .inl ⟨rfl, id, .refl _⟩
  | startWrite h buffer eof =>
    rcases q.startWrite_reports h buffer eof with hsub | hbegins
    · exact .inl hsub
    · exact .inr (.inl ⟨h, buffer, eof, rfl, hbegins⟩)
  | cancelWrite token =>
    -- a cancellation moves the queue back, so that it may wake the FIN
    by_cases hcancels : q.Cancels token
    · exact .inr (.inr ⟨token, rfl, hcancels⟩)
    · exact .inl (QuicStream.cancelWrite_of_not_cancels hcancels)
  | resetStream code => exact .inl (.userReset q code)
  | dropWriter =>
    have hdrop : q.Subsides { q with writer := false } := ⟨rfl, id, .refl _⟩
    exact .inl (hdrop.trans (.deleteWriter _))
  | dropReader =>
    have hdrop : q.Subsides { q with reader := false } := ⟨rfl, id, .refl _⟩
    exact .inl (hdrop.trans (.deleteReader _))
  | onAcked stop => exact .inl (.onAcked q stop)
  | abortWriting ec => exact .inl (.abortWriting q ec)
  | failReading ec => exact .inl (.failReading q ec)
  | failWriting ec => exact .inl (.failWriting q ec)
  | reading rx readAborted => exact .inl ⟨rfl, id, .refl _⟩

/-- What it has more to send than before, it reports. -/
theorem Operation.apply_spec {q : QuicStream} (h : q.tx.Ordered q.writeMode) (o : Operation) :
    (o.apply q).tx.Ordered (o.apply q).writeMode ∧
      ((o.apply q).hasMore = true → q.hasMore = true ∨
        .onWritable ∈ (o.apply q).calls.drop q.calls.length) := by
  rcases apply_cases q o with hsub | ⟨_, _, _, _, htx, hmode, _, hcall⟩ | ⟨token, rfl, hcancels⟩
  · refine ⟨hsub.mode ▸ h.settles hsub.tx, fun hmore => .inl ?_⟩
    rw [QuicStream.hasMore_eq, Bool.and_eq_true, Bool.not_eq_true'] at hmore ⊢
    refine ⟨?_, hsub.tx.more _ (hsub.mode ▸ hmore.2)⟩
    apply eq_false_of_ne_true
    exact fun hover => nomatch (hsub.sendingOver hover).symm.trans hmore.1
  · rw [htx, hmode]
    exact ⟨h.begin _ _ _, fun _ => .inr hcall⟩
  · obtain ⟨htx, hmode, hover⟩ := QuicStream.cancelWrite_of_cancels hcancels
    show (q.cancelWrite token).tx.Ordered (q.cancelWrite token).writeMode ∧ _
    rw [htx, hmode]
    refine ⟨h.cancel, fun hmore => .inl ?_⟩
    change (q.cancelWrite token).hasMore = true at hmore
    rw [QuicStream.hasMore_eq, Bool.and_eq_true, Bool.not_eq_true', htx, hmode, hover] at hmore
    rw [QuicStream.hasMore_eq, Bool.and_eq_true, Bool.not_eq_true']
    exact ⟨(QuicStream.letGo_sendingOver hmore.1).1, Outgoing.hasMore_cancel hmore.2⟩

namespace StreamApplication

variable {app : StreamApplication} {id : Nat} {stream : PlainStream}

/-- `operate()`, up to where a stream that has closed itself is erased. -/
theorem operate_cases (hstream : app.findStream id = some stream) (o : Operation) :
    let app₁ := app.modify id fun stream => { stream with q := o.apply stream.q }
    let app₂ :=
      if .onWritable ∈ (o.apply stream.q).calls.drop stream.q.calls.length
      then app₁.schedule id true else app₁
    app.operate id o = app₂ ∨ app.operate id o = app₂.eraseStream id := by
  unfold operate
  rw [hstream]
  dsimp only
  split
  · exact .inr rfl
  · exact .inl rfl

theorem keeps_operate (app : StreamApplication) (id : Nat) (o : Operation) :
    app.Keeps (app.operate id o) := by
  cases hstream : app.findStream id with
  | none =>
    have hsame : app.operate id o = app := by rw [operate, hstream]
    exact hsame.symm ▸ .refl app
  | some stream =>
    let app₁ := app.modify id fun stream => { stream with q := o.apply stream.q }
    have hordered (h : app.Ordered) : app₁.Ordered :=
      All.modify h fun _ _ h => (Operation.apply_spec h o).1
    have hbut (h : app.InStep) : app₁.InStepBut id := (h.but id).modify fun _ => rfl
    have hreports : app.Keeps
        (if .onWritable ∈ (o.apply stream.q).calls.drop stream.q.calls.length
          then app₁.schedule id true else app₁) := by
      -- a stream that reports is scheduled at once
      split
      · exact ⟨schedule_closed true, fun _ h => known_modify (known_schedule true h),
          fun h => (hordered h).schedule id true, fun hopen _ h => (hbut h).schedule hopen true⟩
      · rename_i hsilent
        refine ⟨rfl, fun _ h => known_modify h, hordered, fun _ hsound h => ⟨(hbut h).tracked, ?_⟩⟩
        intro j
        by_cases hj : j = id
        · subst hj
          intro stream' hstream' hblocked hmore
          rw [findStream_modify_self hstream, Option.some.injEq] at hstream'
          subst hstream'
          have hmore' := ((Operation.apply_spec (hsound j stream hstream) o).2 hmore).resolve_right
            hsilent
          exact h.awake j stream hstream hblocked hmore'
        · exact (hbut h).awake j hj
    rcases operate_cases hstream o with heq | heq
    · exact heq.symm ▸ hreports
    · exact heq.symm ▸ hreports.trans (keeps_eraseStream _ id)

theorem keeps_extendMaxStreamData (app : StreamApplication) (id : Nat) :
    app.Keeps (app.extendMaxStreamData id) := by
  unfold extendMaxStreamData
  split
  · exact .refl app
  · refine ⟨schedule_closed true, fun _ h => known_modify (known_schedule true h), fun h => ?_,
      fun hopen _ h => ?_⟩
    · apply Ordered.schedule
      exact All.modify h fun _ _ h => h
    · have hbut : (app.modify id fun stream => { stream with blocked := false }).InStepBut id :=
        (h.but id).modify fun _ => rfl
      exact hbut.schedule hopen true

/-! ### A new stream -/

/-- A new stream is found, and so are those that there were. -/
theorem findStream_createStream (config : Config) (mode : WriteMode) (hnew : ¬app.Known id)
    (j : Nat) : (app.createStream config mode id).findStream j =
      if j = id then some (makeStream config mode) else app.findStream j := by
  have hnone : app.findStream id = none := by
    by_contra hne
    exact hnew (.inr hne)
  show (app.streams ++ [(id, makeStream config mode)]).lookup j = _
  rw [List.lookup_append]
  by_cases hj : j = id
  · subst hj
    have hlookup : app.streams.lookup j = none := hnone
    rw [if_pos rfl, hlookup, Option.none_or, List.lookup_cons_self]
  · rw [if_neg hj, List.lookup_cons, beq_false_of_ne hj]
    exact Option.or_none

theorem ordered_createStream (config : Config) (mode : WriteMode) (hnew : ¬app.Known id)
    (h : app.Ordered) : (app.createStream config mode id).Ordered := by
  intro j stream hj
  rw [findStream_createStream config mode hnew] at hj
  split at hj
  · obtain rfl := Option.some.inj hj
    exact .init
  · exact h j stream hj

/-- A new stream is in no queue, and has nothing to send. -/
theorem inStep_createStream (config : Config) (mode : WriteMode) (hnew : ¬app.Known id)
    (h : app.InStep) : (app.createStream config mode id).InStep where
  tracked := by
    have hflag : (app.createStream config mode id).flag =
        Function.update app.flag id (some false) := by
      funext j
      unfold flag
      rw [findStream_createStream config mode hnew]
      -- the new stream has no flag, and nothing to send
      by_cases hj : j = id
      · rw [if_pos hj, hj, Function.update_self]
        rfl
      · rw [if_neg hj, Function.update_of_ne hj]
    unfold Tracked
    rw [hflag]
    exact h.tracked.add fun hmem => hnew (.inl hmem)
  awake := fun j stream hj hblocked hmore => by
    rw [findStream_createStream config mode hnew] at hj
    split at hj
    · -- there is nothing in it yet
      obtain rfl := Option.some.inj hj
      rw [QuicStream.hasMore_eq] at hmore
      cases mode <;> exact nomatch hmore
    · exact h.awake j stream hj hblocked hmore

/-- No other stream becomes known. -/
theorem known_createStream (config : Config) (mode : WriteMode) (hnew : ¬app.Known id) {j : Nat}
    (h : (app.createStream config mode id).Known j) : j = id ∨ app.Known j := by
  rcases h with hmem | hfind
  · exact .inr (.inl hmem)
  · rw [findStream_createStream config mode hnew] at hfind
    split at hfind
    · exact .inl ‹_›
    · exact .inr (.inr hfind)

end StreamApplication

end AnyHttp.Quic.Packing
