import AnyHttp.H2.SendLoop

/-!
# The send loops lose nothing, and sleep only when there is nothing to send

What nghttp2 has produced is, at any time, what the connection has taken, followed by what is still
`pending`: the rest of the write in progress, or else the contents of the bundling buffer.  The loop
waits only with an empty buffer and after an empty answer, and the event is cleared *before* nghttp2
is asked, so that whoever has called `start_write()` since then finds it waiting, or set.

* `sendLoop_ok`: both versions, in any run.
-/

namespace AnyHttp.H2.SendLoop

open Lib

variable {capacity : Nat} {version : Version} {s t : State capacity} {h : History}

/-! ### The event -/

/-- The event, as far as the loop is concerned. -/
structure Woken (phase : Phase) (e : Event) (started : Bool) : Prop where
  /-- A loop that waits has a waiter, or a completion on its way, and no other has. -/
  waits : e.waiting = true ∨ e.woken ≠ none ↔ phase = .waiting
  once : e.woken ≠ none → e.waiting = false
  /-- A waiter waits for an event that is not set. -/
  unset : e.waiting = true → e.isSet = false
  /-- What `start_write()` has set stays set, until nghttp2 is asked again. -/
  latched : started = true → e.isSet = true

namespace Woken

variable {phase : Phase} {e : Event} {started : Bool}

/-- Nobody waits, and nothing has been posted. -/
theorem quiet (hw : Woken phase e started) (hphase : phase ≠ .waiting) :
    e = ⟨e.isSet, false, none⟩ := by
  have hnot := mt hw.waits.mp hphase
  rw [not_or, not_not, Bool.not_eq_true] at hnot
  obtain ⟨hwaiting, hwoken⟩ := hnot
  rw [← hwaiting, ← hwoken]

/-- A `start_write()` reaches the loop, wherever it is. -/
theorem set (hw : Woken phase e started) : Woken phase e.set true where
  waits := by
    rw [Event.set_waiting, Event.set_woken, ← hw.waits]
    by_cases hwaiting : e.waiting = true
    · simp [hwaiting]
    · simp [hwaiting]
  once := fun _ => Event.set_waiting e
  unset := by
    rw [Event.set_waiting]
    exact fun h => nomatch h
  latched := fun _ => Event.set_isSet e

theorem cancel (hw : Woken phase e started) : Woken phase e.cancel started := by
  unfold Event.cancel
  split
  · rename_i hwaiting
    have hphase := hw.waits.mp (.inl hwaiting)
    exact ⟨⟨fun _ => hphase, fun _ => .inr nofun⟩, fun _ => rfl, (nomatch ·), hw.latched⟩
  · exact hw

/-- What has been posted has run. -/
theorem resume (hw : Woken phase e started) {phase' : Phase} (hphase : phase' ≠ .waiting) :
    Woken phase' { e with waiting := false, woken := none } started where
  waits := ⟨fun h => h.elim (nomatch ·) fun hne => absurd rfl hne, fun h => absurd h hphase⟩
  once := fun _ => rfl
  unset := (nomatch ·)
  latched := hw.latched

/-- The loop goes from one phase to another, without having waited. -/
theorem move (hw : Woken phase e started) (hphase : phase ≠ .waiting) {phase' : Phase}
    (hphase' : phase' ≠ .waiting) : Woken phase' e started where
  waits := ⟨fun h => absurd (hw.waits.mp h) hphase, fun h => absurd h hphase'⟩
  once := hw.once
  unset := hw.unset
  latched := hw.latched

end Woken

/-! ### The invariant -/

/-- What has been produced, but not been taken by the connection. -/
def State.pending (s : State capacity) : List UInt8 :=
  if s.phase = .writing then s.rest else s.buffer.data

/-- What the loop throws for: it has been cancelled, or nghttp2 has reported an error. -/
def Thrown (s : State capacity) (h : History) : Prop :=
  s.cancelled = true ∨ h.last = some .error ∨ h.last = some .closing

structure Inv (version : Version) (s : State capacity) (h : History) : Prop where
  /-- Nothing is lost, repeated or reordered. -/
  written : s.sendFailed = false → s.phase ≠ .threw → s.written ++ s.pending = h.produced
  threw : s.sendFailed = false → s.written <+: h.produced
  /-- Nothing is left behind. -/
  idle : s.phase = .waiting ∨ s.phase = .ended → s.sendFailed = false → s.buffer.data = []
  /-- The last answer was empty. -/
  empty : s.phase = .waiting → h.last = some (.chunk [])
  failed : s.sendFailed = true → s.phase = .ended
  thrown : s.phase = .threw → Thrown s h
  unbundled : version = .v2 → s.buffer.data = []
  woken : Woken s.phase s.sendReady h.started

theorem Inv.fresh (hi : Inv version s h) (hphase : s.phase ≠ .ended) : s.sendFailed = false :=
  Bool.eq_false_iff.mpr (mt hi.failed hphase)

/-- The invariant of a loop that does not wait. -/
theorem Inv.of_quiet (hthrew : s.written <+: h.produced)
    (hwritten : s.phase ≠ .threw → s.written ++ s.pending = h.produced)
    (hthrown : s.phase = .threw → Thrown s h) (hphase : s.phase ≠ .waiting)
    (hidle : s.phase = .ended → s.buffer.data = [])
    (hfailed : s.sendFailed = false) (hbuffer : version = .v2 → s.buffer.data = [])
    (hready : s.sendReady = ⟨h.started, false, none⟩) : Inv version s h where
  written := fun _ => hwritten
  threw := fun _ => hthrew
  idle := fun hend _ => hend.elim (fun hwaiting => absurd hwaiting hphase) hidle
  empty := fun hwaiting => absurd hwaiting hphase
  failed := fun htrue => nomatch hfailed.symm.trans htrue
  thrown := hthrown
  unbundled := hbuffer
  woken := by
    rw [hready]
    refine ⟨⟨?_, fun hwaiting => absurd hwaiting hphase⟩, fun _ => rfl, (nomatch ·), id⟩
    rintro (hwaiting | hwoken)
    · exact nomatch hwaiting
    · exact absurd rfl hwoken

/-! ### A pass -/

/-- A chunk, or nothing, has been added to what has been produced. -/
structure Asked (s : State capacity) (h h' : History) (data : List UInt8) : Prop where
  fresh : s.sendFailed = false
  running : s.phase = .running
  before : s.written ++ s.buffer.data = h.produced
  after : h'.produced = h.produced ++ data
  ready : s.sendReady = ⟨h'.started, false, none⟩

namespace Asked

variable {h' : History} {data : List UInt8}

theorem threw (ha : Asked s h h' data) (hthrown : Thrown s h')
    (hbuffer : version = .v2 → s.buffer.data = []) :
    Inv version { s with phase := .threw } h' := by
  refine Inv.of_quiet ?_ (absurd rfl ·) (fun _ => hthrown) nofun nofun ha.fresh hbuffer ha.ready
  rw [ha.after, ← ha.before, List.append_assoc]
  exact List.prefix_append _ _

/-- All there is, is written. -/
theorem write (ha : Asked s h h' data) (hbuffer : version = .v2 → s.buffer.data = []) :
    Inv version (s.write (s.buffer.data ++ data)) h' := by
  unfold State.write
  split
  · rename_i hcancelled
    exact ha.threw (.inl hcancelled) hbuffer
  · have hwritten : s.written ++ (s.buffer.data ++ data) = h'.produced := by
      rw [ha.after, ← ha.before, List.append_assoc]
    exact Inv.of_quiet ⟨_, hwritten⟩ (fun _ => hwritten) nofun nofun nofun ha.fresh hbuffer ha.ready

/-- There is nothing to write. -/
theorem ended (ha : Asked s h h' []) (hbuffer : s.buffer.data = []) :
    Inv version { s with phase := .ended } h' := by
  have hwritten : s.written ++ s.buffer.data = h'.produced := by
    rw [ha.after, ← ha.before, List.append_nil]
  exact Inv.of_quiet ⟨_, hwritten⟩ (fun _ => hwritten) nofun nofun (fun _ => hbuffer) ha.fresh
    (fun _ => hbuffer) ha.ready

/-- There is nothing to write, and the loop waits unless the event is set. -/
theorem wait (ha : Asked s h h' []) (hbuffer : s.buffer.data = [])
    (hlast : h'.last = some (.chunk [])) : Inv version s.wait h' := by
  have hwritten : s.written ++ s.buffer.data = h'.produced := by
    rw [ha.after, ← ha.before, List.append_nil]
  unfold State.wait
  split
  · rename_i hcancelled
    exact ha.threw (.inl hcancelled) fun _ => hbuffer
  · split
    · have hpending : s.pending = s.buffer.data := if_neg (by rw [ha.running]; exact nofun)
      rw [← hpending] at hwritten
      refine Inv.of_quiet ⟨_, hwritten⟩ (fun _ => hwritten) ?_ ?_ (fun _ => hbuffer) ha.fresh
        (fun _ => hbuffer) ha.ready
      · rw [ha.running]
        exact nofun
      · rw [ha.running]
        exact nofun
    · rename_i hset
      refine ⟨fun _ _ => hwritten, fun _ => ⟨_, hwritten⟩, fun _ _ => hbuffer, fun _ => hlast, ?_,
        nofun, fun _ => hbuffer, ?_⟩
      · intro htrue
        exact nomatch ha.fresh.symm.trans htrue
      · refine ⟨⟨fun _ => rfl, fun _ => .inl rfl⟩, ?_, fun _ => Bool.eq_false_iff.mpr hset, ?_⟩
        · rw [ha.ready]
          exact fun hwoken => absurd rfl hwoken
        · intro hstarted
          rw [ha.ready] at hset
          exact absurd hstarted hset

end Asked

theorem Inv.pass (hi : Inv version s h) (hphase : s.phase = .running) (answer : Answer)
    (wants started : Bool) :
    Inv version (version.pass { s with sendReady := ⟨started, false, none⟩ } wants answer)
      (note s (.pass answer wants started) h) := by
  have hfresh : s.sendFailed = false := hi.fresh (by rw [hphase]; exact nofun)
  have hbefore : s.written ++ s.buffer.data = h.produced := by
    have hpending := hi.written hfresh (by rw [hphase]; exact nofun)
    rw [State.pending, if_neg (by rw [hphase]; exact nofun)] at hpending
    exact hpending
  cases answer with
  | chunk data =>
    have hasked : Asked { s with sendReady := ⟨started, false, none⟩ } h
        (note s (.pass (.chunk data) wants started) h) data := by
      refine ⟨hfresh, hphase, hbefore, ?_, rfl⟩
      show (h.chunks ++ [data]).flatten = h.chunks.flatten ++ data
      rw [List.flatten_append, List.flatten_singleton]
    cases version with
    | v1 =>
      show Inv .v1 (V1.pass _ wants (.chunk data)) _
      unfold V1.pass
      dsimp only
      split
      · -- the chunk fits
        have hwritten : s.written ++ (s.buffer.data ++ data) =
            (note s (.pass (.chunk data) wants started) h).produced := by
          rw [hasked.after, ← hbefore, List.append_assoc]
        refine Inv.of_quiet ⟨_, hwritten⟩ ?_ ?_ ?_ ?_ hfresh (nomatch ·) rfl
        · intro _
          rw [State.pending, if_neg (by rw [hphase]; exact nofun)]
          exact hwritten
        all_goals
          rw [hphase]
          exact nofun
      · split
        · exact hasked.write (nomatch ·)
        · rename_i hnone
          obtain rfl : data = [] := List.eq_nil_of_length_eq_zero (by omega)
          have hbuffer : s.buffer.data = [] :=
            List.eq_nil_of_length_eq_zero (by rw [Buffer.size] at hnone; omega)
          split
          · exact hasked.ended hbuffer
          · split
            · exact hasked.wait hbuffer rfl
            · exact hasked.ended hbuffer
    | v2 =>
      have hbuffer := hi.unbundled rfl
      show Inv .v2 (V2.pass _ (.chunk data)) _
      unfold V2.pass
      dsimp only
      split
      · have hwrite : Inv .v2 _ _ := hasked.write fun _ => hbuffer
        rw [hbuffer] at hwrite
        exact hwrite
      · rename_i hnone
        obtain rfl : data = [] := List.eq_nil_of_length_eq_zero (by omega)
        split
        · exact hasked.ended hbuffer
        · exact hasked.wait hbuffer rfl
  | closing =>
    have hasked : Asked { s with sendReady := ⟨started, false, none⟩ } h
        (note s (.pass .closing wants started) h) [] :=
      ⟨hfresh, hphase, hbefore, (List.append_nil _).symm, rfl⟩
    cases version with
    | v1 => exact hasked.threw (.inr (.inr rfl)) (nomatch ·)
    | v2 => exact hasked.ended (hi.unbundled rfl)
  | error =>
    have hasked : Asked { s with sendReady := ⟨started, false, none⟩ } h
        (note s (.pass .error wants started) h) [] :=
      ⟨hfresh, hphase, hbefore, (List.append_nil _).symm, rfl⟩
    cases version with
    | v1 => exact hasked.threw (.inr (.inl rfl)) (nomatch ·)
    | v2 => exact hasked.threw (.inr (.inl rfl)) fun _ => hi.unbundled rfl

/-! ### Any step -/

theorem Inv.startWrite (hi : Inv version s h) (recvDone : Bool) :
    Inv version ({ s with recvDone := recvDone } : State capacity).startWrite
      { h with started := true } where
  written := hi.written
  threw := hi.threw
  idle := hi.idle
  empty := hi.empty
  failed := hi.failed
  thrown := hi.thrown
  unbundled := hi.unbundled
  woken := hi.woken.set

/-- The loop goes on, or leaves, after having waited. -/
theorem Inv.resume (hi : Inv version s h) (hphase : s.phase = .waiting) (phase : Phase)
    (hnext : phase = .running ∨ phase = .ended) :
    Inv version
      { s with phase := phase, sendReady := { s.sendReady with waiting := false, woken := none } }
      h where
  written := by
    intro hfresh _
    have hwritten := hi.written hfresh (by rw [hphase]; exact nofun)
    rw [State.pending, if_neg (by rw [hphase]; exact nofun)] at hwritten
    rw [State.pending, if_neg (by rcases hnext with rfl | rfl <;> exact nofun)]
    exact hwritten
  threw := hi.threw
  idle := fun _ => hi.idle (.inl hphase)
  empty := by
    rintro rfl
    exact hnext.elim (nomatch ·) (nomatch ·)
  failed := fun hfailed => nomatch hphase.symm.trans (hi.failed hfailed)
  thrown := by
    rintro rfl
    exact hnext.elim (nomatch ·) (nomatch ·)
  unbundled := hi.unbundled
  woken := hi.woken.resume (by rcases hnext with rfl | rfl <;> exact nofun)

theorem Inv.step {a : Action} (hi : Inv version s h) (hs : step version s a = some t) :
    Inv version t (note s a h) := by
  cases a with
  | pass answer wants started =>
    obtain ⟨hphase, ht⟩ := Option.ite_none_right_eq_some.mp hs
    obtain rfl := Option.some.inj ht
    have hquiet := hi.woken.quiet (by rw [hphase]; exact nofun)
    have hcleared : s.cleared started = { s with sendReady := ⟨started, false, none⟩ } := by
      rw [State.cleared, hquiet]
      cases started <;> rfl
    rw [hcleared]
    exact hi.pass hphase answer wants started
  | progress n =>
    obtain ⟨hphase, ht⟩ := Option.ite_none_right_eq_some.mp hs
    obtain rfl := Option.some.inj ht
    have hfresh := hi.fresh (by rw [hphase]; exact nofun)
    have hwritten : (s.written ++ s.rest.take n) ++ s.rest.drop n = h.produced := by
      have hpending := hi.written hfresh (by rw [hphase]; exact nofun)
      rw [State.pending, if_pos hphase] at hpending
      rw [List.append_assoc, List.take_append_drop]
      exact hpending
    refine ⟨?_, fun _ => ⟨_, hwritten⟩, hi.idle, hi.empty, hi.failed, hi.thrown, hi.unbundled,
      hi.woken⟩
    intro _ _
    rw [State.pending, if_pos hphase]
    exact hwritten
  | writeDone =>
    obtain ⟨⟨hphase, hrest⟩, ht⟩ := Option.ite_none_right_eq_some.mp hs
    obtain rfl := Option.some.inj ht
    have hfresh := hi.fresh (by rw [hphase]; exact nofun)
    have hwritten := hi.written hfresh (by rw [hphase]; exact nofun)
    rw [State.pending, if_pos hphase, hrest] at hwritten
    refine ⟨fun _ _ => hwritten, hi.threw, fun _ _ => rfl, (nomatch ·), ?_, (nomatch ·),
      fun _ => rfl, ?_⟩
    · exact fun htrue => nomatch hfresh.symm.trans htrue
    · exact hi.woken.move (by rw [hphase]; exact nofun) nofun
  | writeFailed =>
    obtain ⟨hphase, ht⟩ := Option.ite_none_right_eq_some.mp hs
    obtain rfl := Option.some.inj ht
    refine ⟨(nomatch ·), (nomatch ·), fun _ => (nomatch ·), (nomatch ·), fun _ => rfl,
      (nomatch ·), hi.unbundled, ?_⟩
    exact hi.woken.move (by rw [hphase]; exact nofun) nofun
  | startWrite =>
    obtain rfl := Option.some.inj hs
    exact hi.startWrite s.recvDone
  | recvDone =>
    obtain rfl := Option.some.inj hs
    exact hi.startWrite true
  | resume =>
    rw [SendLoop.step] at hs
    cases hwoken : s.sendReady.woken with
    | none =>
      rw [hwoken] at hs
      exact nomatch hs
    | some ec =>
      rw [hwoken] at hs
      have hne : s.sendReady.woken ≠ none := by
        rw [hwoken]
        exact nofun
      have hphase := hi.woken.waits.mp (.inr hne)
      have hresumed := hi.resume hphase (if ec = .success then .running else .ended)
        (by by_cases hec : ec = .success <;> simp [hec])
      rw [← hi.woken.once hne] at hresumed
      exact Option.some.inj hs ▸ hresumed
  | cancel =>
    obtain rfl := Option.some.inj hs
    exact ⟨hi.written, hi.threw, hi.idle, hi.empty, hi.failed, fun _ => .inl rfl, hi.unbundled,
      hi.woken.cancel⟩

theorem Inv.init : Inv version ({} : State capacity) {} :=
  Inv.of_quiet List.nil_prefix (fun _ => rfl) nofun nofun nofun rfl (fun _ => rfl) rfl

theorem inv_of_run {as : List Action}
    (hrun : run (noting note (step version)) (({} : State capacity), {}) as = some (s, h)) :
    Inv version s h :=
  noting_inv note (fun _ _ _ _ hi hs => hi.step hs) Inv.init hrun

/-- **No byte lost, no wake-up lost**: as long as no write fails, what has been written and what is
still to be written are the chunks of nghttp2, in their order; the loop waits only with nothing to
write, after an answer that was empty, and if there has been a `start_write()` since before that
call, it has been woken up; and where it has ended, everything has been written. It leaves by an
exception only for an error of nghttp2, or because it has been cancelled. -/
theorem sendLoop_ok {as : List Action}
    (hrun : run (noting note (step version)) (({} : State capacity), {}) as = some (s, h)) :
    s.sendFailed = false →
      (s.written <+: h.produced ∧
        (s.phase ≠ .threw → s.written ++ s.pending = h.produced)) ∧
      (s.phase = .waiting →
        s.buffer.data = [] ∧ h.last = some (.chunk []) ∧
          (h.started = true → s.sendReady.woken ≠ none)) ∧
      (s.phase = .ended → s.written = h.produced) ∧
      (s.phase = .threw → Thrown s h) := by
  intro hfresh
  have hi := inv_of_run hrun
  refine ⟨⟨hi.threw hfresh, hi.written hfresh⟩, ?_, ?_, hi.thrown⟩
  · intro hphase
    refine ⟨hi.idle (.inl hphase) hfresh, hi.empty hphase, ?_⟩
    intro hstarted
    refine (hi.woken.waits.mpr hphase).resolve_left fun hwaiting => ?_
    exact nomatch (hi.woken.unset hwaiting).symm.trans (hi.woken.latched hstarted)
  · intro hphase
    have hwritten := hi.written hfresh (by rw [hphase]; exact nofun)
    rw [State.pending, if_neg (by rw [hphase]; exact nofun), hi.idle (.inr hphase) hfresh,
      List.append_nil] at hwritten
    exact hwritten

/-- Two small chunks that are bundled, and a `start_write()` while they are being written. -/
theorem sendLoop_ok_bundled :
    ∃ (s : State 4) (h : History),
      s.phase = .waiting ∧ s.written = [1, 2, 3] ∧ h.produced = [1, 2, 3] ∧
        h.last = some (.chunk []) ∧ s.sendReady.woken ≠ none := by
  obtain ⟨⟨s, h⟩, hrun, hphase, hwritten, hfailed, hstarted⟩ : ∃ x : State 4 × History,
      run (noting note (step .v1)) (({} : State 4), {})
        [.pass (.chunk [1, 2]) true false, .pass (.chunk [3]) true false,
          .pass (.chunk []) true false, .progress 2, .startWrite, .progress 1, .writeDone,
          .pass (.chunk []) true false, .startWrite] = some x ∧
        x.1.phase = .waiting ∧ x.1.written = [1, 2, 3] ∧ x.1.sendFailed = false ∧
          x.2.started = true := ⟨_, rfl, rfl, rfl, rfl, rfl⟩
  obtain ⟨⟨_, hproduced⟩, hwaits, _⟩ := sendLoop_ok hrun hfailed
  obtain ⟨hbuffer, hlast, hwoken⟩ := hwaits hphase
  refine ⟨s, h, hphase, hwritten, ?_, hlast, hwoken hstarted⟩
  rw [← hproduced (by rw [hphase]; exact nofun), State.pending,
    if_neg (by rw [hphase]; exact nofun), hbuffer, List.append_nil]
  exact hwritten

end AnyHttp.H2.SendLoop
