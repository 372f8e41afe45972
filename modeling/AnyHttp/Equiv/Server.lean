import AnyHttp.Server

/-!
# The registry of a server, and its end

* `registry_iff`: `sessions_` holds nothing but sessions that are being served, throughout a run,
  exactly if nothing is ever thrown out of `do_session()` of a TCP connection that is registered.
* `shutdown_ok`: no session escapes `destroy()`, whatever is thrown, and `tcp_accept_loop()` ends
  with the last connection, and without losing a wake-up.

The second is one invariant (`Inv`).  Its heart is that a loop that waits and has not been woken up
has a task left that will: while the loop goes from looking at the counter to its wait, a `notify()`
leaves a wake-up in the channel.
-/

namespace AnyHttp.Server

open Lib

variable {s t : Server} {i : Nat} {task new : Task}

/-! ### Tasks -/

/-- The task has not been counted as completed. -/
def Task.counted (task : Task) : Bool :=
  task.kind == .tcp && task.phase != .completing && task.phase != .done

/-- The task has a `notify()` ahead of it. -/
def Task.Open (task : Task) : Prop := task.kind = .tcp ∧ task.phase ≠ .done

/-- The task has a session, which is or has been registered, and has not left it. -/
def Task.Running (task : Task) : Prop := task.phase = .serving ∨ task.phase = .leaving

instance : DecidablePred Task.Running := fun _ => inferInstanceAs (Decidable (_ ∨ _))

/-- A task that is still there after another one has moved. -/
theorem open_move (hi : s.tasks[i]? = some task) (hnew : task.Open → new.Open)
    (h : ∃ task ∈ s.tasks, task.Open) : ∃ task ∈ (s.move i new).tasks, task.Open := by
  obtain ⟨other, hmem, hopen⟩ := h
  obtain ⟨j, hj⟩ := List.mem_iff_getElem?.mp hmem
  by_cases hji : j = i
  · subst hji
    obtain rfl := Option.some.inj (hi.symm.trans hj)
    have hset := (getElem?_set_eq_some (b := new) hi).mpr (.inl ⟨rfl, rfl⟩)
    exact ⟨new, List.mem_of_getElem? hset, hnew hopen⟩
  · have hset := (getElem?_set_eq_some (b := new) hi).mpr (.inr ⟨hji, hj⟩)
    exact ⟨other, List.mem_of_getElem? hset, hopen⟩

/-- How the number of counted tasks changes. -/
theorem countP_move (hi : s.tasks[i]? = some task) (new : Task) :
    (s.move i new).tasks.countP Task.counted + (if task.counted then 1 else 0) =
      s.tasks.countP Task.counted + (if new.counted then 1 else 0) := by
  obtain ⟨hlt, rfl⟩ := List.getElem?_eq_some_iff.mp hi
  have hpos : s.tasks[i].counted = true → 0 < s.tasks.countP Task.counted := by
    intro hcounted
    exact List.countP_pos_iff.mpr ⟨_, List.getElem_mem hlt, hcounted⟩
  show (s.tasks.set i new).countP Task.counted + _ = _
  rw [List.countP_set hlt]
  -- only a task that is counted can stop to be so
  by_cases hcounted : s.tasks[i].counted = true
  · have hpos := hpos hcounted
    simp only [hcounted, if_true]
    omega
  · simp only [hcounted]
    simp

/-! ### The invariant -/

structure Inv (s : Server) : Prop where
  counter : s.sessionCounter = s.tasks.countP Task.counted
  locked : ∀ i, s.tasks[i]? = some ⟨.tcp, .completing⟩ → s.locked = some i
  /-- Who is served is registered, or has been told. -/
  served : ∀ i task, s.tasks[i]? = some task → task.Running → i ∈ s.sessions ∨ i ∈ s.told
  destroyed : s.destroyed = true → ∀ i ∈ s.sessions, i ∈ s.told
  returned : s.loop = .returned → ∀ task ∈ s.tasks, ¬ task.Open
  unlocked : s.loop = .unlocked → s.sessionDone.pending = true ∨ ∃ task ∈ s.tasks, task.Open
  waiting : s.loop = .waiting → s.sessionDone.woken = true ∨
    s.sessionDone.waiting = true ∧ ∃ task ∈ s.tasks, task.Open
  waiter : s.sessionDone.waiting = true → s.loop = .waiting ∧ s.sessionDone.woken = false
  woken : s.sessionDone.woken = true → s.loop = .waiting

theorem Inv.init : Inv {} where
  counter := rfl
  locked := nofun
  served := nofun
  destroyed := nofun
  returned := nofun
  unlocked := nofun
  waiting := nofun
  waiter := nofun
  woken := nofun

/-- A task goes on to a phase in which it still has its completion ahead of it. -/
theorem Inv.move (h : Inv s) (hi : s.tasks[i]? = some task) (hopen : task.Open ↔ new.Open)
    (hcounted : new.counted = task.counted) (hrunning : new.Running → i ∈ s.sessions ∨ i ∈ s.told)
    (hcompleting : new ≠ ⟨.tcp, .completing⟩) : Inv (s.move i new) where
  counter := by
    have hcount := countP_move hi new
    rw [hcounted] at hcount
    show s.sessionCounter = (s.move i new).tasks.countP Task.counted
    rw [h.counter]
    omega
  locked := by
    intro j hj
    obtain ⟨_, heq⟩ | ⟨_, hj⟩ := (getElem?_set_eq_some hi).mp hj
    · exact absurd heq hcompleting
    · exact h.locked j hj
  served := by
    intro j other hj hother
    obtain ⟨rfl, rfl⟩ | ⟨_, hj⟩ := (getElem?_set_eq_some hi).mp hj
    · exact hrunning hother
    · exact h.served j other hj hother
  destroyed := h.destroyed
  returned := by
    intro hloop other hmem
    rcases List.mem_or_eq_of_mem_set hmem with hmem | rfl
    · exact h.returned hloop other hmem
    · exact fun hnew => h.returned hloop task (List.mem_of_getElem? hi) (hopen.mpr hnew)
  unlocked := fun hloop => (h.unlocked hloop).imp_right (open_move hi hopen.mp)
  waiting := fun hloop => (h.waiting hloop).imp_right fun hw => ⟨hw.1, open_move hi hopen.mp hw.2⟩
  waiter := h.waiter
  woken := h.woken

/-- A session is told to destroy itself. -/
theorem Inv.tell (h : Inv s) (ids : List Nat) : Inv { s with told := ids ++ s.told } where
  counter := h.counter
  locked := h.locked
  served := fun j other hj hother =>
    (h.served j other hj hother).imp_right (List.mem_append_right ids)
  destroyed := fun hd j hj => List.mem_append_right ids (h.destroyed hd j hj)
  returned := h.returned
  unlocked := h.unlocked
  waiting := h.waiting
  waiter := h.waiter
  woken := h.woken

theorem Inv.addSession (h : Inv s) (hd : s.destroyed = false) (i : Nat) :
    Inv { s with sessions := i :: s.sessions } where
  counter := h.counter
  locked := h.locked
  served := fun j other hj hother =>
    (h.served j other hj hother).imp_left (List.mem_cons_of_mem i)
  destroyed := fun htrue => by cases hd.symm.trans htrue
  returned := h.returned
  unlocked := h.unlocked
  waiting := h.waiting
  waiter := h.waiter
  woken := h.woken

/-- A session leaves the registry, and is no longer served. -/
theorem Inv.removeSession (h : Inv s) (hi : ∀ task, s.tasks[i]? = some task → ¬ task.Running) :
    Inv (s.removeSession i) where
  counter := h.counter
  locked := h.locked
  served := by
    intro j other hj hother
    refine (h.served j other hj hother).imp_left fun hmem => ?_
    refine List.mem_filter.mpr ⟨hmem, decide_eq_true ?_⟩
    rintro rfl
    exact hi other hj hother
  destroyed := fun hd j hj => h.destroyed hd j (List.mem_filter.mp hj).1
  returned := h.returned
  unlocked := h.unlocked
  waiting := h.waiting
  waiter := h.waiter
  woken := h.woken

/-- The callback of a task counts it. -/
theorem Inv.complete (h : Inv s) (hi : s.tasks[i]? = some ⟨.tcp, .ended⟩)
    (hlock : s.locked = none) :
    Inv ({ s with sessionCounter := s.sessionCounter - 1, locked := some i }.move i
      ⟨.tcp, .completing⟩) where
  counter := by
    have hcount := countP_move hi ⟨.tcp, .completing⟩
    have hcounted : Task.counted ⟨.tcp, .ended⟩ = true := rfl
    have hnot : Task.counted ⟨.tcp, .completing⟩ = false := rfl
    rw [hcounted, hnot, if_pos rfl, if_neg Bool.false_ne_true] at hcount
    show s.sessionCounter - 1 = (s.move i ⟨.tcp, .completing⟩).tasks.countP Task.counted
    rw [h.counter]
    omega
  locked := by
    intro j hj
    obtain ⟨rfl, _⟩ | ⟨_, hj⟩ := (getElem?_set_eq_some hi).mp hj
    · rfl
    · have hold := h.locked j hj
      rw [hlock] at hold
      exact nomatch hold
  served := by
    intro j other hj hother
    obtain ⟨_, rfl⟩ | ⟨_, hj⟩ := (getElem?_set_eq_some hi).mp hj
    · exact hother.elim (nomatch ·) (nomatch ·)
    · exact h.served j other hj hother
  destroyed := h.destroyed
  returned := fun hloop => absurd ⟨rfl, nofun⟩ (h.returned hloop _ (List.mem_of_getElem? hi))
  unlocked := fun hloop => (h.unlocked hloop).imp_right (open_move hi fun _ => ⟨rfl, nofun⟩)
  waiting := fun hloop => (h.waiting hloop).imp_right fun hw =>
    ⟨hw.1, open_move hi (fun _ => ⟨rfl, nofun⟩) hw.2⟩
  waiter := h.waiter
  woken := h.woken

/-- The callback wakes up the loop, or leaves a wake-up for it. -/
theorem Inv.notify (h : Inv s) (hi : s.tasks[i]? = some ⟨.tcp, .completing⟩) :
    Inv ({ s with sessionDone := s.sessionDone.notify, locked := none }.move i ⟨.tcp, .done⟩) where
  counter := by
    have hcount := countP_move hi ⟨.tcp, .done⟩
    have hnot : Task.counted ⟨.tcp, .completing⟩ = false := rfl
    have hnot' : Task.counted ⟨.tcp, .done⟩ = false := rfl
    rw [hnot, hnot', if_neg Bool.false_ne_true] at hcount
    show s.sessionCounter = (s.move i ⟨.tcp, .done⟩).tasks.countP Task.counted
    rw [h.counter]
    omega
  locked := by
    intro j hj
    obtain ⟨_, heq⟩ | ⟨hji, hj⟩ := (getElem?_set_eq_some hi).mp hj
    · cases heq
    · have hsame := (h.locked j hj).symm.trans (h.locked i hi)
      exact absurd (Option.some.inj hsame) hji
  served := by
    intro j other hj hother
    obtain ⟨_, rfl⟩ | ⟨_, hj⟩ := (getElem?_set_eq_some hi).mp hj
    · exact hother.elim nofun nofun
    · exact h.served j other hj hother
  destroyed := h.destroyed
  returned := fun hloop => absurd ⟨rfl, nofun⟩ (h.returned hloop _ (List.mem_of_getElem? hi))
  unlocked := by
    intro (hloop : s.loop = .unlocked)
    left
    apply Signal.notify_pending
    by_contra hwaiting
    have hphase := (h.waiter (Bool.eq_true_of_not_eq_false hwaiting)).1
    rw [hloop] at hphase
    cases hphase
  waiting := by
    intro hloop
    left
    show s.sessionDone.notify.woken = true
    rw [Signal.notify_woken]
    -- the loop has been woken before, or is now
    rcases h.waiting hloop with hwoken | ⟨hwaiting, _⟩
    · rw [hwoken, ite_self]
    · rw [if_pos hwaiting]
  waiter := fun hwaiting => by cases (Signal.notify_waiting s.sessionDone).symm.trans hwaiting
  woken := by
    intro (hwoken : s.sessionDone.notify.woken = true)
    show s.loop = .waiting
    rw [Signal.notify_woken] at hwoken
    split at hwoken
    · rename_i hwaiting
      exact (h.waiter hwaiting).1
    · exact h.woken hwoken

/-! ### Any step -/

/-- What the task of a session does, other than to complete, leaves it to be completed. -/
theorem open_iff {kind : Kind} {phase phase' : Phase} (h : phase ≠ .done) (h' : phase' ≠ .done) :
    Task.Open ⟨kind, phase⟩ ↔ Task.Open ⟨kind, phase'⟩ :=
  ⟨fun hopen => ⟨hopen.1, h'⟩, fun hopen => ⟨hopen.1, h⟩⟩

theorem open_iff_quic {phase phase' : Phase} :
    Task.Open ⟨.quic, phase⟩ ↔ Task.Open ⟨.quic, phase'⟩ :=
  ⟨fun hopen => (nomatch hopen.1), fun hopen => (nomatch hopen.1)⟩

theorem not_running {kind : Kind} {phase : Phase} {p : Prop} (h : phase ≠ .serving)
    (h' : phase ≠ .leaving) (hr : Task.Running ⟨kind, phase⟩) : p :=
  hr.elim (absurd · h) (absurd · h')

theorem Inv.taskStep {a : Action} (h : Inv s) (hi : s.tasks[i]? = some task)
    (hs : s.taskStep i task a = some t) : Inv t := by
  cases a with
  | detected _ =>
    simp only [Server.taskStep] at hs
    split at hs
    · obtain rfl := Option.some.inj hs
      exact h.move hi (open_iff nofun nofun) rfl (not_running nofun nofun) nofun
    · exact nomatch hs
  | addSession _ =>
    obtain ⟨kind, phase⟩ := task
    obtain ⟨⟨rfl, hlock⟩, ht⟩ := Option.ite_none_right_eq_some.mp hs
    unfold Server.addSession at ht
    -- a session that comes too late is refused
    by_cases hd : s.destroyed = true
    · rw [if_pos hd] at ht
      obtain rfl := Option.some.inj ht
      exact h.move hi (open_iff nofun nofun) (by cases kind <;> rfl) (not_running nofun nofun)
        nofun
    · rw [if_neg hd] at ht
      obtain rfl := Option.some.inj ht
      exact (h.addSession (Bool.eq_false_iff.mpr hd) i).move hi (open_iff nofun nofun)
        (by cases kind <;> rfl) (fun _ => .inl List.mem_cons_self) nofun
  | drop _ =>
    simp only [Server.taskStep] at hs
    split at hs
    · obtain rfl := Option.some.inj hs
      exact (h.tell [i]).move hi (open_iff nofun nofun) rfl (not_running nofun nofun) nofun
    · obtain rfl := Option.some.inj hs
      exact (h.tell [i]).move hi open_iff_quic rfl (not_running nofun nofun) nofun
    · exact nomatch hs
  | finish _ =>
    obtain ⟨kind, phase⟩ := task
    obtain ⟨rfl, ht⟩ := Option.ite_none_right_eq_some.mp hs
    obtain rfl := Option.some.inj ht
    exact h.move hi (open_iff nofun nofun) (by cases kind <;> rfl)
      (fun _ => h.served i _ hi (.inl rfl)) nofun
  | throws _ =>
    simp only [Server.taskStep] at hs
    split at hs
    · obtain rfl := Option.some.inj hs
      exact h.move hi (open_iff nofun nofun) rfl (not_running nofun nofun) nofun
    · obtain rfl := Option.some.inj hs
      exact h.move hi (open_iff nofun nofun) rfl (not_running nofun nofun) nofun
    · obtain rfl := Option.some.inj hs
      exact h.move hi (open_iff nofun nofun) rfl (not_running nofun nofun) nofun
    · obtain rfl := Option.some.inj hs
      exact h.move hi (open_iff nofun nofun) rfl (fun _ => h.served i _ hi (.inl rfl)) nofun
    · exact nomatch hs
  | removeSession _ =>
    obtain ⟨hlock, hs⟩ := Option.ite_none_right_eq_some.mp hs
    have hleft : ∀ (new : Task), ¬ new.Running →
        ∀ task, (s.move i new).tasks[i]? = some task → ¬ task.Running := by
      intro new hnew other hother
      obtain ⟨_, rfl⟩ | ⟨hne, _⟩ := (getElem?_set_eq_some hi).mp hother
      · exact hnew
      · exact absurd rfl hne
    split at hs
    · obtain rfl := Option.some.inj hs
      have hmoved : Inv (s.move i ⟨.tcp, .ended⟩) :=
        h.move hi (open_iff nofun nofun) rfl (not_running nofun nofun) nofun
      exact hmoved.removeSession (hleft _ (not_running nofun nofun))
    · obtain rfl := Option.some.inj hs
      have hmoved : Inv (s.move i ⟨.quic, .done⟩) :=
        h.move hi open_iff_quic rfl (not_running nofun nofun) nofun
      exact hmoved.removeSession (hleft _ (not_running nofun nofun))
    · exact nomatch hs
  | complete _ =>
    obtain ⟨⟨rfl, hlock⟩, ht⟩ := Option.ite_none_right_eq_some.mp hs
    obtain rfl := Option.some.inj ht
    exact h.complete hi hlock
  | notify _ =>
    obtain ⟨rfl, ht⟩ := Option.ite_none_right_eq_some.mp hs
    obtain rfl := Option.some.inj ht
    exact h.notify hi
  | accept => exact nomatch hs
  | acceptFails => exact nomatch hs
  | initial => exact nomatch hs
  | destroy => exact nomatch hs
  | sweep => exact nomatch hs
  | wait => exact nomatch hs
  | spurious => exact nomatch hs

theorem Inv.add (h : Inv s) (task : Task) (hphase : ¬ task.Running)
    (hcompleting : task ≠ ⟨.tcp, .completing⟩) {counter : Nat}
    (hcounter : counter = s.sessionCounter + if task.counted then 1 else 0)
    (hreturned : s.loop = .returned → ¬ task.Open) :
    Inv { s with tasks := s.tasks ++ [task], sessionCounter := counter } where
  counter := by
    show counter = (s.tasks ++ [task]).countP Task.counted
    rw [hcounter, h.counter, List.countP_append, List.countP_singleton]
  locked := by
    intro j hj
    -- a task that was there, or the new one
    rcases getElem?_concat_eq_some hj with hj | ⟨_, heq⟩
    · exact h.locked j hj
    · exact absurd heq hcompleting
  served := by
    intro j other hj hother
    rcases getElem?_concat_eq_some hj with hj | ⟨_, rfl⟩
    · exact h.served j other hj hother
    · exact absurd hother hphase
  destroyed := h.destroyed
  returned := by
    intro hloop other hmem
    rcases List.mem_append.mp hmem with hmem | hmem
    · exact h.returned hloop other hmem
    · rw [List.mem_singleton.mp hmem]
      exact hreturned hloop
  unlocked := fun hloop => (h.unlocked hloop).imp_right
    fun ⟨other, hmem, hopen⟩ => ⟨other, List.mem_append_left _ hmem, hopen⟩
  waiting := fun hloop => (h.waiting hloop).imp_right
    fun ⟨hwaiting, other, hmem, hopen⟩ => ⟨hwaiting, other, List.mem_append_left _ hmem, hopen⟩
  waiter := h.waiter
  woken := h.woken

/-- The loop moves on without looking at the registry. -/
theorem Inv.loop (h : Inv s) (loop : LoopPhase) (signal : Signal)
    (hreturned : loop = .returned → ∀ task ∈ s.tasks, ¬ task.Open)
    (hunlocked : loop = .unlocked → signal.pending = true ∨ ∃ task ∈ s.tasks, task.Open)
    (hwaiting : loop = .waiting → signal.woken = true ∨
      signal.waiting = true ∧ ∃ task ∈ s.tasks, task.Open)
    (hwaiter : signal.waiting = true → loop = .waiting ∧ signal.woken = false)
    (hwoken : signal.woken = true → loop = .waiting) :
    Inv { s with loop := loop, sessionDone := signal } where
  counter := h.counter
  locked := h.locked
  served := h.served
  destroyed := h.destroyed
  returned := hreturned
  unlocked := hunlocked
  waiting := hwaiting
  waiter := hwaiter
  woken := hwoken

/-- The lock is free, and nothing is counted: everything has completed. -/
theorem Inv.all_done (h : Inv s) (hlock : s.locked = none) (hzero : s.sessionCounter = 0) :
    ∀ task ∈ s.tasks, ¬ task.Open := by
  rintro ⟨kind, phase⟩ hmem ⟨rfl, hphase⟩
  have hcounted : Task.counted ⟨.tcp, phase⟩ = false := by
    rw [h.counter] at hzero
    exact Bool.eq_false_iff.mpr (List.countP_eq_zero.mp hzero _ hmem)
  obtain ⟨i, hi⟩ := List.mem_iff_getElem?.mp hmem
  cases phase with
  | completing => exact nomatch hlock.symm.trans (h.locked i hi)
  | done => exact hphase rfl
  | _ => exact nomatch hcounted

theorem Inv.some_open (h : Inv s) (hne : s.sessionCounter ≠ 0) : ∃ task ∈ s.tasks, task.Open := by
  rw [h.counter] at hne
  obtain ⟨⟨kind, phase⟩, hmem, hcounted⟩ := List.countP_pos_iff.mp (Nat.pos_of_ne_zero hne)
  refine ⟨_, hmem, ?_⟩
  rw [Task.counted, Bool.and_eq_true, Bool.and_eq_true] at hcounted
  exact ⟨eq_of_beq hcounted.1.1, bne_iff_ne.mp hcounted.2⟩

theorem Inv.step {a : Action} (h : Inv s) (hs : step s a = some t) : Inv t := by
  cases a with
  | accept =>
    obtain ⟨⟨hloop, hlock⟩, ht⟩ := Option.ite_none_right_eq_some.mp hs
    obtain rfl := Option.some.inj ht
    refine h.add ⟨.tcp, .detecting⟩ (not_running nofun nofun) nofun rfl fun hreturned => ?_
    cases hloop.symm.trans hreturned
  | acceptFails =>
    obtain ⟨hloop, ht⟩ := Option.ite_none_right_eq_some.mp hs
    obtain rfl := Option.some.inj ht
    refine h.loop .terminated s.sessionDone nofun nofun nofun ?_ ?_
    · exact fun hwaiting => by cases hloop.symm.trans (h.waiter hwaiting).1
    · exact fun hwoken => by cases hloop.symm.trans (h.woken hwoken)
  | initial =>
    obtain rfl := Option.some.inj hs
    exact h.add ⟨.quic, .registering⟩ (not_running nofun nofun) nofun rfl
      fun _ hopen => by cases hopen.1
  | destroy =>
    obtain ⟨hlock, ht⟩ := Option.ite_none_right_eq_some.mp hs
    obtain rfl := Option.some.inj ht
    have htold := h.tell s.sessions
    exact ⟨htold.counter, htold.locked, htold.served,
      fun _ j hj => List.mem_append_left _ hj, htold.returned, htold.unlocked, htold.waiting,
      htold.waiter, htold.woken⟩
  | sweep =>
    obtain ⟨⟨hloop, hlock⟩, ht⟩ := Option.ite_none_right_eq_some.mp hs
    have hwaiter : s.sessionDone.waiting = false := by
      by_contra hwaiting
      obtain ⟨hphase, hwoken⟩ := h.waiter (Bool.eq_true_of_not_eq_false hwaiting)
      rcases hloop with hloop | ⟨_, hloop⟩
      · cases hloop.symm.trans hphase
      · cases hwoken.symm.trans hloop
    split at ht
    · rename_i hzero
      obtain rfl := Option.some.inj ht
      refine h.loop .returned s.sessionDone.resume (fun _ => h.all_done hlock hzero) nofun nofun ?_
        nofun
      exact fun hwaiting => by cases hwaiter.symm.trans hwaiting
    · rename_i hne
      obtain rfl := Option.some.inj ht
      have hmoved := h.loop .unlocked s.sessionDone.resume nofun (fun _ => .inr (h.some_open hne))
        nofun (fun hwaiting => by cases hwaiter.symm.trans hwaiting) nofun
      -- what was registered has been told, and the registry is empty
      have htold := hmoved.tell s.sessions
      refine ⟨htold.counter, htold.locked, ?_, fun _ j hj => absurd hj List.not_mem_nil,
        htold.returned, htold.unlocked, htold.waiting, htold.waiter, htold.woken⟩
      intro j other hj hother
      rcases h.served j other hj hother with hmem | hmem
      · exact .inr (List.mem_append_left _ hmem)
      · exact .inr (List.mem_append_right _ hmem)
  | wait =>
    obtain ⟨hloop, ht⟩ := Option.ite_none_right_eq_some.mp hs
    obtain rfl := Option.some.inj ht
    have hwoken : s.sessionDone.woken = false := by
      by_contra hwoken
      cases hloop.symm.trans (h.woken (Bool.eq_true_of_not_eq_false hwoken))
    have hwaiting : s.sessionDone.waiting = false := by
      by_contra hwaiting
      cases hloop.symm.trans (h.waiter (Bool.eq_true_of_not_eq_false hwaiting)).1
    refine h.loop .waiting s.sessionDone.wait nofun nofun ?_ ?_ (fun _ => rfl)
    · intro _
      rw [Signal.wait]
      split
      · exact .inl rfl
      · rename_i hpending
        exact .inr ⟨rfl, (h.unlocked hloop).resolve_left hpending⟩
    · rw [Signal.wait]
      split
      · exact fun htrue => by cases hwaiting.symm.trans htrue
      · exact fun _ => ⟨rfl, hwoken⟩
  | spurious =>
    obtain ⟨⟨hloop, _⟩, ht⟩ := Option.ite_none_right_eq_some.mp hs
    obtain rfl := Option.some.inj ht
    refine h.loop s.loop _ h.returned h.unlocked ?_ nofun (fun _ => hloop)
    exact fun _ => .inl rfl
  | detected i | addSession i | drop i | finish i | throws i | removeSession i | complete i
  | notify i =>
    obtain ⟨task, hi, ht⟩ := Option.bind_eq_some_iff.mp hs
    exact h.taskStep hi ht

theorem inv_of_run {as : List Action} (hrun : run step {} as = some s) : Inv s :=
  run_inv (fun _ _ _ h hs => h.step hs) Inv.init hrun

/-! ### What stays as it is -/

/-- A task that does something leaves the others alone, and a refused session is destroyed. -/
theorem taskStep_frame {a : Action} (hs : s.taskStep i task a = some t) :
    t.destroyed = s.destroyed ∧ s.told ⊆ t.told ∧
      (∃ new, t.tasks = s.tasks.set i new) ∧ (task.phase = .refused → i ∈ t.told) := by
  cases a with
  | addSession _ =>
    obtain ⟨⟨hphase, _⟩, ht⟩ := Option.ite_none_right_eq_some.mp hs
    unfold Server.addSession at ht
    split at ht
    · rename_i heq
      split at heq
      · cases (Prod.mk.inj heq).2
      · obtain rfl := (Prod.mk.inj heq).1
        obtain rfl := Option.some.inj ht
        exact ⟨rfl, List.Subset.refl _, ⟨_, rfl⟩, fun hr => by cases hphase.symm.trans hr⟩
    · rename_i heq
      split at heq
      · obtain rfl := (Prod.mk.inj heq).1
        obtain rfl := Option.some.inj ht
        exact ⟨rfl, List.Subset.refl _, ⟨_, rfl⟩, fun hr => by cases hphase.symm.trans hr⟩
      · cases (Prod.mk.inj heq).2
  | drop _ =>
    simp only [Server.taskStep] at hs
    split at hs
    · obtain rfl := Option.some.inj hs
      exact ⟨rfl, List.subset_cons_self _ _, ⟨_, rfl⟩, fun _ => List.mem_cons_self⟩
    · obtain rfl := Option.some.inj hs
      exact ⟨rfl, List.subset_cons_self _ _, ⟨_, rfl⟩, fun _ => List.mem_cons_self⟩
    · cases hs
  | finish _ =>
    obtain ⟨hphase, ht⟩ := Option.ite_none_right_eq_some.mp hs
    obtain rfl := Option.some.inj ht
    exact ⟨rfl, List.Subset.refl _, ⟨_, rfl⟩, fun hr => by cases hphase.symm.trans hr⟩
  | complete _ =>
    obtain ⟨⟨rfl, _⟩, ht⟩ := Option.ite_none_right_eq_some.mp hs
    obtain rfl := Option.some.inj ht
    exact ⟨rfl, List.Subset.refl _, ⟨_, rfl⟩, nofun⟩
  | notify _ =>
    obtain ⟨rfl, ht⟩ := Option.ite_none_right_eq_some.mp hs
    obtain rfl := Option.some.inj ht
    exact ⟨rfl, List.Subset.refl _, ⟨_, rfl⟩, nofun⟩
  | removeSession _ =>
    obtain ⟨_, ht⟩ := Option.ite_none_right_eq_some.mp hs
    split at ht
    · obtain rfl := Option.some.inj ht
      exact ⟨rfl, List.Subset.refl _, ⟨_, rfl⟩, nofun⟩
    · obtain rfl := Option.some.inj ht
      exact ⟨rfl, List.Subset.refl _, ⟨_, rfl⟩, nofun⟩
    · cases ht
  | detected _ =>
    simp only [Server.taskStep] at hs
    split at hs
    · obtain rfl := Option.some.inj hs
      exact ⟨rfl, List.Subset.refl _, ⟨_, rfl⟩, nofun⟩
    · cases hs
  | throws _ =>
    simp only [Server.taskStep] at hs
    split at hs
    · obtain rfl := Option.some.inj hs
      exact ⟨rfl, List.Subset.refl _, ⟨_, rfl⟩, nofun⟩
    · obtain rfl := Option.some.inj hs
      exact ⟨rfl, List.Subset.refl _, ⟨_, rfl⟩, nofun⟩
    · obtain rfl := Option.some.inj hs
      exact ⟨rfl, List.Subset.refl _, ⟨_, rfl⟩, nofun⟩
    · obtain rfl := Option.some.inj hs
      exact ⟨rfl, List.Subset.refl _, ⟨_, rfl⟩, nofun⟩
    · cases hs
  | _ => cases hs

/-- The task that an action is about, if any. -/
def Action.task? : Action → Option Nat
  | .detected i | .addSession i | .drop i | .finish i | .throws i | .removeSession i
  | .complete i | .notify i => some i
  | _ => none

theorem step_of_task {a : Action} (ha : a.task? = some i) :
    step s a = s.tasks[i]?.bind fun task => s.taskStep i task a := by
  cases a with
  | detected _ | addSession _ | drop _ | finish _ | throws _ | removeSession _ | complete _
  | notify _ =>
    obtain rfl := Option.some.inj ha
    rfl
  | _ => exact nomatch ha

/-- Any other step has nothing to do with the tasks there are. -/
theorem step_frame {a : Action} (ha : a.task? = none) (hs : step s a = some t) :
    (s.destroyed = true → t.destroyed = true) ∧ s.told ⊆ t.told ∧ s.tasks <+: t.tasks := by
  cases a with
  | initial =>
    obtain rfl := Option.some.inj hs
    exact ⟨id, List.Subset.refl _, List.prefix_append _ _⟩
  | accept =>
    obtain ⟨_, ht⟩ := Option.ite_none_right_eq_some.mp hs
    obtain rfl := Option.some.inj ht
    exact ⟨id, List.Subset.refl _, List.prefix_append _ _⟩
  | destroy =>
    obtain ⟨_, ht⟩ := Option.ite_none_right_eq_some.mp hs
    obtain rfl := Option.some.inj ht
    exact ⟨fun _ => rfl, List.subset_append_right _ _, List.prefix_refl _⟩
  | sweep =>
    obtain ⟨_, ht⟩ := Option.ite_none_right_eq_some.mp hs
    split at ht
    · obtain rfl := Option.some.inj ht
      exact ⟨id, List.Subset.refl _, List.prefix_refl _⟩
    · obtain rfl := Option.some.inj ht
      exact ⟨id, List.subset_append_right _ _, List.prefix_refl _⟩
  | acceptFails | wait | spurious =>
    obtain ⟨_, ht⟩ := Option.ite_none_right_eq_some.mp hs
    obtain rfl := Option.some.inj ht
    exact ⟨id, List.Subset.refl _, List.prefix_refl _⟩
  | _ => exact nomatch ha

theorem sessions_of_step {a : Action} (ha : a.task? = none) (hs : step s a = some t) :
    ∀ i ∈ t.sessions, i ∈ s.sessions := by
  intro i hi
  cases a with
  | initial =>
    obtain rfl := Option.some.inj hs
    exact hi
  | sweep =>
    obtain ⟨_, ht⟩ := Option.ite_none_right_eq_some.mp hs
    split at ht
    · obtain rfl := Option.some.inj ht
      exact hi
    · obtain rfl := Option.some.inj ht
      exact absurd hi List.not_mem_nil
  | accept | destroy | acceptFails | wait | spurious =>
    obtain ⟨_, ht⟩ := Option.ite_none_right_eq_some.mp hs
    obtain rfl := Option.some.inj ht
    exact hi
  | _ => exact nomatch ha

theorem step_mono {a : Action} (hs : step s a = some t) :
    (s.destroyed = true → t.destroyed = true) ∧ s.told ⊆ t.told := by
  cases ha : a.task? with
  | none =>
    obtain ⟨hdestroyed, htold, _⟩ := step_frame ha hs
    exact ⟨hdestroyed, htold⟩
  | some i =>
    rw [step_of_task ha] at hs
    obtain ⟨task, _, hs⟩ := Option.bind_eq_some_iff.mp hs
    obtain ⟨hdestroyed, htold, _⟩ := taskStep_frame hs
    exact ⟨fun h => hdestroyed.trans h, htold⟩

/-- A refused session is destroyed by the task that has made it. -/
theorem step_refused {a : Action} {kind : Kind} (hi : s.tasks[i]? = some ⟨kind, .refused⟩)
    (hs : step s a = some t) : t.tasks[i]? = some ⟨kind, .refused⟩ ∨ i ∈ t.told := by
  -- the server, or one of the tasks
  cases ha : a.task? with
  | none =>
    obtain ⟨_, _, htasks⟩ := step_frame ha hs
    exact .inl (getElem?_eq_some_mono htasks hi)
  | some j =>
    rw [step_of_task ha] at hs
    obtain ⟨task, hj, hs⟩ := Option.bind_eq_some_iff.mp hs
    obtain ⟨_, _, ⟨new, htasks⟩, htold⟩ := taskStep_frame hs
    -- the task itself can only go on to `destroy()`
    by_cases hji : i = j
    · subst hji
      obtain rfl := Option.some.inj (hi.symm.trans hj)
      exact .inr (htold rfl)
    · left
      rw [htasks]
      exact (getElem?_set_eq_some hj).mpr (.inr ⟨hji, hi⟩)

theorem drop_possible {kind : Kind} (hi : s.tasks[i]? = some ⟨kind, .refused⟩) :
    ∃ t, step s (.drop i) = some t := by
  rw [step_of_task rfl, hi]
  cases kind with
  | tcp => exact ⟨_, rfl⟩
  | quic => exact ⟨_, rfl⟩

/-- Once the server is destroyed, nothing is registered any more. -/
theorem addSession_refused (hd : s.destroyed = true) (hs : step s (.addSession i) = some t) :
    t.sessions = s.sessions ∧ ∃ kind, t.tasks[i]? = some ⟨kind, .refused⟩ := by
  rw [step_of_task rfl] at hs
  obtain ⟨task, hi, hs⟩ := Option.bind_eq_some_iff.mp hs
  obtain ⟨_, ht⟩ := Option.ite_none_right_eq_some.mp hs
  unfold Server.addSession at ht
  rw [if_pos hd] at ht
  obtain rfl := Option.some.inj ht
  exact ⟨rfl, task.kind, (getElem?_set_eq_some hi).mpr (.inl ⟨rfl, rfl⟩)⟩

/-! ### Shutting down -/

/-- **No session escapes.** After `destroy()`, whatever has happened before and happens after it:
the sessions it has found have been told, nobody can register any more, a session that is refused
stays with its creator until that has destroyed it, and whoever is being served has been told. And
at any time: a loop that has returned has left no task behind, and one that is about to wait, or
waits, finds a wake-up or has one coming. -/
theorem shutdown_ok {as : List Action} (hrun : run step {} as = some s) :
    (∀ bs t, run step s (.destroy :: bs) = some t →
      (∀ i ∈ s.sessions, i ∈ t.told) ∧
      (∀ i u, step t (.addSession i) = some u →
        u.sessions = t.sessions ∧ ∃ kind, u.tasks[i]? = some ⟨kind, .refused⟩) ∧
      (∀ i kind, t.tasks[i]? = some ⟨kind, .refused⟩ →
        (∃ u, step t (.drop i) = some u) ∧
        ∀ a u, step t a = some u → u.tasks[i]? = some ⟨kind, .refused⟩ ∨ i ∈ u.told) ∧
      ∀ i task, t.tasks[i]? = some task → task.Running → i ∈ t.told) ∧
    (s.loop = .returned → ∀ task ∈ s.tasks, task.kind = .tcp → task.phase = .done) ∧
    (s.loop = .unlocked → s.sessionDone.pending = true ∨ ∃ task ∈ s.tasks, task.Open) ∧
    (s.loop = .waiting → s.sessionDone.woken = true ∨
      s.sessionDone.waiting = true ∧ ∃ task ∈ s.tasks, task.Open) := by
  have hi := inv_of_run hrun
  refine ⟨?_, ?_, hi.unlocked, hi.waiting⟩
  · intro bs t hafter
    have ht := inv_of_run (run_trans hrun hafter)
    obtain ⟨u, hdestroy, hafter⟩ := run_cons_eq_some.mp hafter
    obtain ⟨_, hu⟩ := Option.ite_none_right_eq_some.mp hdestroy
    obtain ⟨hd, htold⟩ : t.destroyed = true ∧ ∀ i ∈ s.sessions, i ∈ t.told := by
      refine run_inv (P := fun t : Server => t.destroyed = true ∧ ∀ i ∈ s.sessions, i ∈ t.told)
        ?_ ?_ hafter
      · intro v a w hv hs
        obtain ⟨hdestroyed, htold⟩ := step_mono hs
        exact ⟨hdestroyed hv.1, fun i hmem => htold (hv.2 i hmem)⟩
      · rw [← Option.some.inj hu]
        exact ⟨rfl, fun i hmem => List.mem_append_left _ hmem⟩
    refine ⟨htold, fun i u => addSession_refused hd, ?_, ?_⟩
    · intro i kind hrefused
      exact ⟨drop_possible hrefused, fun a u => step_refused hrefused⟩
    · intro i task htask hrunning
      rcases ht.served i task htask hrunning with hmem | hmem
      · exact ht.destroyed hd i hmem
      · exact hmem
  · intro hloop task hmem hkind
    by_contra hphase
    exact hi.returned hloop task hmem ⟨hkind, hphase⟩

/-- A connection that is being served while the server is destroyed, and one that comes too late. -/
theorem shutdown_ok_late :
    ∃ s t : Server, s.sessions = [0] ∧ t.loop = .returned ∧ 0 ∈ t.told ∧
      ∀ task ∈ t.tasks, task.kind = .tcp → task.phase = .done := by
  obtain ⟨s, t, hbefore, hafter, hsessions, hloop⟩ : ∃ s t : Server,
      run step {} [.accept, .accept, .detected 0, .addSession 0] = some s ∧
      run step s [.destroy, .acceptFails, .detected 1, .addSession 1, .sweep, .drop 1, .complete 1,
        .notify 1, .wait, .sweep, .wait, .throws 0, .complete 0, .notify 0, .sweep] = some t ∧
      s.sessions = [0] ∧ t.loop = .returned := ⟨_, _, rfl, rfl, rfl, rfl⟩
  obtain ⟨htold, _⟩ := (shutdown_ok hbefore).1 _ t hafter
  obtain ⟨_, hreturned, _⟩ := shutdown_ok (run_trans hbefore hafter)
  exact ⟨s, t, hsessions, hloop, htold 0 (hsessions ▸ List.mem_singleton_self 0), hreturned hloop⟩

/-! ### The registry -/

/-- `sessions_` holds nothing but sessions that are being served, or are about to leave it. -/
def OnlyRunning (s : Server) : Prop :=
  ∀ i ∈ s.sessions, ∃ task, s.tasks[i]? = some task ∧ task.Running

/-- Nothing is thrown out of `do_session()` of a TCP connection, unless the session has left the
registry before. -/
def Caught (s : Server) : Action → Prop
  | .throws i => s.tasks[i]? = some ⟨.tcp, .serving⟩ → i ∉ s.sessions
  | _ => True

instance (s : Server) : DecidablePred (Caught s)
  | .throws i => inferInstanceAs (Decidable (s.tasks[i]? = some ⟨.tcp, .serving⟩ → i ∉ s.sessions))
  | .accept | .acceptFails | .initial | .detected _ | .addSession _ | .drop _ | .finish _
  | .removeSession _ | .complete _ | .notify _ | .destroy | .sweep | .wait | .spurious =>
    isTrue trivial

theorem OnlyRunning.set (h : OnlyRunning s) (hi : s.tasks[i]? = some task)
    (htasks : t.tasks = s.tasks.set i new) (hsessions : ∀ j ∈ t.sessions, j = i ∨ j ∈ s.sessions)
    (hnew : i ∈ t.sessions → new.Running) : OnlyRunning t := by
  intro j hj
  rw [htasks]
  by_cases hji : j = i
  · subst hji
    exact ⟨new, (getElem?_set_eq_some hi).mpr (.inl ⟨rfl, rfl⟩), hnew hj⟩
  · obtain ⟨other, hother, hrunning⟩ := h j ((hsessions j hj).resolve_left hji)
    exact ⟨other, (getElem?_set_eq_some hi).mpr (.inr ⟨hji, hother⟩), hrunning⟩

/-- A session that is not being served is not in the registry. -/
theorem OnlyRunning.not_mem (h : OnlyRunning s) (hi : s.tasks[i]? = some task)
    (hnot : ¬ task.Running) : i ∉ s.sessions := by
  intro hmem
  obtain ⟨other, hother, hrunning⟩ := h i hmem
  obtain rfl := Option.some.inj (hi.symm.trans hother)
  exact hnot hrunning

theorem OnlyRunning.move (h : OnlyRunning s) (hi : s.tasks[i]? = some task)
    (hnew : i ∈ s.sessions → new.Running) : OnlyRunning (s.move i new) :=
  h.set hi rfl (fun _ hj => .inr hj) hnew

theorem OnlyRunning.taskStep_iff {a : Action} (h : OnlyRunning s) (hi : s.tasks[i]? = some task)
    (ha : a.task? = some i) (hs : s.taskStep i task a = some t) : OnlyRunning t ↔ Caught s a := by
  have hnot : ¬ task.Running → i ∉ s.sessions := h.not_mem hi
  cases a with
  | throws _ =>
    obtain rfl := Option.some.inj ha
    rw [Caught, hi]
    simp only [Server.taskStep] at hs
    split at hs
    · obtain rfl := Option.some.inj hs
      have hmem := hnot (not_running nofun nofun)
      exact iff_of_true (h.move hi fun hj => absurd hj hmem) nofun
    · obtain rfl := Option.some.inj hs
      have hmem := hnot (not_running nofun nofun)
      exact iff_of_true (h.move hi fun hj => absurd hj hmem) nofun
    · -- the session stays where it is
      obtain rfl := Option.some.inj hs
      constructor
      · intro ht _
        exact ht.not_mem ((getElem?_set_eq_some hi).mpr (.inl ⟨rfl, rfl⟩)) (not_running nofun nofun)
      · intro hcaught
        exact h.move hi fun hj => absurd hj (hcaught rfl)
    · obtain rfl := Option.some.inj hs
      exact iff_of_true (h.move hi fun _ => .inr rfl) nofun
    · exact nomatch hs
  | detected _ =>
    refine iff_of_true ?_ trivial
    simp only [Server.taskStep] at hs
    split at hs
    · obtain rfl := Option.some.inj hs
      have hmem := hnot (not_running nofun nofun)
      exact h.move hi fun hj => absurd hj hmem
    · exact nomatch hs
  | addSession _ =>
    refine iff_of_true ?_ trivial
    obtain ⟨kind, phase⟩ := task
    obtain ⟨⟨rfl, _⟩, ht⟩ := Option.ite_none_right_eq_some.mp hs
    have hmem := hnot (not_running nofun nofun)
    unfold Server.addSession at ht
    -- refused, or registered by a task that runs
    by_cases hd : s.destroyed = true
    · rw [if_pos hd] at ht
      obtain rfl := Option.some.inj ht
      exact h.move hi fun hj => absurd hj hmem
    · rw [if_neg hd] at ht
      obtain rfl := Option.some.inj ht
      exact h.set hi rfl (fun _ hj => List.mem_cons.mp hj) fun _ => .inl rfl
  | drop _ =>
    refine iff_of_true ?_ trivial
    simp only [Server.taskStep] at hs
    split at hs
    · obtain rfl := Option.some.inj hs
      have hmem := hnot (not_running nofun nofun)
      exact h.set hi rfl (fun _ hj => .inr hj) fun hj => absurd hj hmem
    · obtain rfl := Option.some.inj hs
      have hmem := hnot (not_running nofun nofun)
      exact h.set hi rfl (fun _ hj => .inr hj) fun hj => absurd hj hmem
    · exact nomatch hs
  | finish _ =>
    refine iff_of_true ?_ trivial
    obtain ⟨_, ht⟩ := Option.ite_none_right_eq_some.mp hs
    obtain rfl := Option.some.inj ht
    exact h.move hi fun _ => .inr rfl
  | removeSession _ =>
    refine iff_of_true ?_ trivial
    obtain ⟨_, ht⟩ := Option.ite_none_right_eq_some.mp hs
    have hsub : ∀ j ∈ s.sessions.filter (· ≠ i), j = i ∨ j ∈ s.sessions :=
      fun j hj => .inr (List.mem_filter.mp hj).1
    have hgone : i ∉ s.sessions.filter (· ≠ i) :=
      fun hj => of_decide_eq_true (List.mem_filter.mp hj).2 rfl
    split at ht
    · obtain rfl := Option.some.inj ht
      exact h.set hi rfl hsub fun hj => absurd hj hgone
    · obtain rfl := Option.some.inj ht
      exact h.set hi rfl hsub fun hj => absurd hj hgone
    · exact nomatch ht
  | complete _ =>
    refine iff_of_true ?_ trivial
    obtain ⟨⟨rfl, _⟩, ht⟩ := Option.ite_none_right_eq_some.mp hs
    obtain rfl := Option.some.inj ht
    have hmem := hnot (not_running nofun nofun)
    exact h.set hi rfl (fun _ hj => .inr hj) fun hj => absurd hj hmem
  | notify _ =>
    refine iff_of_true ?_ trivial
    obtain ⟨rfl, ht⟩ := Option.ite_none_right_eq_some.mp hs
    obtain rfl := Option.some.inj ht
    have hmem := hnot (not_running nofun nofun)
    exact h.set hi rfl (fun _ hj => .inr hj) fun hj => absurd hj hmem
  | _ => exact nomatch ha

theorem OnlyRunning.step_iff {a : Action} (h : OnlyRunning s) (hs : step s a = some t) :
    OnlyRunning t ↔ Caught s a := by
  cases ha : a.task? with
  | some i =>
    have hs' := hs
    rw [step_of_task ha] at hs'
    obtain ⟨task, hi, ht⟩ := Option.bind_eq_some_iff.mp hs'
    exact h.taskStep_iff hi ha ht
  | none =>
    have hcaught : Caught s a := by
      cases a with
      | throws i => exact nomatch ha
      | _ => trivial
    refine iff_of_true ?_ hcaught
    obtain ⟨_, _, htasks⟩ := step_frame ha hs
    have hsub : ∀ i ∈ t.sessions, i ∈ s.sessions := sessions_of_step ha hs
    intro i hi
    obtain ⟨task, htask, hrunning⟩ := h i (hsub i hi)
    exact ⟨task, getElem?_eq_some_mono htasks htask, hrunning⟩

/-- **The registry reflects what runs**, throughout a run, exactly if no session that is registered
ends by an exception. -/
theorem registry_iff {as : List Action} (hrun : run step {} as = some s) :
    Throughout step OnlyRunning {} as ↔ Meets step Caught {} as :=
  throughout_iff_meets (I := fun _ => True) (fun _ _ _ _ _ => trivial)
    (fun _ _ _ _ h hs => h.step_iff hs) trivial (fun _ hi => nomatch hi) hrun

/-- A connection that ends as it should. -/
theorem registry_iff_finish :
    Throughout step OnlyRunning {} [.accept, .detected 0, .addSession 0, .finish 0,
      .removeSession 0, .complete 0, .notify 0] := by
  obtain ⟨s, hrun⟩ : ∃ s, run step {} [.accept, .detected 0, .addSession 0, .finish 0,
      .removeSession 0, .complete 0, .notify 0] = some s := ⟨_, rfl⟩
  exact (registry_iff hrun).mpr (by decide)

/-- A handler of an HTTP/1.1 connection throws: its task ends, and its session stays. -/
theorem registry_leaks :
    ¬ ∀ (as : List Action) (s : Server), run step {} as = some s → OnlyRunning s := by
  intro hall
  have hrun : run step {} [.accept, .detected 0, .addSession 0, .throws 0, .complete 0,
      .notify 0] = some
        { tasks := [⟨.tcp, .done⟩], sessions := [0], sessionDone := ⟨true, false, false⟩ } := rfl
  obtain ⟨task, htask, hrunning⟩ := hall _ _ hrun 0 (List.mem_singleton_self 0)
  obtain rfl := Option.some.inj htask
  exact absurd hrunning (by decide)

end AnyHttp.Server
