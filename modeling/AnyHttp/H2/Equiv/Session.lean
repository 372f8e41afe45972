import AnyHttp.H2.Equiv.SendLoop
import AnyHttp.H2.Session

/-!
# An HTTP/2 session ends in order

Whatever happens to the two loops, to `shutdown()` and to `destroy()`, and in which order, the peer
gets the frames that nghttp2 has produced, then the "close_notify", then the FIN, and nothing behind
them.  There is a "close_notify" only if all of the frames are out, so that it never vouches for a
session that has been cut.

* `step_settled`: a send loop that is over stays as it is;
* `Orderly.step`: what every step of the session keeps;
* `session_ends`: what that means for the peer, and for the caller of `shutdown()`.
-/

namespace AnyHttp.H2

open Lib

/-! ### What a step of the send loop leaves as it is -/

namespace SendLoop

variable {capacity : Nat} {version : Version} {s t : State capacity} {h : History} {a : Action}

/-- The loop is over. -/
def State.Settled (s : State capacity) : Prop := s.phase = .ended ∨ s.phase = .threw

instance : Decidable s.Settled := inferInstanceAs (Decidable (_ ∨ _))

/-- What a pass leaves as it is. -/
theorem pass_frame (s : State capacity) (wants : Bool) (answer : Answer) :
    (version.pass s wants answer).written = s.written ∧
      (version.pass s wants answer).recvDone = s.recvDone ∧
      (version.pass s wants answer).sendFailed = s.sendFailed := by
  have hwrite : ∀ (s : State capacity) bytes, (s.write bytes).written = s.written ∧
      (s.write bytes).recvDone = s.recvDone ∧ (s.write bytes).sendFailed = s.sendFailed := by
    intro s bytes
    unfold State.write
    split <;> exact ⟨rfl, rfl, rfl⟩
  have hwait : ∀ s : State capacity, s.wait.written = s.written ∧
      s.wait.recvDone = s.recvDone ∧ s.wait.sendFailed = s.sendFailed := by
    intro s
    unfold State.wait
    split
    · exact ⟨rfl, rfl, rfl⟩
    · split <;> exact ⟨rfl, rfl, rfl⟩
  cases version with
  | v1 =>
    show (V1.pass s wants answer).written = _ ∧ (V1.pass s wants answer).recvDone = _ ∧
      (V1.pass s wants answer).sendFailed = _
    cases answer with
    | chunk data =>
      unfold V1.pass
      dsimp only
      split
      · exact ⟨rfl, rfl, rfl⟩
      · split
        · exact hwrite s _
        · split
          · exact ⟨rfl, rfl, rfl⟩
          · split
            · exact hwait s
            · exact ⟨rfl, rfl, rfl⟩
    | closing => exact ⟨rfl, rfl, rfl⟩
    | error => exact ⟨rfl, rfl, rfl⟩
  | v2 =>
    show (V2.pass s answer).written = _ ∧ (V2.pass s answer).recvDone = _ ∧
      (V2.pass s answer).sendFailed = _
    cases answer with
    | chunk data =>
      unfold V2.pass
      dsimp only
      split
      · exact hwrite s _
      · split
        · exact ⟨rfl, rfl, rfl⟩
        · exact hwait s
    | closing => exact ⟨rfl, rfl, rfl⟩
    | error => exact ⟨rfl, rfl, rfl⟩

/-- A pass waits only for what may still come in. -/
theorem pass_waiting (hrunning : s.phase = .running) (wants : Bool) (answer : Answer)
    (hphase : (version.pass s wants answer).phase = .waiting) : s.recvDone = false := by
  have hwrite : ∀ bytes, (s.write bytes).phase ≠ .waiting := by
    intro bytes
    unfold State.write
    split <;> simp
  cases version with
  | v1 =>
    have hpass : (V1.pass s wants answer).phase = .waiting := hphase
    cases answer with
    | chunk data =>
      unfold V1.pass at hpass
      dsimp only at hpass
      split at hpass
      · exact absurd (hrunning.symm.trans hpass) (by decide)
      · split at hpass
        · exact absurd hpass (hwrite _)
        · split at hpass
          · exact absurd hpass (by simp)
          · exact Bool.eq_false_iff.mpr ‹_›
    | closing => exact absurd hpass (by simp [V1.pass])
    | error => exact absurd hpass (by simp [V1.pass])
  | v2 =>
    have hpass : (V2.pass s answer).phase = .waiting := hphase
    cases answer with
    | chunk data =>
      unfold V2.pass at hpass
      dsimp only at hpass
      split at hpass
      · exact absurd hpass (hwrite _)
      · split at hpass
        · exact absurd hpass (by simp)
        · exact Bool.eq_false_iff.mpr ‹_›
    | closing => exact absurd hpass (by simp [V2.pass])
    | error => exact absurd hpass (by simp [V2.pass])

/-- Only what the connection takes is written. -/
theorem step_written (hs : step version s a = some t) (ha : ∀ n, a ≠ .progress n) :
    t.written = s.written := by
  cases a with
  | progress n => exact absurd rfl (ha n)
  | pass answer wants started =>
    obtain ⟨_, ht⟩ := Option.ite_none_right_eq_some.mp hs
    rw [← Option.some.inj ht, (pass_frame _ wants answer).1]
    cases started <;> rfl
  | writeDone =>
    obtain ⟨_, ht⟩ := Option.ite_none_right_eq_some.mp hs
    rw [← Option.some.inj ht]
  | writeFailed =>
    obtain ⟨_, ht⟩ := Option.ite_none_right_eq_some.mp hs
    rw [← Option.some.inj ht]
  | startWrite => rw [← Option.some.inj hs, State.startWrite]
  | recvDone => rw [← Option.some.inj hs, State.startWrite]
  | cancel => rw [← Option.some.inj hs]
  | resume =>
    rw [step] at hs
    cases hwoken : s.sendReady.woken with
    | none =>
      rw [hwoken] at hs
      exact absurd hs (by simp)
    | some ec =>
      rw [hwoken] at hs
      rw [← Option.some.inj hs]

theorem step_recvDone (hs : step version s a = some t) (ha : a ≠ .recvDone) :
    t.recvDone = s.recvDone := by
  cases a with
  | recvDone => exact absurd rfl ha
  | pass answer wants started =>
    obtain ⟨_, ht⟩ := Option.ite_none_right_eq_some.mp hs
    rw [← Option.some.inj ht, (pass_frame _ wants answer).2.1]
    cases started <;> rfl
  | progress n =>
    obtain ⟨_, ht⟩ := Option.ite_none_right_eq_some.mp hs
    rw [← Option.some.inj ht]
  | writeDone =>
    obtain ⟨_, ht⟩ := Option.ite_none_right_eq_some.mp hs
    rw [← Option.some.inj ht]
  | writeFailed =>
    obtain ⟨_, ht⟩ := Option.ite_none_right_eq_some.mp hs
    rw [← Option.some.inj ht]
  | startWrite => rw [← Option.some.inj hs, State.startWrite]
  | cancel => rw [← Option.some.inj hs]
  | resume =>
    rw [step] at hs
    cases hwoken : s.sendReady.woken with
    | none =>
      rw [hwoken] at hs
      exact absurd hs (by simp)
    | some ec =>
      rw [hwoken] at hs
      rw [← Option.some.inj hs]

/-- A loop that is over stays so, with the same outcome, and writes nothing more. -/
theorem step_settled (hi : Inv version s h) (hsettled : s.Settled)
    (hs : step version s a = some t) :
    t.phase = s.phase ∧ t.sendFailed = s.sendFailed ∧ t.written = s.written := by
  have hrunning : s.phase ≠ .running := by
    rcases hsettled with h | h <;> rw [h] <;> decide
  have hwriting : s.phase ≠ .writing := by
    rcases hsettled with h | h <;> rw [h] <;> decide
  have hwaiting : s.phase ≠ .waiting := by
    rcases hsettled with h | h <;> rw [h] <;> decide
  cases a with
  | pass answer wants started =>
    exact absurd (Option.ite_none_right_eq_some.mp hs).1 hrunning
  | progress n => exact absurd (Option.ite_none_right_eq_some.mp hs).1 hwriting
  | writeDone => exact absurd (Option.ite_none_right_eq_some.mp hs).1.1 hwriting
  | writeFailed => exact absurd (Option.ite_none_right_eq_some.mp hs).1 hwriting
  | startWrite =>
    rw [← Option.some.inj hs]
    exact ⟨rfl, rfl, rfl⟩
  | recvDone =>
    rw [← Option.some.inj hs]
    exact ⟨rfl, rfl, rfl⟩
  | cancel =>
    rw [← Option.some.inj hs]
    exact ⟨rfl, rfl, rfl⟩
  | resume =>
    -- nothing has been posted for a loop that does not wait
    rw [step] at hs
    cases hwoken : s.sendReady.woken with
    | none =>
      rw [hwoken] at hs
      exact absurd hs (by simp)
    | some ec =>
      refine absurd (hi.woken.waits.mp (.inr ?_)) hwaiting
      rw [hwoken]
      simp

end SendLoop

/-! ### The invariant -/

namespace Session

variable {capacity : Nat} {version : SendLoop.Version} {s t : Session capacity}

/-- What the peer has got so far: frames, and then a "close_notify" and a FIN, or not. -/
structure Sent (s : Session capacity) (notified fin : Bool) : Prop where
  wire : ∃ datas : List (List UInt8), datas.flatten = s.send.written ∧
    s.wire = datas.map Out.data ++ ((if notified then [.closeNotify] else []) ++
      if fin then [.fin] else [])
  /-- A "close_notify" is for a session of which all frames are out. -/
  notified : notified = true → (s.stage ≠ .loops ∧ s.stage ≠ .teardown) ∧
    s.send.phase = .ended ∧ s.recv = .over_ ∧ s.send.sendFailed = false
  fin : fin = true → s.shut = true

/-- What is known about a GOAWAY. -/
structure Asked (version : SendLoop.Version) (s : Session capacity) : Prop where
  asked : s.send.recvDone = true → s.terminated = true ∨ s.goawaySent = true ∨ s.closing = true
  sent : s.goawaySent = true → s.goawayOut = true ∨ s.terminated = true
  closing : s.closing = true → version = .v2
  drained : s.drained = true → s.goawayOut = true ∨ s.closing = true

/-- How far the session is. -/
structure Staged (s : Session capacity) : Prop where
  late : s.stage ≠ .loops → s.send.Settled
  orderly : s.stage ≠ .loops → s.stage ≠ .threw → s.send.phase = .ended ∧ s.recv = .over_
  teardown : s.stage = .teardown → s.send.sendFailed = false
  done : s.sessionDone = true ↔ s.stage = .done ∨ s.stage = .threw
  answered : ∀ ec, s.answer = some ec → s.sessionDone = true ∧
    ec = if s.send.sendFailed then .connectionAborted else .success

structure Orderly (version : SendLoop.Version) (s : Session capacity) : Prop where
  loop : SendLoop.Inv version s.send s.history
  sent : ∃ notified fin, Sent s notified fin
  asked : Asked version s
  staged : Staged s

/-! ### Its parts -/

/-- Nothing goes out, and nothing that has ended goes on. -/
structure Quiet (s t : Session capacity) : Prop where
  wire : t.wire = s.wire
  written : t.send.written = s.send.written
  stage : s.stage ≠ .loops ∧ s.stage ≠ .teardown → t.stage ≠ .loops ∧ t.stage ≠ .teardown
  settled : s.send.phase = .ended → t.send.phase = .ended ∧ t.send.sendFailed = s.send.sendFailed
  recv : s.recv = .over_ → t.recv = .over_
  shut : s.shut = true → t.shut = true

theorem Sent.quiet {notified fin : Bool} (h : Sent s notified fin) (hquiet : Quiet s t) :
    Sent t notified fin where
  wire := by
    rw [hquiet.wire, hquiet.written]
    exact h.wire
  notified := by
    intro hnotified
    obtain ⟨hstage, hphase, hrecv, hfailed⟩ := h.notified hnotified
    obtain ⟨hphase', hfailed'⟩ := hquiet.settled hphase
    exact ⟨hquiet.stage hstage, hphase', hquiet.recv hrecv, hfailed'.trans hfailed⟩
  fin := fun hfin => hquiet.shut (h.fin hfin)

/-- A FIN is in order behind whatever the peer has got, as nothing but a FIN can be behind it. -/
theorem Sent.putFin (h : ∃ notified fin, Sent s notified fin) :
    ∃ notified fin, Sent s.putFin notified fin := by
  obtain ⟨notified, fin, hsent⟩ := h
  unfold Session.putFin
  by_cases hshut : s.shut = true
  · rw [if_pos hshut]
    exact ⟨notified, fin, hsent⟩
  · rw [if_neg hshut]
    have hfin : fin = false := Bool.eq_false_iff.mpr (mt hsent.fin hshut)
    obtain ⟨datas, hdatas, hwire⟩ := hsent.wire
    refine ⟨notified, true, ⟨datas, hdatas, ?_⟩, hsent.notified, fun _ => rfl⟩
    show s.wire ++ [.fin] = _
    rw [hwire, hfin, if_neg Bool.false_ne_true, List.append_nil, if_pos rfl, List.append_assoc]

theorem putFin_send (s : Session capacity) : s.putFin.send = s.send ∧ s.putFin.recv = s.recv ∧
    s.putFin.stage = s.stage ∧ s.putFin.history = s.history := by
  unfold Session.putFin
  split <;> exact ⟨rfl, rfl, rfl, rfl⟩

/-- A step of the send loop, as the session sees it. -/
theorem sendStep_cases {a : SendLoop.Action} (hs : s.sendStep version a = some t) :
    ∃ send, SendLoop.step version s.send a = some send ∧
      t = { s with send := send, history := SendLoop.note s.send a s.history } := by
  obtain ⟨send, hsend, ht⟩ := Option.map_eq_some_iff.mp hs
  exact ⟨send, hsend, ht.symm⟩

/-- What a step of the send loop does to the session, but for what it writes. -/
theorem Orderly.send (hi : Orderly version s) {a : SendLoop.Action} {send : SendLoop.State capacity}
    (hs : SendLoop.step version s.send a = some send) (hprogress : ∀ n, a ≠ .progress n)
    (hrecv : a ≠ .recvDone) :
    Orderly version { s with send := send, history := SendLoop.note s.send a s.history } := by
  have hkept : s.send.Settled → send.phase = s.send.phase ∧ send.sendFailed = s.send.sendFailed :=
    fun hsettled => by
      obtain ⟨hphase, hfailed, _⟩ := SendLoop.step_settled hi.loop hsettled hs
      exact ⟨hphase, hfailed⟩
  obtain ⟨notified, fin, hsent⟩ := hi.sent
  refine ⟨hi.loop.step hs, ⟨notified, fin, hsent.quiet ?_⟩, ?_, ?_⟩
  · refine ⟨rfl, SendLoop.step_written hs hprogress, id, ?_, id, id⟩
    intro hphase
    obtain ⟨hphase', hfailed⟩ := hkept (.inl hphase)
    exact ⟨hphase'.trans hphase, hfailed⟩
  · refine ⟨?_, hi.asked.sent, hi.asked.closing, hi.asked.drained⟩
    intro hdone
    exact hi.asked.asked ((SendLoop.step_recvDone hs hrecv).symm.trans hdone)
  · refine ⟨?_, ?_, ?_, hi.staged.done, ?_⟩
    · intro hstage
      have hsettled := hi.staged.late hstage
      unfold SendLoop.State.Settled
      rw [(hkept hsettled).1]
      exact hsettled
    · intro hstage hthrew
      obtain ⟨hphase, hover⟩ := hi.staged.orderly hstage hthrew
      exact ⟨(hkept (.inl hphase)).1.trans hphase, hover⟩
    · intro hstage
      have hsettled := hi.staged.late (by rw [show s.stage = _ from hstage]; decide)
      exact (hkept hsettled).2.trans (hi.staged.teardown hstage)
    · intro ec hec
      obtain ⟨hdone, hcode⟩ := hi.staged.answered ec hec
      have hsettled : s.send.Settled := by
        refine hi.staged.late ?_
        rcases hi.staged.done.mp hdone with h | h <;> rw [h] <;> decide
      refine ⟨hdone, ?_⟩
      show ec = if send.sendFailed then _ else _
      rw [(hkept hsettled).2]
      exact hcode

/-- Nothing more comes in, once nghttp2 has been asked for a GOAWAY. -/
theorem Orderly.recvDone (hi : Orderly version s)
    (hasked : s.terminated = true ∨ s.goawaySent = true ∨ s.closing = true) :
    Orderly version s.recvDone := by
  have hs : SendLoop.step version s.send .recvDone =
      some ({ s.send with recvDone := true } : SendLoop.State capacity).startWrite := rfl
  obtain ⟨notified, fin, hsent⟩ := hi.sent
  refine ⟨hi.loop.step hs, ⟨notified, fin, hsent.quiet ⟨rfl, rfl, id, fun h => ⟨h, rfl⟩, id, id⟩⟩,
    ⟨fun _ => hasked, hi.asked.sent, hi.asked.closing, hi.asked.drained⟩, ?_⟩
  exact ⟨hi.staged.late, hi.staged.orderly, hi.staged.teardown, hi.staged.done, hi.staged.answered⟩

theorem Orderly.startWrite (hi : Orderly version s) : Orderly version s.startWrite :=
  hi.send (a := .startWrite) rfl (by simp) (by simp)

/-- A change of what is known about a GOAWAY. -/
theorem Orderly.mark (hi : Orderly version s)
    (terminated goawaySent closing goawayOut drained : Bool) (hasked : Asked version
      { s with
        terminated := terminated
        goawaySent := goawaySent
        closing := closing
        goawayOut := goawayOut
        drained := drained }) :
    Orderly version
      { s with
        terminated := terminated
        goawaySent := goawaySent
        closing := closing
        goawayOut := goawayOut
        drained := drained } := by
  obtain ⟨notified, fin, hsent⟩ := hi.sent
  exact ⟨hi.loop, ⟨notified, fin, hsent.wire, hsent.notified, hsent.fin⟩, hasked, hi.staged.late,
    hi.staged.orderly, hi.staged.teardown, hi.staged.done, hi.staged.answered⟩

theorem Orderly.terminate (hi : Orderly version s) :
    Orderly version (s.terminate version) ∧ ((s.terminate version).terminated = true ∨
      (s.terminate version).goawaySent = true ∨ (s.terminate version).closing = true) := by
  have hmark : ∀ goawaySent, Orderly version
      { s with terminated := true, goawaySent := goawaySent } :=
    fun goawaySent => hi.mark true goawaySent s.closing s.goawayOut s.drained
      ⟨fun _ => .inl rfl, fun _ => .inr rfl, hi.asked.closing, hi.asked.drained⟩
  cases version with
  | v1 =>
    unfold Session.terminate
    dsimp only
    -- a GOAWAY is asked for once
    by_cases hsent : s.goawaySent = true
    · rw [if_pos hsent]
      exact ⟨hi, .inr (.inl hsent)⟩
    · rw [if_neg hsent]
      exact ⟨hmark s.goawaySent, .inl rfl⟩
  | v2 =>
    unfold Session.terminate
    dsimp only
    by_cases hsent : (s.goawaySent || s.closing) = true
    · rw [if_pos hsent]
      exact ⟨hi, .inr (Bool.or_eq_true_iff.mp hsent)⟩
    · rw [if_neg hsent]
      exact ⟨hmark true, .inl rfl⟩

/-- The receive loop is somewhere else, but not behind its end. -/
theorem Orderly.recv (hi : Orderly version s) (hrecv : s.recv ≠ .over_) (recv : RecvLoop) :
    Orderly version { s with recv := recv } := by
  obtain ⟨notified, fin, hsent⟩ := hi.sent
  refine ⟨hi.loop, ⟨notified, fin, hsent.wire, ?_, hsent.fin⟩, ⟨hi.asked.asked, hi.asked.sent,
    hi.asked.closing, hi.asked.drained⟩, hi.staged.late, ?_, hi.staged.teardown, hi.staged.done,
    hi.staged.answered⟩
  · intro hnotified
    exact absurd (hsent.notified hnotified).2.2.1 hrecv
  · intro hstage hthrew
    exact absurd (hi.staged.orderly hstage hthrew).2 hrecv

theorem Orderly.leaveRecv (hi : Orderly version s) (hrecv : s.recv ≠ .over_) :
    Orderly version (s.leaveRecv version) := by
  obtain ⟨hterminated, hasked⟩ := hi.terminate
  refine (hterminated.recvDone hasked).recv ?_ .over_
  have hsame : (s.terminate version).recv = s.recv := by
    cases version <;> (unfold Session.terminate; dsimp only; split <;> rfl)
  show (s.terminate version).recv ≠ .over_
  rw [hsame]
  exact hrecv

theorem Orderly.recvNext (hi : Orderly version s) (hrecv : s.recv ≠ .over_) (wants : Bool) :
    Orderly version (s.recvNext version wants) := by
  have hnext : ∀ more : Bool, Orderly version
      (if more then { s with recv := .reading } else s.leaveRecv version) := by
    intro more
    cases more with
    | true => exact hi.recv hrecv .reading
    | false => exact hi.leaveRecv hrecv
  exact hnext _

theorem Orderly.recvFailed (hi : Orderly version s) : Orderly version (s.recvFailed version) := by
  cases version with
  | v1 =>
    exact hi.mark true s.goawaySent s.closing s.goawayOut s.drained
      ⟨fun _ => .inl rfl, fun _ => .inr rfl, hi.asked.closing, hi.asked.drained⟩
  | v2 =>
    exact hi.mark s.terminated s.goawaySent true s.goawayOut s.drained
      ⟨fun _ => .inr (.inr rfl), hi.asked.sent, fun _ => rfl, fun _ => .inr rfl⟩

theorem Orderly.init (failed : Bool) :
    Orderly version (init version failed : Session capacity) := by
  have hfresh : Orderly version ({} : Session capacity) :=
    ⟨SendLoop.Inv.init, ⟨false, false, ⟨[], rfl, rfl⟩, by simp, by simp⟩,
      ⟨by simp, by simp, by simp, by simp⟩, by simp, by simp, by simp, by simp, by simp⟩
  cases failed with
  | false => exact hfresh
  | true => exact hfresh.recvFailed

/-! ### A pass of the send loop -/

/-- What a session knows after a pass: if there was nothing to send, a GOAWAY that nghttp2 has been
asked for is out. -/
theorem Orderly.sentAfter (hi : Orderly version s) (answer : SendLoop.Answer) (goaway : Bool)
    (hgoaway : answer = .chunk [] → s.terminated = true → s.goawayOut = true ∨ goaway = true) :
    Orderly version (s.sent version answer goaway) := by
  obtain ⟨notified, fin, hsent⟩ := hi.sent
  refine ⟨hi.loop, ⟨notified, fin, hsent.wire, hsent.notified, ?_⟩, ?_, hi.staged.late,
    hi.staged.orderly, hi.staged.teardown, hi.staged.done, hi.staged.answered⟩
  · intro hfin
    show (s.shut || _) = true
    rw [hsent.fin hfin, Bool.true_or]
  · have hout : s.goawayOut = true → (s.goawayOut || goaway) = true := fun h => by
      rw [h, Bool.true_or]
    refine ⟨?_, ?_, ?_, ?_⟩
    · intro hdone
      rcases hi.asked.asked hdone with h | h | h
      · exact .inl h
      · exact .inr (.inl (by
          show (s.goawaySent || _) = true
          rw [h, Bool.true_or]))
      · exact .inr (.inr (by
          show (s.closing || _) = true
          rw [h, Bool.true_or]))
    · intro hs
      have hs' : (s.goawaySent || (goaway && version == .v1)) = true := hs
      rw [Bool.or_eq_true_iff] at hs'
      rcases hs' with h | h
      · exact (hi.asked.sent h).imp_left hout
      · rw [Bool.and_eq_true] at h
        exact .inl (by
          show (s.goawayOut || goaway) = true
          rw [h.1, Bool.or_true])
    · intro hc
      have hc' : (s.closing || (version == .v2 && _)) = true := hc
      rw [Bool.or_eq_true_iff, Bool.and_eq_true] at hc'
      rcases hc' with h | h
      · exact hi.asked.closing h
      · exact beq_iff_eq.mp h.1
    · intro hd
      show (s.goawayOut || goaway) = true ∨ (s.closing || _) = true
      have hd' : (s.drained || (s.send.phase == .ended && answer == .chunk [] && s.send.recvDone)) =
        true := hd
      rw [Bool.or_eq_true_iff, Bool.and_eq_true, Bool.and_eq_true] at hd'
      have hclosing : s.closing = true → ∀ b, (s.closing || b) = true := fun h b => by
        rw [h, Bool.true_or]
      -- the loop has been drained before, or is by this pass
      rcases hd' with h | ⟨⟨_, hanswer⟩, hrecv⟩
      · exact (hi.asked.drained h).imp hout (fun h => hclosing h _)
      · -- it was asked for, so it is out
        have hterminated : s.terminated = true → (s.goawayOut || goaway) = true := fun h =>
          Bool.or_eq_true_iff.mpr (hgoaway (beq_iff_eq.mp hanswer) h)
        rcases hi.asked.asked hrecv with h | h | h
        · exact .inl (hterminated h)
        · exact .inl ((hi.asked.sent h).elim hout hterminated)
        · exact .inr (hclosing h _)

/-! ### The end of the connection -/

theorem not_done (hi : Orderly version s) (hstage : ¬(s.stage = .done ∨ s.stage = .threw)) :
    s.sessionDone = false :=
  Bool.eq_false_iff.mpr (mt hi.staged.done.mp hstage)

/-- Some of what nghttp2 has produced goes out. -/
theorem Orderly.progress (hi : Orderly version s) (hshut : s.shut = false) {n : Nat}
    {send : SendLoop.State capacity} (hs : SendLoop.step version s.send (.progress n) = some send) :
    Orderly version
      (({ s with send := send, history := SendLoop.note s.send (.progress n) s.history } :
        Session capacity).put (.data (s.send.rest.take n))) := by
  have hloop := hi.loop.step hs
  obtain ⟨hphase, hsend⟩ := Option.ite_none_right_eq_some.mp hs
  obtain rfl := Option.some.inj hsend
  obtain ⟨notified, fin, hsent⟩ := hi.sent
  obtain ⟨datas, hdatas, hwire⟩ := hsent.wire
  have hsettled : ¬s.send.Settled := by
    unfold SendLoop.State.Settled
    rw [hphase]
    decide
  have hstage : s.stage = .loops := by
    by_contra hne
    exact hsettled (hi.staged.late hne)
  -- as the loop is not over, nothing of the end of the connection is out
  have hnotified : notified = false := by
    refine Bool.eq_false_iff.mpr fun h => ?_
    exact hsettled (.inl (hsent.notified h).2.1)
  have hfin : fin = false := by
    refine Bool.eq_false_iff.mpr fun h => ?_
    exact absurd ((hsent.fin h).symm.trans hshut) (by decide)
  refine ⟨hloop, ⟨false, false, ⟨datas ++ [s.send.rest.take n], ?_, ?_⟩, by simp, by simp⟩,
    ⟨hi.asked.asked, hi.asked.sent, hi.asked.closing, hi.asked.drained⟩,
    fun h => absurd hstage h, fun h => absurd hstage h, hi.staged.teardown, hi.staged.done,
    hi.staged.answered⟩
  · show (datas ++ [s.send.rest.take n]).flatten = s.send.written ++ s.send.rest.take n
    rw [List.flatten_append, hdatas, List.flatten_singleton]
  · show s.wire ++ [.data (s.send.rest.take n)] = _
    rw [hwire, hnotified, hfin]
    simp

/-- Both loops are over. -/
theorem Orderly.join (hi : Orderly version s) (hstage : s.stage = .loops)
    (hsettled : s.send.Settled) (hrecv : s.recv = .over_ ∨ s.recv = .threw) :
    Orderly version s.join := by
  obtain ⟨notified, fin, hsent⟩ := hi.sent
  have hnotified : notified = false := by
    refine Bool.eq_false_iff.mpr fun h => ?_
    exact (hsent.notified h).1.1 hstage
  have hnone : s.answer = none := by
    refine Option.eq_none_iff_forall_not_mem.mpr fun ec hec => ?_
    have hdone := hi.staged.done.mp (hi.staged.answered ec hec).1
    rw [hstage] at hdone
    exact absurd hdone (by decide)
  have hdone := not_done hi (by rw [hstage]; decide)
  have hasked : ∀ stage done,
      Asked version { s with stage := stage, sessionDone := done } := fun stage done =>
    ⟨hi.asked.asked, hi.asked.sent, hi.asked.closing, hi.asked.drained⟩
  have hwire : ∀ stage done,
      ∃ notified fin, Sent { s with stage := stage, sessionDone := done } notified fin := by
    intro stage done
    refine ⟨false, fin, ?_, by simp, hsent.fin⟩
    rw [hnotified] at hsent
    exact hsent.wire
  unfold Session.join
  -- an exception of either loop skips the tear-down, ...
  by_cases hthrew : s.send.phase = .threw ∨ s.recv = .threw
  · rw [if_pos hthrew]
    exact ⟨hi.loop, hwire _ _, hasked _ _, fun _ => hsettled, fun _ h => absurd rfl h, by simp,
      by simp, by rw [hnone]; simp⟩
  · rw [not_or] at hthrew
    have hphase := hsettled.resolve_right hthrew.1
    have hover := hrecv.resolve_right hthrew.2
    rw [if_neg (not_or.mpr hthrew)]
    -- ... and so does a write that has failed, but for the end of the connection
    by_cases hfailed : s.send.sendFailed = true
    · rw [if_pos hfailed]
      refine ⟨hi.loop, hwire _ s.sessionDone, hasked _ s.sessionDone, fun _ => hsettled,
        fun _ _ => ⟨hphase, hover⟩, by simp, ?_, by simp [hnone]⟩
      simp [hdone]
    · rw [if_neg hfailed]
      refine ⟨hi.loop, hwire _ s.sessionDone, hasked _ s.sessionDone, fun _ => hsettled,
        fun _ _ => ⟨hphase, hover⟩, fun _ => Bool.eq_false_iff.mpr hfailed, ?_, by simp [hnone]⟩
      simp [hdone]

/-- A later stage of the end of the connection, or an exception. -/
theorem Orderly.advance (hi : Orderly version s) (hlate : s.stage ≠ .loops)
    (hopen : s.stage ≠ .threw) (stage : Stage) (hstage : stage ≠ .loops ∧ stage ≠ .teardown)
    (done shut : Bool) (hdone : done = true ↔ stage = .done ∨ stage = .threw)
    (hkeep : s.sessionDone = true → done = true) (hshut : s.shut = true → shut = true) :
    Orderly version { s with stage := stage, sessionDone := done, shut := shut } := by
  obtain ⟨notified, fin, hsent⟩ := hi.sent
  refine ⟨hi.loop, ⟨notified, fin, ?_⟩, ?_, ?_⟩
  · exact hsent.quiet ⟨rfl, rfl, fun _ => hstage, fun h => ⟨h, rfl⟩, id, hshut⟩
  · exact ⟨hi.asked.asked, hi.asked.sent, hi.asked.closing, hi.asked.drained⟩
  · refine ⟨fun _ => hi.staged.late hlate, fun _ _ => hi.staged.orderly hlate hopen,
      fun h => absurd h hstage.2, hdone, ?_⟩
    intro ec hec
    obtain ⟨hdone', hcode⟩ := hi.staged.answered ec hec
    exact ⟨hkeep hdone', hcode⟩

theorem Orderly.putFin (hi : Orderly version s) : Orderly version s.putFin := by
  have hsent := Sent.putFin hi.sent
  unfold Session.putFin at hsent ⊢
  by_cases hshut : s.shut = true
  · rw [if_pos hshut]
    exact hi
  · rw [if_neg hshut] at hsent ⊢
    exact ⟨hi.loop, hsent, ⟨hi.asked.asked, hi.asked.sent, hi.asked.closing, hi.asked.drained⟩,
      hi.staged.late, hi.staged.orderly, hi.staged.teardown, hi.staged.done, hi.staged.answered⟩

/-- The "close_notify" is in order when the tear-down begins, unless `destroy()` has been called. -/
theorem Orderly.closeNotify (hi : Orderly version s) (hstage : s.stage = .teardown)
    (hshut : s.shut = false) :
    Orderly version (({ s with stage := .ending } : Session capacity).put .closeNotify) := by
  obtain ⟨notified, fin, hsent⟩ := hi.sent
  have hlate : s.stage ≠ .loops := by rw [hstage]; decide
  have hopen : s.stage ≠ .threw := by rw [hstage]; decide
  have hdone := not_done hi (by rw [hstage]; decide)
  obtain ⟨hphase, hover⟩ := hi.staged.orderly hlate hopen
  have hnotified : notified = false := by
    refine Bool.eq_false_iff.mpr fun h => ?_
    exact (hsent.notified h).1.2 hstage
  have hfin : fin = false := by
    refine Bool.eq_false_iff.mpr fun h => ?_
    exact absurd ((hsent.fin h).symm.trans hshut) (by decide)
  obtain ⟨datas, hdatas, hwire⟩ := hsent.wire
  obtain ⟨hloop, _, hasked, hstaged⟩ := hi.advance hlate hopen .ending (by decide)
    s.sessionDone s.shut (by rw [hdone]; decide) id id
  refine ⟨hloop, ⟨true, false, ⟨datas, hdatas, ?_⟩, ?_, by simp⟩, ?_, ?_⟩
  · show s.wire ++ [.closeNotify] = _
    rw [hwire, hnotified, hfin]
    simp
  · exact fun _ => ⟨(by decide : Stage.ending ≠ .loops ∧ Stage.ending ≠ .teardown), hphase, hover,
      hi.staged.teardown hstage⟩
  · exact ⟨hasked.asked, hasked.sent, hasked.closing, hasked.drained⟩
  · exact ⟨hstaged.late, hstaged.orderly, hstaged.teardown, hstaged.done, hstaged.answered⟩

/-- Where a call of `shutdown()` is makes no difference. -/
theorem Orderly.call (hi : Orderly version s) (started waiting : Bool) :
    Orderly version { s with shutdownStarted := started, waiting := waiting } := by
  obtain ⟨notified, fin, hsent⟩ := hi.sent
  exact ⟨hi.loop, ⟨notified, fin, hsent.wire, hsent.notified, hsent.fin⟩,
    ⟨hi.asked.asked, hi.asked.sent, hi.asked.closing, hi.asked.drained⟩, hi.staged.late,
    hi.staged.orderly, hi.staged.teardown, hi.staged.done, hi.staged.answered⟩

/-! ### Any step -/

theorem Orderly.step {a : Action} (hi : Orderly version s) (hs : step version s a = some t) :
    Orderly version t := by
  cases a with
  | pass answer wants started goaway =>
    obtain ⟨⟨hstage, hgoaway⟩, ht⟩ := Option.ite_none_right_eq_some.mp hs
    obtain ⟨u, hu, rfl⟩ := Option.map_eq_some_iff.mp ht
    obtain ⟨send, hsend, rfl⟩ := sendStep_cases hu
    exact (hi.send hsend (by simp) (by simp)).sentAfter answer goaway hgoaway
  | progress n =>
    obtain ⟨hshut, ht⟩ := Option.ite_none_left_eq_some.mp hs
    obtain ⟨u, hu, rfl⟩ := Option.map_eq_some_iff.mp ht
    obtain ⟨send, hsend, rfl⟩ := sendStep_cases hu
    exact hi.progress (Bool.eq_false_iff.mpr hshut) hsend
  | writeDone =>
    obtain ⟨send, hsend, rfl⟩ := sendStep_cases hs
    exact hi.send hsend (by simp) (by simp)
  | writeFailed =>
    obtain ⟨send, hsend, rfl⟩ := sendStep_cases hs
    exact hi.send hsend (by simp) (by simp)
  | startWrite =>
    rw [← Option.some.inj hs]
    exact hi.startWrite
  | resume =>
    obtain ⟨send, hsend, rfl⟩ := sendStep_cases hs
    exact hi.send hsend (by simp) (by simp)
  | cancel =>
    obtain ⟨send, hsend, rfl⟩ := sendStep_cases hs
    exact hi.send hsend (by simp) (by simp)
  | recvStart wants =>
    obtain ⟨hrecv, ht⟩ := Option.ite_none_right_eq_some.mp hs
    rw [← Option.some.inj ht]
    exact hi.recvNext (by rw [hrecv]; decide) wants
  | recvSome failed wants =>
    obtain ⟨hrecv, ht⟩ := Option.ite_none_right_eq_some.mp hs
    rw [← Option.some.inj ht]
    have hne : s.recv ≠ .over_ := by rw [hrecv]; decide
    cases failed with
    | false => exact hi.startWrite.recvNext hne wants
    | true =>
      refine hi.recvFailed.startWrite.recvNext ?_ wants
      cases version <;> exact hne
  | recvEof | recvError =>
    obtain ⟨hrecv, ht⟩ := Option.ite_none_right_eq_some.mp hs
    rw [← Option.some.inj ht]
    exact hi.leaveRecv (by rw [hrecv]; decide)
  | recvThrow =>
    obtain ⟨⟨hrecv, _⟩, ht⟩ := Option.ite_none_right_eq_some.mp hs
    rw [← Option.some.inj ht]
    exact hi.recv (by rw [hrecv]; decide) .threw
  | join =>
    obtain ⟨⟨hstage, hsettled, hrecv⟩, ht⟩ := Option.ite_none_right_eq_some.mp hs
    rw [← Option.some.inj ht]
    exact hi.join hstage hsettled hrecv
  | teardown ec =>
    obtain ⟨⟨hstage, hshut⟩, ht⟩ := Option.ite_none_right_eq_some.mp hs
    rw [← Option.some.inj ht]
    have hdone := not_done hi (by rw [hstage]; decide)
    by_cases hec : ec = .success
    · -- all frames are out by then, so that the "close_notify" is behind them
      rw [if_pos hec]
      exact hi.closeNotify hstage (hshut hec)
    · rw [if_neg hec]
      exact hi.advance (by rw [hstage]; decide) (by rw [hstage]; decide) .ending (by decide)
        s.sessionDone s.shut (by rw [hdone]; decide) id id
  | ended ec =>
    obtain ⟨hstage, ht⟩ := Option.ite_none_right_eq_some.mp hs
    rw [← Option.some.inj ht]
    have hdone := not_done hi (by rw [hstage]; decide)
    have hlate : s.stage ≠ .loops ∧ s.stage ≠ .threw := by rw [hstage]; decide
    -- the connection is shut down in order, or cut off
    by_cases hec : ec = .success
    · rw [if_pos hec]
      exact (hi.advance hlate.1 hlate.2 .draining (by decide) s.sessionDone s.shut
        (by rw [hdone]; decide) id id).putFin
    · rw [if_neg hec]
      exact hi.advance hlate.1 hlate.2 .done (by decide) true true (by decide) (fun _ => rfl)
        (fun _ => rfl)
  | drained =>
    obtain ⟨hstage, ht⟩ := Option.ite_none_right_eq_some.mp hs
    rw [← Option.some.inj ht]
    exact hi.advance (by rw [hstage]; decide) (by rw [hstage]; decide) .done (by decide) true true
      (by decide) (fun _ => rfl) (fun _ => rfl)
  | unwind =>
    obtain ⟨⟨_, hstage⟩, ht⟩ := Option.ite_none_right_eq_some.mp hs
    rw [← Option.some.inj ht]
    have hlate : s.stage ≠ .loops ∧ s.stage ≠ .threw := by
      rcases hstage with h | h <;> rw [h] <;> decide
    exact hi.advance hlate.1 hlate.2 .threw (by decide) true s.shut (by decide) (fun _ => rfl) id
  | shutdown =>
    rw [← Option.some.inj hs]
    unfold Session.shutdown
    split
    · exact hi.call true s.waiting
    · -- a GOAWAY is asked for before anything waits for the end
      obtain ⟨hterminated, hasked⟩ := hi.terminate
      exact (hterminated.recvDone hasked).call true true
  | shutdownDone =>
    obtain ⟨hwaits, ht⟩ := Option.ite_none_right_eq_some.mp hs
    rw [← Option.some.inj ht]
    obtain ⟨_, hdone⟩ := Bool.and_eq_true_iff.mp hwaits
    obtain ⟨notified, fin, hsent⟩ := hi.sent
    -- only the answer is new
    refine ⟨hi.loop, ⟨notified, fin, hsent.wire, hsent.notified, hsent.fin⟩,
      ⟨hi.asked.asked, hi.asked.sent, hi.asked.closing, hi.asked.drained⟩, hi.staged.late,
      hi.staged.orderly, hi.staged.teardown, hi.staged.done, ?_⟩
    intro ec hec
    exact ⟨hdone, (Option.some.inj hec).symm⟩
  | shutdownCancel =>
    obtain ⟨_, ht⟩ := Option.ite_none_right_eq_some.mp hs
    rw [← Option.some.inj ht]
    exact hi.call s.shutdownStarted false
  | destroy =>
    rw [← Option.some.inj hs]
    split
    · exact hi
    · exact hi.putFin

theorem orderly_of_run {failed : Bool} {as : List Action}
    (hrun : run (step version) (init version failed : Session capacity) as = some s) :
    Orderly version s :=
  run_inv (fun _ _ _ hi hs => hi.step hs) (Orderly.init failed) hrun

/-- **An HTTP/2 session ends in order.** At any time of any run, the peer has got frames, in the
order nghttp2 has produced them, then possibly a "close_notify", then possibly a FIN, and nothing
behind these. A "close_notify" means that all frames are out, and if the send loop had run out of
frames after the end of what comes in, a GOAWAY among them, unless version 2 of nghttp2 has closed
the connection by itself. `shutdown()` completes only after all that, and tells whether writing has
failed. -/
theorem session_ends {failed : Bool} {as : List Action}
    (hrun : run (step version) (init version failed : Session capacity) as = some s) :
    (∃ datas : List (List UInt8), ∃ tail ∈ [[], [.closeNotify], [.fin], [.closeNotify, .fin]],
      s.wire = datas.map Out.data ++ tail ∧ datas.flatten = s.send.written ∧
        (s.send.sendFailed = false → datas.flatten <+: s.history.produced)) ∧
    (Out.closeNotify ∈ s.wire → s.send.sendFailed = false ∧ s.send.written = s.history.produced ∧
      (s.drained = true → s.goawayOut = true ∨ version = .v2 ∧ s.closing = true)) ∧
    ∀ ec, s.answer = some ec → (s.stage = .done ∨ s.stage = .threw) ∧
      (ec = .connectionAborted ↔ s.send.sendFailed = true) := by
  have hi := orderly_of_run hrun
  obtain ⟨notified, fin, hsent⟩ := hi.sent
  obtain ⟨datas, hdatas, hwire⟩ := hsent.wire
  refine ⟨⟨datas, _, ?_, hwire, hdatas, ?_⟩, ?_, ?_⟩
  · cases notified <;> cases fin <;> simp
  · intro hfailed
    rw [hdatas]
    exact hi.loop.threw hfailed
  · intro hmem
    -- neither the frames nor the FIN are one
    have hnotified : notified = true := by
      rw [hwire, List.mem_append, List.mem_append] at hmem
      rcases hmem with hmem | hmem | hmem
      · obtain ⟨_, _, hdata⟩ := List.mem_map.mp hmem
        exact absurd hdata (by simp)
      · by_contra hnot
        rw [if_neg hnot] at hmem
        exact absurd hmem List.not_mem_nil
      · cases fin <;> simp at hmem
    obtain ⟨_, hphase, _, hfailed⟩ := hsent.notified hnotified
    refine ⟨hfailed, ?_, ?_⟩
    · have hwritten := hi.loop.written hfailed (by rw [hphase]; decide)
      rw [SendLoop.State.pending, if_neg (by rw [hphase]; decide),
        hi.loop.idle (.inr hphase) hfailed, List.append_nil] at hwritten
      exact hwritten
    · intro hdrained
      exact (hi.asked.drained hdrained).imp_right fun h => ⟨hi.asked.closing h, h⟩
  · intro ec hec
    obtain ⟨hdone, hcode⟩ := hi.staged.answered ec hec
    refine ⟨hi.staged.done.mp hdone, ?_⟩
    rw [hcode]
    cases s.send.sendFailed <;> simp

/-- What is being sent when a client shuts down goes out in full, and a GOAWAY after it. -/
theorem session_ends_shutdown :
    ∃ s : Session 4, s.wire = [.data [1, 2, 3, 4, 5], .data [9], .closeNotify, .fin] ∧
      s.send.written = s.history.produced ∧ s.goawayOut = true ∧ s.answer = some .success ∧
        s.send.sendFailed = false := by
  obtain ⟨s, hrun, hwire, hdrained, hclosing, hanswer⟩ : ∃ s : Session 4,
      run (step .v1) (init .v1 false)
        [.recvStart true, .pass (.chunk [1, 2, 3, 4, 5]) true false false, .shutdown, .progress 5,
          .writeDone, .pass (.chunk [9]) true false true, .pass (.chunk []) true false false,
          .progress 1, .writeDone, .pass (.chunk []) true false false, .recvEof, .join,
          .teardown .success, .ended .success, .drained, .shutdownDone] = some s ∧
        s.wire = [.data [1, 2, 3, 4, 5], .data [9], .closeNotify, .fin] ∧ s.drained = true ∧
        s.closing = false ∧ s.answer = some .success := ⟨_, rfl, rfl, rfl, rfl, rfl⟩
  obtain ⟨_, hnotified, _⟩ := session_ends hrun
  obtain ⟨hfailed, hwritten, hgoaway⟩ := hnotified (by rw [hwire]; simp)
  refine ⟨s, hwire, hwritten, ?_, hanswer, hfailed⟩
  exact (hgoaway hdrained).resolve_right fun h => absurd (hclosing.symm.trans h.2) (by decide)

/-! ### Nobody waits for the end in vain -/

/-- What a step of the session does to the send loop, the send loop does in steps of its own. -/
theorem step_send {a : Action} (hs : step version s a = some t) :
    ∃ as, run (noting SendLoop.note (SendLoop.step version)) (s.send, s.history) as =
      some (t.send, t.history) := by
  have hone : ∀ {u : Session capacity} {b : SendLoop.Action}, s.sendStep version b = some u →
      ∃ as, run (noting SendLoop.note (SendLoop.step version)) (s.send, s.history) as =
        some (u.send, u.history) := by
    intro u b hu
    obtain ⟨send, hsend, rfl⟩ := sendStep_cases hu
    exact ⟨[b], run_cons_eq_some.mpr
      ⟨_, (noting_eq_some SendLoop.note).mpr ⟨hsend, rfl⟩, rfl⟩⟩
  have hterminate : ∀ u : Session capacity, (u.terminate version).send = u.send ∧
      (u.terminate version).history = u.history := by
    intro u
    cases version <;> (unfold Session.terminate; dsimp only; split <;> exact ⟨rfl, rfl⟩)
  have hleave : ∀ u : Session capacity, ∃ as,
      run (noting SendLoop.note (SendLoop.step version)) (u.send, u.history) as =
        some ((u.leaveRecv version).send, (u.leaveRecv version).history) := by
    intro u
    refine ⟨[.recvDone], run_cons_eq_some.mpr ⟨_, rfl, ?_⟩⟩
    obtain ⟨hsend, hhistory⟩ := hterminate u
    show some _ = some (({ (u.terminate version).send with recvDone := true } :
      SendLoop.State capacity).startWrite, SendLoop.note (u.terminate version).send .recvDone
        (u.terminate version).history)
    rw [hsend, hhistory]
  have hnext : ∀ (u : Session capacity) (wants : Bool), ∃ as,
      run (noting SendLoop.note (SendLoop.step version)) (u.send, u.history) as =
        some ((u.recvNext version wants).send, (u.recvNext version wants).history) := by
    intro u wants
    have hmore : ∀ more : Bool, ∃ as,
        run (noting SendLoop.note (SendLoop.step version)) (u.send, u.history) as =
          some ((if more then { u with recv := .reading } else u.leaveRecv version).send,
            (if more then { u with recv := .reading } else u.leaveRecv version).history) := by
      intro more
      cases more with
      | true => exact ⟨[], rfl⟩
      | false => exact hleave u
    exact hmore _
  have hput : ∀ u : Session capacity, u.putFin.send = u.send ∧ u.putFin.history = u.history :=
    fun u => ⟨(putFin_send u).1, (putFin_send u).2.2.2⟩
  cases a with
  | pass answer wants started goaway =>
    obtain ⟨_, ht⟩ := Option.ite_none_right_eq_some.mp hs
    obtain ⟨u, hu, rfl⟩ := Option.map_eq_some_iff.mp ht
    obtain ⟨as, has⟩ := hone hu
    exact ⟨as, has⟩
  | progress n =>
    obtain ⟨_, ht⟩ := Option.ite_none_left_eq_some.mp hs
    obtain ⟨u, hu, rfl⟩ := Option.map_eq_some_iff.mp ht
    obtain ⟨as, has⟩ := hone hu
    exact ⟨as, has⟩
  | writeDone => exact hone hs
  | writeFailed => exact hone hs
  | startWrite =>
    rw [← Option.some.inj hs]
    exact ⟨[.startWrite], rfl⟩
  | resume => exact hone hs
  | cancel => exact hone hs
  | recvStart wants =>
    obtain ⟨_, ht⟩ := Option.ite_none_right_eq_some.mp hs
    rw [← Option.some.inj ht]
    exact hnext s wants
  | recvSome failed wants =>
    obtain ⟨_, ht⟩ := Option.ite_none_right_eq_some.mp hs
    rw [← Option.some.inj ht]
    have hstart : (if failed then s.recvFailed version else s).startWrite.send = s.startWrite.send ∧
        (if failed then s.recvFailed version else s).startWrite.history =
          s.startWrite.history := by
      cases failed with
      | false => exact ⟨rfl, rfl⟩
      | true => cases version <;> exact ⟨rfl, rfl⟩
    obtain ⟨as, has⟩ := hnext (if failed then s.recvFailed version else s).startWrite wants
    rw [hstart.1, hstart.2] at has
    exact ⟨.startWrite :: as, run_cons_eq_some.mpr ⟨_, rfl, has⟩⟩
  | recvEof | recvError =>
    obtain ⟨_, ht⟩ := Option.ite_none_right_eq_some.mp hs
    rw [← Option.some.inj ht]
    exact hleave s
  | recvThrow =>
    obtain ⟨_, ht⟩ := Option.ite_none_right_eq_some.mp hs
    rw [← Option.some.inj ht]
    exact ⟨[], rfl⟩
  | join =>
    obtain ⟨_, ht⟩ := Option.ite_none_right_eq_some.mp hs
    rw [← Option.some.inj ht]
    refine ⟨[], ?_⟩
    unfold Session.join
    split
    · rfl
    · split <;> rfl
  | teardown ec =>
    obtain ⟨_, ht⟩ := Option.ite_none_right_eq_some.mp hs
    rw [← Option.some.inj ht]
    refine ⟨[], ?_⟩
    split <;> rfl
  | ended ec =>
    obtain ⟨_, ht⟩ := Option.ite_none_right_eq_some.mp hs
    rw [← Option.some.inj ht]
    refine ⟨[], ?_⟩
    split
    · obtain ⟨hsend, hhistory⟩ := hput { s with stage := .draining }
      rw [hsend, hhistory]
      rfl
    · rfl
  | drained =>
    obtain ⟨_, ht⟩ := Option.ite_none_right_eq_some.mp hs
    rw [← Option.some.inj ht]
    exact ⟨[], rfl⟩
  | unwind =>
    obtain ⟨_, ht⟩ := Option.ite_none_right_eq_some.mp hs
    rw [← Option.some.inj ht]
    exact ⟨[], rfl⟩
  | shutdown =>
    rw [← Option.some.inj hs]
    unfold Session.shutdown
    split
    · exact ⟨[], rfl⟩
    · obtain ⟨as, has⟩ := hleave s
      exact ⟨as, has⟩
  | shutdownDone =>
    obtain ⟨_, ht⟩ := Option.ite_none_right_eq_some.mp hs
    rw [← Option.some.inj ht]
    exact ⟨[], rfl⟩
  | shutdownCancel =>
    obtain ⟨_, ht⟩ := Option.ite_none_right_eq_some.mp hs
    rw [← Option.some.inj ht]
    exact ⟨[], rfl⟩
  | destroy =>
    rw [← Option.some.inj hs]
    refine ⟨[], ?_⟩
    split
    · rfl
    · obtain ⟨hsend, hhistory⟩ := hput s
      rw [hsend, hhistory]
      rfl

/-- A loop that waits after the end of what comes in has been woken since. -/
def Roused (x : SendLoop.State capacity × SendLoop.History) : Prop :=
  x.1.phase = .waiting → x.1.recvDone = true → x.2.started = true

theorem Roused.step {x y : SendLoop.State capacity × SendLoop.History} {a : SendLoop.Action}
    (h : Roused x) (hs : noting SendLoop.note (SendLoop.step version) x a = some y) : Roused y := by
  obtain ⟨s, b⟩ := x
  obtain ⟨t, c⟩ := y
  obtain ⟨ht, rfl⟩ := (noting_eq_some SendLoop.note).mp hs
  intro hphase hdone
  cases a with
  | startWrite => rfl
  | recvDone => rfl
  | pass answer wants started =>
    -- a pass that finds nothing more is coming in does not wait
    obtain ⟨hrunning, hpass⟩ := Option.ite_none_right_eq_some.mp ht
    have hcleared : (s.cleared started).phase = .running ∧
        (s.cleared started).recvDone = s.recvDone := by
      cases started <;> exact ⟨hrunning, rfl⟩
    rw [← Option.some.inj hpass] at hphase hdone
    have hwaits := SendLoop.pass_waiting hcleared.1 wants answer hphase
    have hdone' : (version.pass (s.cleared started) wants answer).recvDone = true := hdone
    rw [(SendLoop.pass_frame (s.cleared started) wants answer).2.1] at hdone'
    exact absurd (hdone'.symm.trans hwaits) (by decide)
  | progress n =>
    obtain ⟨hwriting, hsend⟩ := Option.ite_none_right_eq_some.mp ht
    rw [← Option.some.inj hsend] at hphase
    exact absurd (hwriting.symm.trans hphase) (by decide)
  | writeDone =>
    obtain ⟨_, hsend⟩ := Option.ite_none_right_eq_some.mp ht
    rw [← Option.some.inj hsend] at hphase
    exact absurd hphase (by simp)
  | writeFailed =>
    obtain ⟨_, hsend⟩ := Option.ite_none_right_eq_some.mp ht
    rw [← Option.some.inj hsend] at hphase
    exact absurd hphase (by simp)
  | cancel =>
    rw [← Option.some.inj ht] at hphase hdone
    exact h hphase hdone
  | resume =>
    rw [SendLoop.step] at ht
    cases hwoken : s.sendReady.woken with
    | none =>
      rw [hwoken] at ht
      exact absurd ht (by simp)
    | some ec =>
      rw [hwoken] at ht
      rw [← Option.some.inj ht] at hphase
      dsimp only at hphase
      split at hphase <;> exact absurd hphase (by decide)

/-- Only `shutdown()` waits. -/
theorem step_waiting {a : Action} (hs : step version s a = some t) :
    t.waiting = s.waiting ∨ a = .shutdown ∨ a = .shutdownDone ∨ a = .shutdownCancel := by
  have hterminate : ∀ u : Session capacity, (u.terminate version).waiting = u.waiting := by
    intro u
    cases version <;> (unfold Session.terminate; dsimp only; split <;> rfl)
  have hnext : ∀ (u : Session capacity) (wants : Bool),
      (u.recvNext version wants).waiting = u.waiting := by
    intro u wants
    have hmore : ∀ more : Bool,
        (if more then { u with recv := .reading } else u.leaveRecv version).waiting =
          u.waiting := by
      intro more
      cases more with
      | true => rfl
      | false => exact hterminate u
    exact hmore _
  have hput : ∀ u : Session capacity, u.putFin.waiting = u.waiting := by
    intro u
    unfold Session.putFin
    split <;> rfl
  cases a with
  | shutdown => exact .inr (.inl rfl)
  | shutdownDone => exact .inr (.inr (.inl rfl))
  | shutdownCancel => exact .inr (.inr (.inr rfl))
  | pass answer wants started goaway =>
    obtain ⟨_, ht⟩ := Option.ite_none_right_eq_some.mp hs
    obtain ⟨u, hu, rfl⟩ := Option.map_eq_some_iff.mp ht
    obtain ⟨send, _, rfl⟩ := sendStep_cases hu
    exact .inl rfl
  | progress n =>
    obtain ⟨_, ht⟩ := Option.ite_none_left_eq_some.mp hs
    obtain ⟨u, hu, rfl⟩ := Option.map_eq_some_iff.mp ht
    obtain ⟨send, _, rfl⟩ := sendStep_cases hu
    exact .inl rfl
  | writeDone =>
    obtain ⟨send, _, rfl⟩ := sendStep_cases hs
    exact .inl rfl
  | writeFailed =>
    obtain ⟨send, _, rfl⟩ := sendStep_cases hs
    exact .inl rfl
  | startWrite =>
    rw [← Option.some.inj hs]
    exact .inl rfl
  | resume =>
    obtain ⟨send, _, rfl⟩ := sendStep_cases hs
    exact .inl rfl
  | cancel =>
    obtain ⟨send, _, rfl⟩ := sendStep_cases hs
    exact .inl rfl
  | recvStart wants =>
    obtain ⟨_, ht⟩ := Option.ite_none_right_eq_some.mp hs
    rw [← Option.some.inj ht]
    exact .inl (hnext s wants)
  | recvSome failed wants =>
    obtain ⟨_, ht⟩ := Option.ite_none_right_eq_some.mp hs
    rw [← Option.some.inj ht]
    refine .inl ((hnext _ wants).trans ?_)
    cases failed with
    | false => rfl
    | true => cases version <;> rfl
  | recvEof | recvError =>
    obtain ⟨_, ht⟩ := Option.ite_none_right_eq_some.mp hs
    rw [← Option.some.inj ht]
    exact .inl (hterminate s)
  | recvThrow =>
    obtain ⟨_, ht⟩ := Option.ite_none_right_eq_some.mp hs
    rw [← Option.some.inj ht]
    exact .inl rfl
  | join =>
    obtain ⟨_, ht⟩ := Option.ite_none_right_eq_some.mp hs
    rw [← Option.some.inj ht]
    unfold Session.join
    split
    · exact .inl rfl
    · split <;> exact .inl rfl
  | teardown ec =>
    obtain ⟨_, ht⟩ := Option.ite_none_right_eq_some.mp hs
    rw [← Option.some.inj ht]
    split <;> exact .inl rfl
  | ended ec =>
    obtain ⟨_, ht⟩ := Option.ite_none_right_eq_some.mp hs
    rw [← Option.some.inj ht]
    split
    · exact .inl (hput _)
    · exact .inl rfl
  | drained =>
    obtain ⟨_, ht⟩ := Option.ite_none_right_eq_some.mp hs
    rw [← Option.some.inj ht]
    exact .inl rfl
  | unwind =>
    obtain ⟨_, ht⟩ := Option.ite_none_right_eq_some.mp hs
    rw [← Option.some.inj ht]
    exact .inl rfl
  | destroy =>
    rw [← Option.some.inj hs]
    split
    · exact .inl rfl
    · exact .inl (hput s)

/-- What waits for the end of a session has made it end. -/
structure Awaited (version : SendLoop.Version) (s : Session capacity) : Prop where
  orderly : Orderly version s
  roused : Roused (s.send, s.history)
  recvDone : s.waiting = true → s.send.recvDone = true

theorem Awaited.step {a : Action} (hi : Awaited version s) (hs : step version s a = some t) :
    Awaited version t := by
  obtain ⟨as, has⟩ := step_send hs
  have hdone : s.send.recvDone = true → t.send.recvDone = true := by
    intro hdone
    refine run_inv (P := fun x => x.1.recvDone = true) ?_ hdone has
    rintro ⟨u, b⟩ c ⟨v, d⟩ hu hv
    have hstep := ((noting_eq_some SendLoop.note).mp hv).1
    -- what is set when a client shuts down stays set
    by_cases hc : c = .recvDone
    · rw [hc] at hstep
      rw [← Option.some.inj hstep]
      rfl
    · exact (SendLoop.step_recvDone hstep hc).trans hu
  refine ⟨hi.orderly.step hs, run_inv (fun _ _ _ h hc => h.step hc) hi.roused has, ?_⟩
  intro hwaits
  -- it is `shutdown()` that begins to wait, after it has set `recv_done_`
  rcases step_waiting hs with h | rfl | rfl | rfl
  · exact hdone (hi.recvDone (h.symm.trans hwaits))
  · rw [Session.step, Option.some.injEq] at hs
    unfold Session.shutdown at hs
    split at hs
    · rw [← hs] at hwaits ⊢
      exact hi.recvDone hwaits
    · rw [← hs]
      rfl
  · obtain ⟨_, ht⟩ := Option.ite_none_right_eq_some.mp hs
    rw [← Option.some.inj ht] at hwaits
    exact absurd hwaits (by simp)
  · obtain ⟨_, ht⟩ := Option.ite_none_right_eq_some.mp hs
    rw [← Option.some.inj ht] at hwaits
    exact absurd hwaits (by simp)

/-- What the session does, its connection, the peer and nghttp2, and not anybody else.  Nothing
fails unless nothing more goes out, as somebody has called `destroy()` before (`shut`). -/
def Action.own (shut : Bool) : Action → Bool
  | .startWrite | .cancel | .recvThrow | .unwind | .shutdown | .shutdownDone | .shutdownCancel
  | .destroy | .recvError | .recvSome true _ => false
  | .pass answer _ _ _ => answer != .error
  | .writeFailed => shut
  | .teardown ec | .ended ec => shut || ec == .success
  | _ => true

variable {shut : Bool}

theorem leads_of_step {a : Action} (hown : a.own shut = true)
    (hs : Session.step version s a = some t) :
    Leads (Session.step version) (Action.own shut) s t :=
  .of_step hown hs

/-- The session gets there on its own. -/
theorem awaited_of_leads (h : Leads (Session.step version) (Action.own shut) s t)
    (hi : Awaited version s) : Awaited version t ∧ t.waiting = s.waiting := by
  refine h.inv (P := fun u => Awaited version u ∧ u.waiting = s.waiting) ?_ ⟨hi, rfl⟩
  rintro u a v hown ⟨hu, hsame⟩ hv
  refine ⟨hu.step hv, ?_⟩
  rcases step_waiting hv with h | rfl | rfl | rfl
  · exact h.trans hsame
  all_goals exact absurd hown Bool.false_ne_true

/-- The send loop is over, and the session as it was otherwise. -/
structure Halted (shut : Bool) (s t : Session capacity) : Prop where
  settled : t.send.Settled
  stage : t.stage = s.stage
  recv : t.recv = s.recv
  shut : t.shut = shut

/-- A pass in which nghttp2 has nothing to send, but for a GOAWAY. -/
theorem step_pass_nothing (version : SendLoop.Version) (hphase : s.send.phase = .running)
    (hstage : s.stage = .loops) :
    ∃ t, Session.step version s (.pass (.chunk []) true false true) = some t ∧
      t.send = version.pass (s.send.cleared false) true (.chunk []) ∧ t.stage = s.stage ∧
      t.recv = s.recv ∧ t.shut = s.shut := by
  have hsend : SendLoop.step version s.send (.pass (.chunk []) true false) =
      some (version.pass (s.send.cleared false) true (.chunk [])) := by
    rw [SendLoop.step, if_pos hphase]
  refine ⟨({ s with
      send := version.pass (s.send.cleared false) true (.chunk [])
      history := SendLoop.note s.send (.pass (.chunk []) true false) s.history } :
      Session capacity).sent version (.chunk []) true, ?_, rfl, rfl, rfl, ?_⟩
  · rw [Session.step, if_pos ⟨hstage, fun _ _ => .inr rfl⟩, Session.sendStep, hsend]
    rfl
  · simp [Session.sent]

/-- With nothing more to write, and nothing that may come in, a pass is the last one. -/
theorem halted_of_empty (version : SendLoop.Version) (hphase : s.send.phase = .running)
    (hempty : s.send.buffer = .empty) (hdone : s.send.recvDone = true) (hstage : s.stage = .loops)
    (hshut : s.shut = shut) :
    ∃ t, Leads (Session.step version) (Action.own shut) s t ∧ Halted shut s t := by
  have hend : (version.pass (s.send.cleared false) true (.chunk [])).phase = .ended := by
    have hcleared : (s.send.cleared false).recvDone = true := hdone
    cases version with
    | v1 =>
      show (SendLoop.V1.pass (s.send.cleared false) true (.chunk [])).phase = .ended
      have hsize : ¬0 < (s.send.cleared false).buffer.size + ([] : List UInt8).length := by
        show ¬0 < s.send.buffer.size + 0
        rw [hempty]
        exact Nat.lt_irrefl 0
      unfold SendLoop.V1.pass
      dsimp only
      rw [dif_neg (fun hand => hand.1 rfl), if_neg hsize, if_pos hcleared]
    | v2 =>
      show (SendLoop.V2.pass (s.send.cleared false) (.chunk [])).phase = .ended
      unfold SendLoop.V2.pass
      dsimp only
      rw [if_neg (by simp), if_pos hcleared]
  obtain ⟨t, hpass, hsend, hstage', hrecv, hsame⟩ := step_pass_nothing version hphase hstage
  exact ⟨t, leads_of_step (a := .pass (.chunk []) true false true) rfl hpass,
    ⟨by rw [hsend]; exact .inl hend, hstage', hrecv, hsame.trans hshut⟩⟩

/-- A write that is in progress gets to its end, or fails if nothing goes out any more. -/
theorem leads_of_writing (version : SendLoop.Version) (hphase : s.send.phase = .writing)
    (hdone : s.send.recvDone = true) (hstage : s.stage = .loops) (hshut : s.shut = shut) :
    ∃ t, Leads (Session.step version) (Action.own shut) s t ∧ Halted shut s t := by
  cases shut with
  | true =>
    have hsend : SendLoop.step version s.send .writeFailed =
        some { s.send with phase := .ended, sendFailed := true } := by
      rw [SendLoop.step, if_pos hphase]
    refine ⟨{ s with
        send := { s.send with phase := .ended, sendFailed := true }
        history := SendLoop.note s.send .writeFailed s.history },
      leads_of_step (a := .writeFailed) rfl ?_, ⟨.inl rfl, rfl, rfl, hshut⟩⟩
    show s.sendStep version .writeFailed = _
    rw [Session.sendStep, hsend]
    rfl
  | false =>
    -- the connection takes all of it
    set n := s.send.rest.length with hn
    have htaken : SendLoop.step version s.send (.progress n) =
        some { s.send with rest := [], written := s.send.written ++ s.send.rest } := by
      rw [SendLoop.step, if_pos hphase, hn, List.drop_length, List.take_length]
    set u : Session capacity := { s with
      send := { s.send with rest := [], written := s.send.written ++ s.send.rest }
      history := SendLoop.note s.send (.progress n) s.history }.put
        (.data (s.send.rest.take n)) with hu
    have hprogress : Session.step version s (.progress n) = some u := by
      rw [Session.step, if_neg (by rw [hshut]; exact Bool.false_ne_true), Session.sendStep, htaken]
      rfl
    have hover : SendLoop.step version u.send .writeDone =
        some { u.send with phase := .running, buffer := .empty } := by
      rw [SendLoop.step, if_pos ⟨hphase, rfl⟩]
    have hwritten : Session.step version u .writeDone = some { u with
        send := { u.send with phase := .running, buffer := .empty }
        history := SendLoop.note u.send .writeDone u.history } := by
      show u.sendStep version .writeDone = _
      rw [Session.sendStep, hover]
      rfl
    obtain ⟨t, ht, hhalted⟩ := halted_of_empty version
      (s := { u with
        send := { u.send with phase := .running, buffer := .empty }
        history := SendLoop.note u.send .writeDone u.history }) rfl rfl hdone hstage hshut
    refine ⟨t, ((leads_of_step (a := .progress n) rfl hprogress).trans
      (leads_of_step (a := .writeDone) rfl hwritten)).trans ht, ?_⟩
    exact ⟨hhalted.settled, hhalted.stage, hhalted.recv, hhalted.shut⟩

/-- A pass after the end of what comes in, with nothing more from nghttp2, does not wait. -/
theorem pass_done (version : SendLoop.Version) {send : SendLoop.State capacity}
    (hdone : send.recvDone = true) :
    (version.pass send true (.chunk [])).Settled ∨
      (version.pass send true (.chunk [])).phase = .writing := by
  have hwrite : ∀ bytes, (send.write bytes).Settled ∨ (send.write bytes).phase = .writing := by
    intro bytes
    unfold SendLoop.State.write
    split
    · exact .inl (.inr rfl)
    · exact .inr rfl
  cases version with
  | v1 =>
    show (SendLoop.V1.pass send true (.chunk [])).Settled ∨
      (SendLoop.V1.pass send true (.chunk [])).phase = .writing
    unfold SendLoop.V1.pass
    dsimp only
    rw [dif_neg (fun hand => hand.1 rfl)]
    -- what has been bundled goes out before the loop ends
    by_cases hsize : 0 < send.buffer.size + ([] : List UInt8).length
    · rw [if_pos hsize]
      exact hwrite _
    · rw [if_neg hsize, if_pos hdone]
      exact .inl (.inl rfl)
  | v2 =>
    show (SendLoop.V2.pass send (.chunk [])).Settled ∨
      (SendLoop.V2.pass send (.chunk [])).phase = .writing
    unfold SendLoop.V2.pass
    dsimp only
    rw [if_neg (by simp), if_pos hdone]
    exact .inl (.inl rfl)

theorem leads_of_running (version : SendLoop.Version) (hphase : s.send.phase = .running)
    (hdone : s.send.recvDone = true) (hstage : s.stage = .loops) (hshut : s.shut = shut) :
    ∃ t, Leads (Session.step version) (Action.own shut) s t ∧ Halted shut s t := by
  obtain ⟨u, hpass, hsend, hstage', hrecv, hsame⟩ := step_pass_nothing version hphase hstage
  have hleads : Leads (Session.step version) (Action.own shut) s u :=
    leads_of_step (a := .pass (.chunk []) true false true) rfl hpass
  have hcleared : (s.send.cleared false).recvDone = true := hdone
  rcases pass_done version hcleared with hsettled | hwriting
  · exact ⟨u, hleads, by rw [hsend]; exact hsettled, hstage', hrecv, hsame.trans hshut⟩
  · -- what was bundled is on its way
    have hdone' : u.send.recvDone = true := by
      rw [hsend, (SendLoop.pass_frame _ true (.chunk [])).2.1]
      exact hcleared
    obtain ⟨t, ht, hhalted⟩ := leads_of_writing version (by rw [hsend]; exact hwriting) hdone'
      (hstage'.trans hstage) (hsame.trans hshut)
    exact ⟨t, hleads.trans ht, hhalted.settled, hhalted.stage.trans hstage',
      hhalted.recv.trans hrecv, hhalted.shut⟩

/-- Once nothing more is expected to come in, the send loop ends. -/
theorem leads_to_settled (hi : Awaited version s) (hdone : s.send.recvDone = true)
    (hstage : s.stage = .loops) :
    ∃ t, Leads (Session.step version) (Action.own s.shut) s t ∧ Halted s.shut s t := by
  cases hphase : s.send.phase with
  | running => exact leads_of_running version hphase hdone hstage rfl
  | writing => exact leads_of_writing version hphase hdone hstage rfl
  | ended => exact ⟨s, .refl s, .inl hphase, rfl, rfl, rfl⟩
  | threw => exact ⟨s, .refl s, .inr hphase, rfl, rfl, rfl⟩
  | waiting =>
    -- it has been woken, so it runs again or has been cancelled
    have hwoken : s.send.sendReady.woken ≠ none := by
      intro hnone
      have hwoken := hi.orderly.loop.woken
      have hwaits := (hwoken.waits.mpr hphase).resolve_right (absurd hnone)
      have hset := hwoken.latched (hi.roused hphase hdone)
      exact absurd (hset.symm.trans (hwoken.unset hwaits)) (by decide)
    obtain ⟨ec, hec⟩ := Option.ne_none_iff_exists'.mp hwoken
    have hsend : SendLoop.step version s.send .resume = some { s.send with
        phase := if ec = .success then .running else .ended
        sendReady := { s.send.sendReady with woken := none } } := by
      rw [SendLoop.step, hec]
    have hresume : Session.step version s .resume = some { s with
        send := { s.send with
          phase := if ec = .success then .running else .ended
          sendReady := { s.send.sendReady with woken := none } }
        history := SendLoop.note s.send .resume s.history } := by
      show s.sendStep version .resume = _
      rw [Session.sendStep, hsend]
      rfl
    have hleads : Leads (Session.step version) (Action.own s.shut) s _ :=
      leads_of_step (a := .resume) rfl hresume
    -- the wait has been woken, or cancelled
    by_cases hcode : ec = .success
    · rw [if_pos hcode] at hleads
      obtain ⟨t, ht, hhalted⟩ :=
        leads_of_running version (s := { s with
          send := { s.send with
            phase := .running
            sendReady := { s.send.sendReady with woken := none } }
          history := SendLoop.note s.send .resume s.history }) rfl hdone hstage rfl
      exact ⟨t, hleads.trans ht, hhalted.settled, hhalted.stage, hhalted.recv, hhalted.shut⟩
    · rw [if_neg hcode] at hleads
      exact ⟨_, hleads, .inl rfl, rfl, rfl, rfl⟩

/-- The receive loop may end at any time, as the peer may end the connection. -/
theorem leads_to_recv (version : SendLoop.Version) (hsettled : s.send.Settled)
    (hstage : s.stage = .loops) :
    ∃ t, Leads (Session.step version) (Action.own shut) s t ∧ t.send.Settled ∧ t.stage = .loops ∧
      (t.recv = .over_ ∨ t.recv = .threw) ∧ t.shut = s.shut := by
  have hleave : ∀ u : Session capacity, u.send.Settled → u.stage = .loops →
      (u.leaveRecv version).send.Settled ∧ (u.leaveRecv version).stage = .loops ∧
        (u.leaveRecv version).shut = u.shut := by
    intro u hu hstage
    cases version <;>
      (unfold Session.leaveRecv Session.terminate; dsimp only; split <;> exact ⟨hu, hstage, rfl⟩)
  have hreading : ∀ u : Session capacity, u.recv = .reading → u.send.Settled → u.stage = .loops →
      ∃ t, Leads (Session.step version) (Action.own shut) u t ∧ t.send.Settled ∧
        t.stage = .loops ∧ (t.recv = .over_ ∨ t.recv = .threw) ∧ t.shut = u.shut := by
    intro u hu hsettled hstage
    obtain ⟨hsettled', hstage', hshut⟩ := hleave u hsettled hstage
    refine ⟨u.leaveRecv version, leads_of_step (a := .recvEof) rfl ?_, hsettled', hstage',
      .inl rfl, hshut⟩
    rw [Session.step, if_pos hu]
  cases hrecv : s.recv with
  | over_ => exact ⟨s, .refl s, hsettled, hstage, .inl hrecv, rfl⟩
  | threw => exact ⟨s, .refl s, hsettled, hstage, .inr hrecv, rfl⟩
  | reading => exact hreading s hrecv hsettled hstage
  | starting =>
    have hstart : Session.step version s (.recvStart false) = some (s.recvNext version false) := by
      rw [Session.step, if_pos hrecv]
    have hleads : Leads (Session.step version) (Action.own shut) s _ :=
      leads_of_step (a := .recvStart false) rfl hstart
    have hnext : s.recvNext version false = { s with recv := .reading } ∨
        s.recvNext version false = s.leaveRecv version := by
      have hmore : ∀ more : Bool,
          (if more then { s with recv := .reading } else s.leaveRecv version) =
              { s with recv := .reading } ∨
            (if more then { s with recv := .reading } else s.leaveRecv version) =
              s.leaveRecv version := by
        intro more
        cases more with
        | true => exact .inl rfl
        | false => exact .inr rfl
      exact hmore _
    rcases hnext with hnext | hnext
    · rw [hnext] at hleads
      obtain ⟨t, ht, hrest⟩ := hreading { s with recv := .reading } rfl hsettled hstage
      exact ⟨t, hleads.trans ht, hrest⟩
    · rw [hnext] at hleads
      obtain ⟨hsettled', hstage', hshut⟩ := hleave s hsettled hstage
      exact ⟨_, hleads, hsettled', hstage', .inl rfl, hshut⟩

/-- `end_connection()` ends. -/
theorem leads_to_done (hi : Orderly version s) (hstage : s.stage ≠ .loops)
    (hshut : s.shut = shut) :
    ∃ t, Leads (Session.step version) (Action.own shut) s t ∧ t.sessionDone = true := by
  have hdraining : ∀ u : Session capacity, u.stage = .draining →
      ∃ t, Leads (Session.step version) (Action.own shut) u t ∧ t.sessionDone = true := by
    intro u hu
    refine ⟨u.finished, leads_of_step (a := .drained) rfl ?_, rfl⟩
    rw [Session.step, if_pos hu]
  have hending : ∀ u : Session capacity, u.stage = .ending →
      ∃ t, Leads (Session.step version) (Action.own shut) u t ∧ t.sessionDone = true := by
    intro u hu
    have hended : Session.step version u (.ended .success) =
        some { u with stage := .draining }.putFin := by
      rw [Session.step, if_pos hu, if_pos rfl]
    obtain ⟨t, ht, hdone⟩ := hdraining { u with stage := .draining }.putFin (putFin_send _).2.2.1
    exact ⟨t, (leads_of_step (a := .ended .success) (Bool.or_true shut) hended).trans ht, hdone⟩
  cases hcase : s.stage with
  | loops => exact absurd hcase hstage
  | done => exact ⟨s, .refl s, hi.staged.done.mpr (.inl hcase)⟩
  | threw => exact ⟨s, .refl s, hi.staged.done.mpr (.inr hcase)⟩
  | draining => exact hdraining s hcase
  | ending => exact hending s hcase
  | teardown =>
    obtain ⟨u, hleads, hu⟩ : ∃ u, Leads (Session.step version) (Action.own shut) s u ∧
        u.stage = .ending := by
      cases shut with
      | true =>
        refine ⟨{ s with stage := .ending },
          leads_of_step (a := .teardown .connectionAborted) rfl ?_, rfl⟩
        rw [Session.step, if_pos ⟨hcase, fun h => absurd h (by decide)⟩]
        rfl
      | false =>
        refine ⟨{ s with stage := .ending }.put .closeNotify,
          leads_of_step (a := .teardown .success) rfl ?_, rfl⟩
        rw [Session.step, if_pos ⟨hcase, fun _ => hshut⟩]
        rfl
    obtain ⟨t, ht, hdone⟩ := hending u hu
    exact ⟨t, hleads.trans ht, hdone⟩

/-- Once nothing more is expected to come in, the session ends. -/
theorem leads_to_end (hi : Awaited version s) (hdone : s.send.recvDone = true) :
    ∃ t, Leads (Session.step version) (Action.own s.shut) s t ∧ t.sessionDone = true := by
  -- the loops are still running, or `end_connection()` is
  by_cases hstage : s.stage = .loops
  · obtain ⟨t, ht, hhalted⟩ := leads_to_settled hi hdone hstage
    obtain ⟨u, hu, hsettled', hloops, hrecv, hshut⟩ :
        ∃ u, Leads (Session.step version) (Action.own s.shut) t u ∧ u.send.Settled ∧
          u.stage = .loops ∧ (u.recv = .over_ ∨ u.recv = .threw) ∧ u.shut = t.shut :=
      leads_to_recv version hhalted.settled (hhalted.stage.trans hstage)
    have hjoin : Leads (Session.step version) (Action.own s.shut) u u.join := by
      refine leads_of_step (a := .join) rfl ?_
      rw [Session.step, if_pos ⟨hloops, hsettled', hrecv⟩]
    have hlate : u.join.stage ≠ .loops ∧ u.join.shut = u.shut := by
      unfold Session.join
      split
      · exact ⟨by simp, rfl⟩
      · split
        · exact ⟨by simp, rfl⟩
        · exact ⟨by simp, rfl⟩
    have hleads := (ht.trans hu).trans hjoin
    obtain ⟨v, hv, hend⟩ := leads_to_done (awaited_of_leads hleads hi).1.orderly hlate.1
      (hlate.2.trans (hshut.trans hhalted.shut))
    exact ⟨v, hleads.trans hv, hend⟩
  · exact leads_to_done hi.orderly hstage rfl

/-- **Nobody waits for the end in vain.** Whenever `shutdown()` of a client waits for the end of the
session, in any state of any run, the session, its connection, the peer and nghttp2 can get to where
it completes, without a failure, and without anybody calling `start_write()`, or `shutdown()` or
`destroy()`, once more: no wake-up has been lost. -/
theorem shutdown_completes {failed : Bool} {as : List Action}
    (hrun : run (step version) (init version failed : Session capacity) as = some s)
    (hwaiting : s.waiting = true) :
    ∃ bs, (∀ b ∈ bs, Action.own s.shut b = true) ∧ ∃ t,
      run (step version) s (bs ++ [.shutdownDone]) = some t ∧ t.waiting = false ∧
        t.answer ≠ none := by
  have hi : Awaited version s := by
    refine run_inv (P := Awaited version) (fun _ _ _ hi hs => hi.step hs) ?_ hrun
    have hinit : Orderly version (init version failed : Session capacity) := .init failed
    have hfresh : (init version failed : Session capacity).send = {} ∧
        (init version failed : Session capacity).waiting = false := by
      cases failed with
      | false => exact ⟨rfl, rfl⟩
      | true => cases version <;> exact ⟨rfl, rfl⟩
    refine ⟨hinit, ?_, ?_⟩
    · intro hphase
      exact absurd ((congrArg SendLoop.State.phase hfresh.1).symm.trans hphase) (by simp)
    · intro hwaits
      exact absurd (hfresh.2.symm.trans hwaits) (by decide)
  obtain ⟨t, hleads, hend⟩ := leads_to_end hi (hi.recvDone hwaiting)
  obtain ⟨_, hwaiting'⟩ := awaited_of_leads hleads hi
  obtain ⟨bs, hown, hbs⟩ := hleads
  have hlast : Session.step version t .shutdownDone = some { t with
      waiting := false
      answer := some (if t.send.sendFailed then .connectionAborted else .success) } := by
    rw [Session.step, hwaiting', hwaiting, hend]
    rfl
  exact ⟨bs, hown, _, run_trans hbs (run_cons_eq_some.mpr ⟨_, hlast, rfl⟩), rfl, by simp⟩

/-- A client shuts down while its send loop waits. -/
theorem shutdown_completes_waiting :
    ∃ s : Session 4, s.waiting = true ∧ s.send.phase = .waiting ∧
      ∃ bs, (∀ b ∈ bs, Action.own s.shut b = true) ∧ ∃ t,
        run (step .v2) s (bs ++ [.shutdownDone]) = some t ∧ t.waiting = false ∧
          t.answer ≠ none := by
  obtain ⟨s, hrun, hwaiting, hphase⟩ : ∃ s : Session 4,
      run (step .v2) (init .v2 false)
        [.recvStart true, .pass (.chunk [7]) true false false, .progress 1, .writeDone,
          .pass (.chunk []) true false false, .shutdown] = some s ∧
        s.waiting = true ∧ s.send.phase = .waiting := ⟨_, rfl, rfl, rfl⟩
  exact ⟨s, hwaiting, hphase, shutdown_completes hrun hwaiting⟩

end Session

end AnyHttp.H2
