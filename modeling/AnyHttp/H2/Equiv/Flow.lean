import AnyHttp.H2.Equiv.Incoming
import AnyHttp.H2.Equiv.Deferral
import AnyHttp.H2.Transfer

/-!
# How a step moves a body

What has been received grows with `on_data()` only, and what nghttp2 has been given only where it
asks for it; a stream that is not closed is known to its session, and once it is closed, it stays
so.
-/

namespace AnyHttp.H2.Stream

open Lib

variable {m t u : Stream} {a : Action} {after : Stream → Stream}

/-- Neither body is moved. -/
structure Still (m t : Stream) : Prop where
  backend : t.backend = m.backend
  received : t.received = m.received
  eofReceived : t.rx.eofReceived = m.rx.eofReceived
  handed : t.handed = m.handed
  ended : t.ended = m.ended
  framed : t.framed = m.framed
  closed : t.closed = false → m.closed = false
  destroyed : t.destroyed = false → m.destroyed = false

theorem Still.refl (m : Stream) : Still m m := ⟨rfl, rfl, rfl, rfl, rfl, rfl, id, id⟩

theorem Still.trans (h₁ : Still m t) (h₂ : Still t u) : Still m u where
  backend := h₂.backend.trans h₁.backend
  received := h₂.received.trans h₁.received
  eofReceived := h₂.eofReceived.trans h₁.eofReceived
  handed := h₂.handed.trans h₁.handed
  ended := h₂.ended.trans h₁.ended
  framed := h₂.framed.trans h₁.framed
  closed h := h₁.closed (h₂.closed h)
  destroyed h := h₁.destroyed (h₂.destroyed h)

/-- What `call_read_handler()` and `close_stream()` consist of. -/
theorem keeps_still (m : Stream) : Keeps (Still m) where
  buffer u data hu := by
    refine hu.trans ?_
    unfold buffer
    split <;> exact ⟨rfl, rfl, rfl, rfl, rfl, rfl, id, id⟩
  enter u data hu := hu.trans ⟨rfl, rfl, rfl, rfl, rfl, rfl, id, id⟩
  advance u hu := by
    refine hu.trans ?_
    unfold advance
    split <;> exact ⟨rfl, rfl, rfl, rfl, rfl, rfl, id, id⟩
  credit u hu := by
    refine hu.trans ?_
    unfold credit
    split <;> exact ⟨rfl, rfl, rfl, rfl, rfl, rfl, id, id⟩
  park u hu := hu.trans ⟨rfl, rfl, rfl, rfl, rfl, rfl, id, id⟩
  leave u hu := hu.trans ⟨rfl, rfl, rfl, rfl, rfl, rfl, id, id⟩
  deliver u h _ _ hu := hu.trans ⟨rfl, rfl, rfl, rfl, rfl, rfl, id, id⟩
  failRead u h ec f _ _ _ hu := hu.trans ⟨rfl, rfl, rfl, rfl, rfl, rfl, id, id⟩
  closeWrite u h _ _ hu := hu.trans ⟨rfl, rfl, rfl, rfl, rfl, rfl, id, id⟩
  failResponse u h _ hu := hu.trans ⟨rfl, rfl, rfl, rfl, rfl, rfl, id, id⟩
  flags u closed closeDeferred registered fault deletePending hle hu := by
    refine hu.trans ⟨rfl, rfl, rfl, rfl, rfl, rfl, ?_, id⟩
    intro hopen
    rw [show closed = false from hopen] at hle
    exact Bool.eq_false_of_le_false hle

theorem still_deliverResponse (m : Stream) : Still m m.deliverResponse := by
  unfold deliverResponse
  split
  · exact .refl m
  · split
    · exact .refl m
    · dsimp only
      split <;> exact ⟨rfl, rfl, rfl, rfl, rfl, rfl, id, id⟩

theorem still_maybeCloseStream (m : Stream) : Still m m.maybeCloseStream := by
  unfold maybeCloseStream
  split
  · exact .refl m
  · split
    · exact .refl m
    · split <;> exact ⟨rfl, rfl, rfl, rfl, rfl, rfl, id, id⟩

theorem still_asyncWrite (m : Stream) (h : Handler) (buffer : List UInt8) (eof : Bool) :
    Still m (m.asyncWrite h buffer eof) := by
  unfold asyncWrite
  split
  · exact ⟨rfl, rfl, rfl, rfl, rfl, rfl, id, id⟩
  · unfold resume
    split <;> exact ⟨rfl, rfl, rfl, rfl, rfl, rfl, id, id⟩

theorem still_cancelWrite (m : Stream) : Still m m.cancelWrite := by
  unfold cancelWrite
  split
  · exact ⟨rfl, rfl, rfl, rfl, rfl, rfl, id, id⟩
  · split
    · exact ⟨rfl, rfl, rfl, rfl, rfl, rfl, id, id⟩
    · exact .refl m

theorem still_destroy (m : Stream) : Still m m.destroy := by
  have hdetach : Still m { m.detach with registered := false, destroyed := true } :=
    ⟨rfl, rfl, rfl, rfl, rfl, rfl, id, fun h => absurd h (by simp)⟩
  refine hdetach.trans ?_
  unfold destroy
  dsimp only
  split <;> split <;> split <;> exact ⟨rfl, rfl, rfl, rfl, rfl, rfl, id, id⟩

/-- **Step lemma**: nothing else moves a body. -/
theorem step_still (htakes : a.takes = false) (harrives : a.arrives = false)
    (h : step m a = some t) : Still m t := by
  have hK := keeps_still m
  cases a with
  | producer _ | dataReader _ | writeOffset _ => exact absurd htakes (by simp [Action.takes])
  | onData _ | onEof => exact absurd harrives (by simp [Action.arrives])
  | asyncReadSome h' size =>
    obtain ⟨_, h⟩ := Option.ite_none_right_eq_some.mp h
    rw [← Option.some.inj h, asyncReadSome]
    split
    · exact ⟨rfl, rfl, rfl, rfl, rfl, rfl, id, id⟩
    · split
      · exact ⟨rfl, rfl, rfl, rfl, rfl, rfl, id, id⟩
      · apply hK.callReadHandler
        exact ⟨rfl, rfl, rfl, rfl, rfl, rfl, id, id⟩
  | cancelRead =>
    obtain ⟨_, h⟩ := Option.ite_none_right_eq_some.mp h
    rw [← Option.some.inj h, cancelRead]
    split
    · exact ⟨rfl, rfl, rfl, rfl, rfl, rfl, id, id⟩
    · exact .refl m
  | asyncWrite h' buffer eof =>
    obtain ⟨_, h⟩ := Option.ite_none_right_eq_some.mp h
    rw [← Option.some.inj h]
    exact still_asyncWrite m h' buffer eof
  | cancelWrite =>
    obtain ⟨_, h⟩ := Option.ite_none_left_eq_some.mp h
    rw [← Option.some.inj h]
    exact still_cancelWrite m
  | asyncGetResponse h' =>
    obtain ⟨_, h⟩ := Option.ite_none_right_eq_some.mp h
    rw [← Option.some.inj h, asyncGetResponse]
    split
    · exact ⟨rfl, rfl, rfl, rfl, rfl, rfl, id, id⟩
    · split
      · exact ⟨rfl, rfl, rfl, rfl, rfl, rfl, id, id⟩
      · refine Still.trans ?_ (still_deliverResponse _)
        exact ⟨rfl, rfl, rfl, rfl, rfl, rfl, id, id⟩
  | cancelResponse =>
    obtain ⟨_, h⟩ := Option.ite_none_left_eq_some.mp h
    rw [← Option.some.inj h, cancelResponse]
    split
    · exact ⟨rfl, rfl, rfl, rfl, rfl, rfl, id, id⟩
    · exact .refl m
  | dropReader =>
    obtain ⟨_, h⟩ := Option.ite_none_right_eq_some.mp h
    rw [← Option.some.inj h, dropReader]
    split
    · apply hK.finishDeferredClose
      refine Still.trans ?_ (still_maybeCloseStream _)
      dsimp only
      split <;> exact ⟨rfl, rfl, rfl, rfl, rfl, rfl, id, id⟩
    · exact ⟨rfl, rfl, rfl, rfl, rfl, rfl, id, id⟩
  | dropWriter =>
    obtain ⟨_, h⟩ := Option.ite_none_right_eq_some.mp h
    rw [← Option.some.inj h, dropWriter]
    split
    · refine Still.trans ?_ (still_maybeCloseStream _)
      exact ⟨rfl, rfl, rfl, rfl, rfl, rfl, id, id⟩
    · exact ⟨rfl, rfl, rfl, rfl, rfl, rfl, id, id⟩
  | ret =>
    rw [step] at h
    split at h
    · exact absurd h (by simp)
    · rw [← Option.some.inj h]
      apply hK.ret
      exact ⟨rfl, rfl, rfl, rfl, rfl, rfl, id, id⟩
  | onHeaders fields =>
    obtain ⟨_, h⟩ := Option.ite_none_right_eq_some.mp h
    rw [← Option.some.inj h, onHeaders]
    dsimp only
    split
    · exact ⟨rfl, rfl, rfl, rfl, rfl, rfl, id, id⟩
    · unfold onResponse
      refine Still.trans ?_ (still_deliverResponse _)
      split <;> exact ⟨rfl, rfl, rfl, rfl, rfl, rfl, id, id⟩
  | onTrailers fields =>
    obtain ⟨_, h⟩ := Option.ite_none_right_eq_some.mp h
    rw [← Option.some.inj h]
    exact ⟨rfl, rfl, rfl, rfl, rfl, rfl, id, id⟩
  | streamClose =>
    obtain ⟨_, h⟩ := Option.ite_none_right_eq_some.mp h
    rw [← Option.some.inj h]
    exact hK.closeStream (.refl m)
  | destroy =>
    obtain ⟨_, h⟩ := Option.ite_none_right_eq_some.mp h
    rw [← Option.some.inj h]
    exact still_destroy m

/-! ### The incoming body -/

theorem still_onData {data : List UInt8} (h : step m (.onData data) = some t) :
    Still { m with received := m.received ++ data } t := by
  obtain ⟨_, h⟩ := Option.ite_none_right_eq_some.mp h
  rw [← Option.some.inj h]
  exact (keeps_still _).callReadHandler (.refl _) data

theorem still_onEof (h : step m .onEof = some t) :
    Still { m with rx := { m.rx with eofReceived := true } } t := by
  obtain ⟨_, h⟩ := Option.ite_none_right_eq_some.mp h
  rw [← Option.some.inj h]
  exact (keeps_still _).callReadHandler (.refl _) []

/-! ### The outgoing body -/

/-- nghttp2 is given `x`, and maybe told that this is the end. -/
def Given (m t : Stream) (x : List UInt8) : Prop :=
  Still { m with handed := m.handed ++ x, ended := t.ended } t

theorem given_nil (h : Still m t) : Given m t [] :=
  ⟨h.backend, h.received, h.eofReceived, by rw [h.handed, List.append_nil], rfl, h.framed, h.closed,
    h.destroyed⟩

theorem given_producer {length : Nat} (h : step m (.producer length) = some t) :
    ∃ x, Given m t x := by
  obtain ⟨_, h⟩ := Option.ite_none_right_eq_some.mp h
  rw [← Option.some.inj h, producerCallback]
  split
  · exact ⟨[], given_nil (.refl m)⟩
  · split
    · exact ⟨[], given_nil ⟨rfl, rfl, rfl, rfl, rfl, rfl, id, id⟩⟩
    · split
      · refine ⟨m.tx.writeBuffer.take length, ?_⟩
        dsimp only
        split
        · split <;> exact ⟨rfl, rfl, rfl, rfl, rfl, rfl, id, id⟩
        · exact ⟨rfl, rfl, rfl, rfl, rfl, rfl, id, id⟩
      · refine ⟨[], ?_⟩
        exact ⟨rfl, rfl, rfl, (List.append_nil _).symm, rfl, rfl, id, id⟩

/-- Bytes are offered, with the end or without, and a write that has been copied completes. -/
theorem given_offered {x : List UInt8} {h : Handler} {ends copied : Bool} (hu : Given m u x) :
    Given m (if copied then ((if ends then u.endBody else u).completeWrite h .success).push .done
      else if ends then u.endBody else u) x := by
  cases ends <;> cases copied <;>
    exact ⟨hu.backend, hu.received, hu.eofReceived, hu.handed, rfl, hu.framed, hu.closed,
      hu.destroyed⟩

theorem given_dataReader {veccnt : Nat} (h : step m (.dataReader veccnt) = some t) :
    ∃ x, Given m t x := by
  rw [step] at h
  split at h
  · exact absurd h (by simp)
  · rename_i mode hb
    obtain ⟨_, h⟩ := Option.ite_none_right_eq_some.mp h
    have hnil : ∀ u : Stream, u.backend = m.backend → u.received = m.received →
        u.rx.eofReceived = m.rx.eofReceived → u.handed = m.handed → u.framed = m.framed →
        u.closed = m.closed → u.destroyed = m.destroyed → Given m u [] := by
      intro u hbackend hreceived heof hhanded hframed hclosed hdestroyed
      exact ⟨hbackend, hreceived, heof, by rw [hhanded, List.append_nil], rfl, hframed,
        fun h => hclosed ▸ h, fun h => hdestroyed ▸ h⟩
    rw [← Option.some.inj h, dataReader]
    split
    · refine ⟨[], ?_⟩
      split <;> exact hnil _ rfl rfl rfl rfl rfl rfl rfl
    · dsimp only
      split
      · refine ⟨[], ?_⟩
        split <;> exact hnil _ rfl rfl rfl rfl rfl rfl rfl
      · split
        · exact ⟨[], hnil _ rfl rfl rfl rfl rfl rfl rfl⟩
        · exact ⟨_, given_offered ⟨rfl, rfl, rfl, rfl, rfl, rfl, id, id⟩⟩

theorem still_writeOffset {len : Nat} (h : step m (.writeOffset len) = some t) :
    Still { m with framed := m.framed + len } t ∧ m.backend ≠ .v1 ∧ 0 < len ∧
      m.framed + len ≤ m.handed.length := by
  rw [step] at h
  split at h
  · exact absurd h (by simp)
  · rename_i mode hb
    obtain ⟨hguard, h⟩ := Option.ite_none_right_eq_some.mp h
    simp only [Bool.and_eq_true, decide_eq_true_eq] at hguard
    obtain ⟨⟨_, hpos⟩, hlen⟩ := hguard
    refine ⟨?_, by rw [hb]; simp, hpos, hlen⟩
    rw [← Option.some.inj h, onWriteOffset]
    dsimp only
    split
    · exact .refl _
    · split
      · exact ⟨rfl, rfl, rfl, rfl, rfl, rfl, id, id⟩
      · split <;> exact ⟨rfl, rfl, rfl, rfl, rfl, rfl, id, id⟩

/-- What nghttp2 has been given stays the same where it takes nothing. -/
theorem step_given (htakes : a.takes = false) (h : step m a = some t) :
    t.handed = m.handed ∧ t.ended = m.ended ∧ t.framed = m.framed ∧ t.backend = m.backend := by
  cases harrives : a.arrives with
  | false =>
    have hstill := step_still htakes harrives h
    exact ⟨hstill.handed, hstill.ended, hstill.framed, hstill.backend⟩
  | true =>
    cases a with
    | onData data =>
      have hstill := still_onData h
      exact ⟨hstill.handed, hstill.ended, hstill.framed, hstill.backend⟩
    | onEof =>
      have hstill := still_onEof h
      exact ⟨hstill.handed, hstill.ended, hstill.framed, hstill.backend⟩
    | _ => exact absurd harrives (by simp [Action.arrives])

/-- What has been received stays the same where nothing arrives. -/
theorem step_received (harrives : a.arrives = false) (h : step m a = some t) :
    t.received = m.received ∧ t.rx.eofReceived = m.rx.eofReceived := by
  cases htakes : a.takes with
  | false =>
    have hstill := step_still htakes harrives h
    exact ⟨hstill.received, hstill.eofReceived⟩
  | true =>
    cases a with
    | producer length =>
      obtain ⟨_, hgiven⟩ := given_producer h
      exact ⟨hgiven.received, hgiven.eofReceived⟩
    | dataReader veccnt =>
      obtain ⟨_, hgiven⟩ := given_dataReader h
      exact ⟨hgiven.received, hgiven.eofReceived⟩
    | writeOffset len =>
      have hstill := (still_writeOffset h).1
      exact ⟨hstill.received, hstill.eofReceived⟩
    | _ => exact absurd htakes (by simp [Action.takes])

/-! ### Credit -/

theorem extended_eq (m : Stream) : m.extended = m.credited := by
  unfold extended credited
  congr 2

/-- What has happened, has happened. -/
theorem reads_grows (cs : List Call) : Reads fun u => cs <+: u.trace where
  unseen u t hu h := by
    obtain ⟨ds, hds, _⟩ := h.trace
    rw [hds]
    exact hu.trans (List.prefix_append _ _)
  deliver u h _ _ hu := hu.trans (List.prefix_append _ _)
  fail u h ec _ _ hu := hu.trans (List.prefix_append _ _)

theorem step_trace (h : step m a = some t) : m.trace <+: t.trace := by
  have hgrows := reads_grows m.trace
  refine hgrows.step ?_ ?_ List.prefix_rfl h
  · intro h' size _
    apply hgrows.asyncReadSome
    · exact fun _ => List.prefix_append _ _
    · exact fun _ _ => List.prefix_append _ _
    · exact fun _ => List.prefix_rfl
  · intro _
    rw [(destroy_spec m).1]
    exact List.prefix_append _ _

/-- Credit is not taken back. -/
theorem credited_le (h : step m a = some t) : m.credited ≤ t.credited := by
  obtain ⟨cs, hcs⟩ := step_trace h
  unfold credited
  rw [← hcs, List.map_append, List.sum_append]
  omega

/-! ### A stream that is not closed -/

/-- Nothing is left to do of `close_stream()`, and the session knows the stream. -/
structure Live (m : Stream) : Prop where
  registered : m.registered = true
  closeDeferred : m.closeDeferred = false
  closing : .closing ∉ m.frames

theorem Live.of_same (hm : Live m) (hregistered : t.registered = m.registered)
    (hdeferred : t.closeDeferred = m.closeDeferred) (hframes : t.frames = m.frames) : Live t := by
  refine ⟨hregistered.trans hm.registered, hdeferred.trans hm.closeDeferred, ?_⟩
  rw [hframes]
  exact hm.closing

theorem Live.push (hm : Live m) (hregistered : t.registered = m.registered)
    (hdeferred : t.closeDeferred = m.closeDeferred) {f : Frame} (hf : f ≠ .closing)
    (hframes : t.frames = f :: m.frames) : Live t := by
  refine ⟨hregistered.trans hm.registered, hdeferred.trans hm.closeDeferred, ?_⟩
  rw [hframes, List.mem_cons, not_or]
  exact ⟨Ne.symm hf, hm.closing⟩

theorem Live.finish (hm : Live m) : m.finishDeferredClose = m := by
  unfold Stream.finishDeferredClose
  rw [hm.closeDeferred]
  rfl

theorem live_credit (hm : Live m) : Live m.credit := by
  unfold credit
  split
  · exact hm
  · exact hm.of_same rfl rfl rfl

/-- What `call_read_handler()` leaves on the stack: at most one call, and then no read waits. -/
def Settles (m t : Stream) : Prop :=
  t.frames = m.frames ∨
    ∃ f, f.isRead = true ∧ t.frames = f :: m.frames ∧ t.rx.readHandler = none

theorem Live.readStep (hm : Live m) (h : ReadStep finishDeferredClose m t) :
    Live t ∧ Settles m t := by
  have hcredit : m.credit.frames = m.frames := by
    unfold Stream.credit
    split <;> rfl
  have hlive := live_credit hm
  cases h with
  | deliver _ _ => exact ⟨hm.push rfl rfl (by decide) rfl, .inr ⟨_, rfl, rfl, rfl⟩⟩
  | park _ _ =>
    have hpark : Live m.credit.park.leave := hlive.of_same rfl rfl rfl
    rw [hpark.finish]
    exact ⟨hpark, .inl hcredit⟩
  | eof _ _ _ =>
    exact ⟨hlive.push rfl rfl (by decide) rfl, .inr ⟨_, rfl, congrArg _ hcredit, rfl⟩⟩
  | truncated _ _ _ =>
    exact ⟨hlive.push rfl rfl (by decide) rfl, .inr ⟨_, rfl, congrArg _ hcredit, rfl⟩⟩
  | wait _ _ _ =>
    have hleave : Live m.credit.leave := hlive.of_same rfl rfl rfl
    rw [hleave.finish]
    exact ⟨hleave, .inl hcredit⟩

theorem Live.callReadHandler (hm : Live m) (data : List UInt8) :
    Live (m.callReadHandler data) ∧ Settles m (m.callReadHandler data) := by
  have hbuffer : Live (m.buffer data) ∧ (m.buffer data).frames = m.frames := by
    unfold Stream.buffer
    split
    · exact ⟨hm, rfl⟩
    · exact ⟨hm.of_same rfl rfl rfl, rfl⟩
  unfold Stream.callReadHandler
  rcases callReadHandlerThen_cases m data finishDeferredClose with ⟨_, h⟩ | ⟨_, h⟩ | ⟨_, _, h⟩
  · rw [h, hbuffer.1.finish]
    exact ⟨hbuffer.1, .inl hbuffer.2⟩
  · rw [h, hm.finish]
    exact ⟨hm, .inl rfl⟩
  · have henter : Live (m.enter data) := hm.of_same rfl rfl rfl
    exact henter.readStep h

/-- The handler of a read returns, having done nothing. -/
theorem Live.ret (hm : Live m) {f : Frame} (hf : f.isRead = true) :
    Live (m.ret f) ∧ Settles m (m.ret f) := by
  have hleave : Live m.leave := hm.of_same rfl rfl rfl
  cases f with
  | data =>
    have hadvance : Live m.advance ∧ m.advance.frames = m.frames := by
      unfold Stream.advance
      split
      · exact ⟨hm, rfl⟩
      · exact ⟨hm.of_same rfl rfl rfl, rfl⟩
    obtain ⟨hlive, hsettles⟩ :=
      hadvance.1.readStep (readLoopThen_step m.advance finishDeferredClose)
    refine ⟨hlive, ?_⟩
    unfold Settles at hsettles ⊢
    rw [hadvance.2] at hsettles
    exact hsettles
  | eof =>
    show Live (m.eofLoopThen finishDeferredClose) ∧ Settles m (m.eofLoopThen finishDeferredClose)
    unfold Stream.eofLoopThen
    split
    · exact ⟨hm.push rfl rfl (by decide) rfl, .inr ⟨_, rfl, rfl, rfl⟩⟩
    · rw [hleave.finish]
      exact ⟨hleave, .inl rfl⟩
  | truncated =>
    show Live m.leave.finishDeferredClose ∧ Settles m m.leave.finishDeferredClose
    rw [hleave.finish]
    exact ⟨hleave, .inl rfl⟩
  | closing | erasing | erased | failed | done => exact absurd hf (by decide)

/-- A stream is closed, and destroyed, for good. -/
theorem step_open (h : step m a = some t) :
    (t.closed = false → m.closed = false) ∧ (t.destroyed = false → m.destroyed = false) := by
  cases htakes : a.takes with
  | false =>
    cases harrives : a.arrives with
    | false =>
      have hstill := step_still htakes harrives h
      exact ⟨hstill.closed, hstill.destroyed⟩
    | true =>
      cases a with
      | onData data => exact ⟨(still_onData h).closed, (still_onData h).destroyed⟩
      | onEof => exact ⟨(still_onEof h).closed, (still_onEof h).destroyed⟩
      | _ => exact absurd harrives (by simp [Action.arrives])
  | true =>
    cases a with
    | producer length =>
      obtain ⟨_, hgiven⟩ := given_producer h
      exact ⟨hgiven.closed, hgiven.destroyed⟩
    | dataReader veccnt =>
      obtain ⟨_, hgiven⟩ := given_dataReader h
      exact ⟨hgiven.closed, hgiven.destroyed⟩
    | writeOffset len => exact ⟨(still_writeOffset h).1.closed, (still_writeOffset h).1.destroyed⟩
    | _ => exact absurd htakes (by simp [Action.takes])

theorem closeStream_closed (hm : Live m) : m.closeStream.closed = true := by
  have hstill : Still { m with closed := true } m.closeStream := by
    unfold closeStream
    rw [hm.registered]
    dsimp only
    split
    · exact absurd ‹_› (by decide)
    · split
      · exact ⟨rfl, rfl, rfl, rfl, rfl, rfl, id, id⟩
      · exact (keeps_still _).keepOrErase (.refl _)
  exact Bool.eq_true_of_not_eq_false fun h => absurd (hstill.closed h) (by simp)

theorem live_outward (hm : Live m) (h : Outward m t) : Live t := by
  obtain ⟨tx, writes, handed, ended, framed, frames, cs, rfl, hframes, _⟩ := h
  rcases hframes with rfl | rfl
  · exact hm.of_same rfl rfl rfl
  · exact hm.push rfl rfl (by decide) rfl

theorem live_deliverResponse (hm : Live m) : Live m.deliverResponse := by
  unfold deliverResponse
  split
  · exact hm
  · split
    · exact hm
    · dsimp only
      split
      · exact hm.push rfl rfl (by decide) rfl
      · exact hm.push rfl rfl (by decide) rfl

theorem live_maybeCloseStream (hm : Live m) : Live m.maybeCloseStream := by
  unfold maybeCloseStream
  split
  · exact hm
  · split
    · exact hm
    · split
      · exact hm.of_same rfl rfl rfl
      · exact hm

/-- The stream is live unless it has been closed or destroyed. -/
def Lives (m : Stream) : Prop := m.closed = false → m.destroyed = false → Live m

theorem lives_fresh (hm : Fresh m) : Lives m := by
  intro _ _
  obtain ⟨_, _, rfl | rfl⟩ := hm
  · exact ⟨rfl, rfl, List.not_mem_nil⟩
  · exact ⟨rfl, rfl, List.not_mem_nil⟩

theorem Lives.step (hm : Lives m) (h : step m a = some t) : Lives t := by
  intro hclosed hdestroyed
  have hopen := (step_open h).1 hclosed
  have hm := hm hopen ((step_open h).2 hdestroyed)
  cases a with
  | asyncWrite _ _ _ | cancelWrite | producer _ | dataReader _ | writeOffset _ =>
    exact live_outward hm (outward_step rfl h)
  | asyncReadSome h' size =>
    obtain ⟨_, h⟩ := Option.ite_none_right_eq_some.mp h
    rw [← Option.some.inj h, asyncReadSome]
    split
    · exact hm.of_same rfl rfl rfl
    · split
      · exact hm.of_same rfl rfl rfl
      · refine (Live.callReadHandler ?_ []).1
        exact hm.of_same rfl rfl rfl
  | cancelRead =>
    obtain ⟨_, h⟩ := Option.ite_none_right_eq_some.mp h
    rw [← Option.some.inj h, cancelRead]
    split
    · exact hm.of_same rfl rfl rfl
    · exact hm
  | asyncGetResponse h' =>
    obtain ⟨_, h⟩ := Option.ite_none_right_eq_some.mp h
    rw [← Option.some.inj h, asyncGetResponse]
    split
    · exact hm.of_same rfl rfl rfl
    · split
      · exact hm.of_same rfl rfl rfl
      · apply live_deliverResponse
        exact hm.of_same rfl rfl rfl
  | cancelResponse =>
    obtain ⟨_, h⟩ := Option.ite_none_left_eq_some.mp h
    rw [← Option.some.inj h, cancelResponse]
    split
    · exact hm.of_same rfl rfl rfl
    · exact hm
  | dropReader =>
    obtain ⟨_, h⟩ := Option.ite_none_right_eq_some.mp h
    rw [← Option.some.inj h, dropReader]
    split
    · -- no close has been deferred on a stream that is not closed
      have hkept : ∀ u : Stream, Live u → Live u.maybeCloseStream.finishDeferredClose := by
        intro u hu
        have hlive := live_maybeCloseStream hu
        rw [hlive.finish]
        exact hlive
      apply hkept
      dsimp only
      split
      · exact hm.of_same rfl rfl rfl
      · exact hm.of_same rfl rfl rfl
    · exact hm.of_same rfl rfl rfl
  | dropWriter =>
    obtain ⟨_, h⟩ := Option.ite_none_right_eq_some.mp h
    rw [← Option.some.inj h, dropWriter]
    split
    · apply live_maybeCloseStream
      exact hm.of_same rfl rfl rfl
    · exact hm.of_same rfl rfl rfl
  | ret =>
    rw [Stream.step] at h
    split at h
    · exact absurd h (by simp)
    · rename_i f frames hf
      have hclosing := hm.closing
      rw [hf, List.mem_cons, not_or] at hclosing
      have hpopped : Live { m with frames := frames } :=
        ⟨hm.registered, hm.closeDeferred, hclosing.2⟩
      rw [← Option.some.inj h]
      cases f with
      | data | eof | truncated => exact (hpopped.ret rfl).1
      -- there is no such frame before the close
      | closing => exact absurd rfl hclosing.1
      | erasing =>
        show Live (failResponse _)
        unfold failResponse
        split
        · exact hpopped.push rfl rfl (by decide) rfl
        · exact hpopped.of_same rfl rfl rfl
      | erased => exact hpopped.of_same rfl rfl rfl
      | failed =>
        show Live (if m.closed then _ else _)
        rw [if_neg (by rw [hopen]; decide)]
        exact hpopped
      | done => exact hpopped
  | onHeaders fields =>
    obtain ⟨_, h⟩ := Option.ite_none_right_eq_some.mp h
    rw [← Option.some.inj h, onHeaders]
    dsimp only
    split
    · exact hm.of_same rfl rfl rfl
    · unfold onResponse
      apply live_deliverResponse
      split
      · exact hm.of_same rfl rfl rfl
      · exact hm.of_same rfl rfl rfl
  | onTrailers fields =>
    obtain ⟨_, h⟩ := Option.ite_none_right_eq_some.mp h
    rw [← Option.some.inj h]
    exact hm.of_same rfl rfl rfl
  | onData data =>
    obtain ⟨_, h⟩ := Option.ite_none_right_eq_some.mp h
    rw [← Option.some.inj h, onData]
    refine (Live.callReadHandler ?_ data).1
    exact hm.of_same rfl rfl rfl
  | onEof =>
    obtain ⟨_, h⟩ := Option.ite_none_right_eq_some.mp h
    rw [← Option.some.inj h, onEof]
    refine (Live.callReadHandler ?_ []).1
    exact hm.of_same rfl rfl rfl
  | streamClose =>
    obtain ⟨_, h⟩ := Option.ite_none_right_eq_some.mp h
    rw [← Option.some.inj h, closeStream_closed hm] at hclosed
    exact absurd hclosed (by decide)
  | destroy =>
    obtain ⟨_, h⟩ := Option.ite_none_right_eq_some.mp h
    have hgone : m.destroy.destroyed = true := by
      unfold destroy
      dsimp only
      split <;> split <;> split <;> rfl
    rw [← Option.some.inj h, hgone] at hdestroyed
    exact absurd hdestroyed (by decide)

end AnyHttp.H2.Stream
