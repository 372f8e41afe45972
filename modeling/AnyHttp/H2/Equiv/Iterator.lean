import AnyHttp.H2.Equiv.Incoming

/-!
# The iterator of `close_stream()`

`close_stream()` looks the stream up in `streams_`, completes the write that is waiting, and goes on
with the iterator it has found.  In between, whoever has waited for the write is running, and
there is one way for them to have the stream removed: to ask for a response that has failed.  Once
this has been told, `deliver_response()` closes the stream again, since it has been closed, and as
nobody waits for anything any more, it is removed there.

`Undisturbed` is what holds as long as nobody does that (`AsksOutside`); the frames above that of
`close_stream()` have no reason to close the stream then.

* `sound_of_meets`: the iterator is still valid when it is used.
-/

namespace AnyHttp.H2

open Lib

namespace Stream

variable {m t : Stream} {a : Action}

/-- A failure is not asked for from inside `close_stream()`, while the handler of a write runs. -/
def AsksOutside (m : Stream) : Action → Prop
  | .asyncGetResponse _ =>
    .closing ∈ m.frames → m.rs.responseDelivered = false → m.rs.responseError = none
  | _ => True

instance (m : Stream) : ∀ a, Decidable (AsksOutside m a)
  | .asyncGetResponse _ =>
    inferInstanceAs (Decidable (.closing ∈ m.frames → m.rs.responseDelivered = false →
      m.rs.responseError = none))
  | .asyncReadSome _ _ | .cancelRead | .asyncWrite _ _ _ | .cancelWrite | .cancelResponse
  | .dropReader | .dropWriter | .ret | .onHeaders _ | .onTrailers _ | .onData _ | .onEof
  | .producer _ | .dataReader _ | .writeOffset _ | .streamClose | .destroy =>
    inferInstanceAs (Decidable True)

/-- While `close_stream()` is waiting for the handler of a write, nothing closes the
stream again. -/
structure Undisturbed (m : Stream) : Prop where
  sound : m.fault = false
  once : m.frames.count .closing ≤ 1
  writeOver : m.closed = true → m.tx.writeHandler = none
  deferred : m.closeDeferred = true → m.closed = true
  inside : .closing ∈ m.frames → m.closed = true ∧ m.registered = true ∧
    m.closeDeferred = false ∧ .failed ∉ m.frames

/-- A handler is running that has nothing to do with closing. -/
theorem Undisturbed.push (hm : Undisturbed m) (f : Frame) (hf : f.isClosing = false)
    (hframes : t.frames = f :: m.frames) (hfault : t.fault = m.fault)
    (hwrite : t.tx.writeHandler = m.tx.writeHandler) (hclosed : t.closed = m.closed)
    (hregistered : t.registered = m.registered) (hdeferred : t.closeDeferred = m.closeDeferred) :
    Undisturbed t := by
  have hne : ∀ {g : Frame}, g.isClosing = true → g ≠ f := by
    rintro g hg rfl
    exact nomatch hf.symm.trans hg
  refine ⟨hfault.trans hm.sound, ?_, ?_, ?_, ?_⟩
  · rw [hframes, List.count_cons_of_ne (hne rfl).symm]
    exact hm.once
  · rw [hclosed, hwrite]
    exact hm.writeOver
  · rw [hdeferred, hclosed]
    exact hm.deferred
  · rw [hframes, hclosed, hregistered, hdeferred]
    intro hmem
    obtain ⟨hc, hr, hd, hfailed⟩ := hm.inside ((List.mem_cons.mp hmem).resolve_left (hne rfl))
    exact ⟨hc, hr, hd, fun h => (List.mem_cons.mp h).elim (hne rfl) hfailed⟩

theorem passes_undisturbed : Passes Undisturbed where
  buffer m data hm := by
    unfold buffer
    split <;> exact ⟨hm.sound, hm.once, hm.writeOver, hm.deferred, hm.inside⟩
  enter m _ hm := ⟨hm.sound, hm.once, hm.writeOver, hm.deferred, hm.inside⟩
  advance m hm := by
    unfold advance
    split <;> exact ⟨hm.sound, hm.once, hm.writeOver, hm.deferred, hm.inside⟩
  credit m hm := by
    unfold credit
    split <;> exact ⟨hm.sound, hm.once, hm.writeOver, hm.deferred, hm.inside⟩
  park m hm := ⟨hm.sound, hm.once, hm.writeOver, hm.deferred, hm.inside⟩
  leave m hm := ⟨hm.sound, hm.once, hm.writeOver, hm.deferred, hm.inside⟩
  deliver m h _ _ hm := hm.push .data rfl rfl rfl rfl rfl rfl rfl
  failRead m h ec f _ _ hf hm := by
    refine hm.push f ?_ rfl rfl rfl rfl rfl rfl
    cases f with
    | data | eof | truncated | erasing | erased | done => rfl
    | closing | failed => exact nomatch hf

/-! ### `close_stream()` -/

theorem Undisturbed.failResponse (hm : Undisturbed m) : Undisturbed m.failResponse := by
  unfold Stream.failResponse
  split
  · exact hm.push .erased rfl rfl rfl rfl rfl rfl rfl
  · exact ⟨hm.sound, hm.once, hm.writeOver, hm.deferred, hm.inside⟩

/-- The iterator is valid as long as the stream has not been removed. -/
theorem Undisturbed.useIterator (hm : Undisturbed m) (hr : m.registered = true) :
    Undisturbed m.useIterator := by
  refine ⟨?_, hm.once, hm.writeOver, hm.deferred, hm.inside⟩
  show (m.fault || !m.registered) = false
  rw [hm.sound, hr]
  rfl

theorem Undisturbed.keepOrErase (hm : Undisturbed m) (hc : m.closed = true)
    (hr : m.registered = true) (hout : .closing ∉ m.frames) : Undisturbed m.keepOrErase := by
  have hused := hm.useIterator hr
  unfold Stream.keepOrErase
  -- kept for the response, kept for the rest of the body, or erased
  split
  · exact passes_undisturbed.callReadHandlerThen (fun _ h => h) hused []
  · split
    · exact ⟨hm.sound, hm.once, hm.writeOver, fun _ => hc, fun h => absurd h hout⟩
    · have herased : Undisturbed { m.useIterator with registered := false } :=
        ⟨hused.sound, hm.once, hm.writeOver, hm.deferred, fun h => absurd h hout⟩
      unfold erase
      dsimp only
      split
      · exact passes_undisturbed.failRead _ _ _ _ ‹_› (.inr rfl) rfl herased
      · exact herased.failResponse

/-- A stream is closed for the first time with nothing running, or again with nobody waiting for a
write. -/
theorem Undisturbed.closeStream (hm : Undisturbed m) (hout : .closing ∉ m.frames)
    (hfirst : m.closed = true ∨ m.frames = []) : Undisturbed m.closeStream := by
  unfold Stream.closeStream
  split
  · exact hm
  · rename_i hregistered
    have hr : m.registered = true := by simpa using hregistered
    dsimp only
    split
    · rename_i h hh
      have hopen : m.closed = false := by
        by_contra hc
        rw [hm.writeOver (Bool.eq_true_of_not_eq_false hc)] at hh
        exact nomatch hh
      have hnil : m.frames = [] := hfirst.resolve_left (by rw [hopen]; exact Bool.false_ne_true)
      have hdeferred : m.closeDeferred = false := by
        by_contra hd
        have hc := hm.deferred (Bool.eq_true_of_not_eq_false hd)
        exact nomatch hopen.symm.trans hc
      refine ⟨hm.sound, ?_, fun _ => rfl, fun _ => rfl, fun _ => ⟨rfl, hr, hdeferred, ?_⟩⟩
      · show (Frame.closing :: m.frames).count .closing ≤ 1
        rw [hnil]
        decide
      · show .failed ∉ Frame.closing :: m.frames
        rw [hnil]
        decide
    · rename_i hnone
      have hclosed : Undisturbed { m with closed := true } :=
        ⟨hm.sound, hm.once, fun _ => hnone, fun _ => rfl, fun h => absurd h hout⟩
      exact hclosed.keepOrErase rfl hr hout

theorem Undisturbed.finishDeferredClose (hm : Undisturbed m) :
    Undisturbed m.finishDeferredClose := by
  unfold Stream.finishDeferredClose
  split
  · rename_i hcond
    simp only [Bool.and_eq_true] at hcond
    have hd := hcond.1.1.1
    have hout : .closing ∉ m.frames := fun h => nomatch hd.symm.trans (hm.inside h).2.2.1
    have hcleared : Undisturbed { m with closeDeferred := false } :=
      ⟨hm.sound, hm.once, hm.writeOver, nofun, fun h => absurd h hout⟩
    exact hcleared.closeStream hout (.inl (hm.deferred hd))
  · exact hm

theorem Undisturbed.callReadHandler (hm : Undisturbed m) (data : List UInt8) :
    Undisturbed (m.callReadHandler data) :=
  passes_undisturbed.callReadHandlerThen (fun _ h => h.finishDeferredClose) hm data

/-! ### Steps -/

theorem Undisturbed.ret (hm : Undisturbed m) {f : Frame} {frames : List Frame}
    (hf : m.frames = f :: frames) : Undisturbed ({ m with frames := frames }.ret f) := by
  have hmem : ∀ {g}, g ∈ frames → g ∈ m.frames := fun h => hf ▸ List.mem_cons_of_mem _ h
  have hrest : Undisturbed { m with frames := frames } := by
    refine ⟨hm.sound, ?_, hm.writeOver, hm.deferred, ?_⟩
    · have hle : frames.count .closing ≤ m.frames.count .closing := by
        rw [hf]
        exact List.count_le_count_cons
      exact hle.trans hm.once
    · intro h
      obtain ⟨hc, hr, hd, hfailed⟩ := hm.inside (hmem h)
      exact ⟨hc, hr, hd, fun h => hfailed (hmem h)⟩
  cases f with
  | data =>
    exact passes_undisturbed.readStep (fun _ h => h.finishDeferredClose)
      (passes_undisturbed.advance _ hrest) (readLoopThen_step _ _)
  | eof =>
    show Undisturbed (eofLoopThen _ _)
    unfold eofLoopThen
    split
    · exact passes_undisturbed.failRead _ _ _ _ ‹_› (.inl rfl) rfl hrest
    · exact (passes_undisturbed.leave _ hrest).finishDeferredClose
  | truncated => exact (passes_undisturbed.leave _ hrest).finishDeferredClose
  | closing =>
    -- this is where the iterator is used
    obtain ⟨hc, hr, _⟩ := hm.inside (hf ▸ List.mem_cons_self)
    refine hrest.keepOrErase hc hr ?_
    have honce := hm.once
    rw [hf, List.count_cons_self] at honce
    exact List.count_eq_zero.mp (Nat.le_zero.mp (Nat.le_of_succ_le_succ honce))
  | erasing => exact hrest.failResponse
  | erased => exact ⟨hrest.sound, hrest.once, hrest.writeOver, hrest.deferred, hrest.inside⟩
  | failed =>
    have hout : .closing ∉ frames := by
      intro h
      exact (hm.inside (hmem h)).2.2.2 (hf ▸ List.mem_cons_self)
    show Undisturbed (if m.closed then _ else _)
    split
    · exact hrest.closeStream hout (.inl ‹_›)
    · exact hrest
  | done => exact hrest

/-- A failure closes the stream again, a response does not. -/
theorem Undisturbed.deliverResponse (hm : Undisturbed m)
    (hout : .closing ∈ m.frames → m.rs.responseError = none) : Undisturbed m.deliverResponse := by
  unfold Stream.deliverResponse
  -- there has to be a response, and somebody who waits for it
  split
  · exact hm
  · split
    · exact hm
    · dsimp only
      split
      · rename_i ec hec
        have hnot : .closing ∉ m.frames := by
          intro h
          have herror : m.rs.responseError = some ec := hec
          rw [hout h] at herror
          exact nomatch herror
        refine ⟨hm.sound, ?_, hm.writeOver, hm.deferred, ?_⟩
        · show (Frame.failed :: m.frames).count .closing ≤ 1
          rw [List.count_cons_of_ne (by decide)]
          exact hm.once
        · intro h
          exact absurd ((List.mem_cons.mp h).resolve_left (by decide)) hnot
      · exact hm.push .done rfl rfl rfl rfl rfl rfl rfl

theorem Undisturbed.onResponse (hm : Undisturbed m) (hnil : m.frames = []) :
    Undisturbed m.onResponse := by
  have hout : .closing ∉ m.frames := by
    rw [hnil]
    exact List.not_mem_nil
  unfold Stream.onResponse
  split
  · apply Undisturbed.deliverResponse
    · exact ⟨hm.sound, hm.once, hm.writeOver, hm.deferred, hm.inside⟩
    · exact fun h => absurd h hout
  · apply Undisturbed.deliverResponse
    · exact ⟨hm.sound, hm.once, hm.writeOver, hm.deferred, hm.inside⟩
    · exact fun h => absurd h hout

theorem Undisturbed.maybeCloseStream (hm : Undisturbed m) : Undisturbed m.maybeCloseStream := by
  unfold Stream.maybeCloseStream
  split_ifs <;> exact ⟨hm.sound, hm.once, hm.writeOver, hm.deferred, hm.inside⟩

/-- What is done for the outgoing body closes nothing. -/
theorem Undisturbed.outward (hm : Undisturbed m) (h : Outward m t)
    (hwrite : m.closed = true → t.tx.writeHandler = none) : Undisturbed t := by
  obtain ⟨tx, _, _, _, _, frames, _, rfl, hframes, _⟩ := h
  rcases hframes with rfl | rfl
  · exact ⟨hm.sound, hm.once, hwrite, hm.deferred, hm.inside⟩
  · have hpushed : Undisturbed { m with frames := .done :: m.frames } :=
      hm.push .done rfl rfl rfl rfl rfl rfl rfl
    exact ⟨hpushed.sound, hpushed.once, hwrite, hpushed.deferred, hpushed.inside⟩

/-- A stream that is closed does not accept a write. -/
theorem asyncWrite_closed (h : Handler) (buffer : List UInt8) (eof : Bool)
    (hclosed : m.closed = true) :
    (m.asyncWrite h buffer eof).tx.writeHandler = m.tx.writeHandler := by
  unfold asyncWrite
  split
  · rfl
  · rename_i hanswer
    unfold writeAnswer at hanswer
    split at hanswer
    · split_ifs at hanswer
    · rw [if_pos hclosed] at hanswer
      split_ifs at hanswer

theorem cancelWrite_writeHandler (hnone : m.tx.writeHandler = none) :
    m.cancelWrite.tx.writeHandler = none := by
  unfold cancelWrite
  split
  · exact hnone
  · rw [hnone]
    exact hnone

/-- The destructor leaves nothing. -/
theorem destroy_gone (m : Stream) :
    m.destroy.registered = false ∧ m.destroy.tx.writeHandler = none ∧ m.destroy.closed = m.closed ∧
      m.destroy.closeDeferred = m.closeDeferred ∧ m.destroy.fault = m.fault ∧
      m.destroy.frames = m.frames := by
  cases hr : m.rs.responseHandler <;> cases hh : m.rx.readHandler <;>
    cases hw : m.tx.writeHandler <;>
    simp [destroy, detach, completeResponse, completeRead, completeWrite, call, hr, hh, hw]

/-- nghttp2 asks for the body, and reports what of it has been framed, as long as the stream is
open. -/
theorem open_of_sending
    (ha : (∃ length, a = .producer length) ∨ (∃ veccnt, a = .dataReader veccnt) ∨
      ∃ len, a = .writeOffset len) (h : step m a = some t) : m.closed = false := by
  have hopen : m.open_ = true := by
    rcases ha with ⟨length, rfl⟩ | ⟨veccnt, rfl⟩ | ⟨len, rfl⟩
    · obtain ⟨hguard, _⟩ := Option.ite_none_right_eq_some.mp h
      simp only [Bool.and_eq_true] at hguard
      exact hguard.1.1.1.1
    · rw [Stream.step] at h
      split at h
      · cases h
      · obtain ⟨hguard, _⟩ := Option.ite_none_right_eq_some.mp h
        exact (Bool.and_eq_true_iff.mp (Bool.and_eq_true_iff.mp hguard).1).1
    · rw [Stream.step] at h
      split at h
      · cases h
      · obtain ⟨hguard, _⟩ := Option.ite_none_right_eq_some.mp h
        exact (Bool.and_eq_true_iff.mp (Bool.and_eq_true_iff.mp hguard).1).1
  simp only [open_, Bool.and_eq_true, Bool.not_eq_true'] at hopen
  exact hopen.1.2

/-- **Step lemma**: a stream stays `Undisturbed` unless a response is asked for from inside
`close_stream()`. -/
theorem Undisturbed.step (hm : Undisturbed m) (hout : AsksOutside m a) (h : step m a = some t) :
    Undisturbed t := by
  cases a with
  | asyncWrite h' buffer eof =>
    obtain ⟨_, h⟩ := Option.ite_none_right_eq_some.mp h
    rw [← Option.some.inj h]
    refine hm.outward (outward_asyncWrite m h' buffer eof) fun hc => ?_
    rw [asyncWrite_closed h' buffer eof hc]
    exact hm.writeOver hc
  | cancelWrite =>
    obtain ⟨_, h⟩ := Option.ite_none_left_eq_some.mp h
    rw [← Option.some.inj h]
    exact hm.outward (outward_cancelWrite m) fun hc =>
      cancelWrite_writeHandler (hm.writeOver hc)
  | producer length =>
    exact hm.outward (outward_step rfl h) fun hc =>
      absurd (hc.symm.trans (open_of_sending (.inl ⟨length, rfl⟩) h)) (by decide)
  | dataReader veccnt =>
    exact hm.outward (outward_step rfl h) fun hc =>
      absurd (hc.symm.trans (open_of_sending (.inr (.inl ⟨veccnt, rfl⟩)) h)) (by decide)
  | writeOffset len =>
    exact hm.outward (outward_step rfl h) fun hc =>
      absurd (hc.symm.trans (open_of_sending (.inr (.inr ⟨len, rfl⟩)) h)) (by decide)
  | asyncReadSome h' size =>
    obtain ⟨_, h⟩ := Option.ite_none_right_eq_some.mp h
    rw [← Option.some.inj h, asyncReadSome]
    split
    · exact ⟨hm.sound, hm.once, hm.writeOver, hm.deferred, hm.inside⟩
    · split
      · exact ⟨hm.sound, hm.once, hm.writeOver, hm.deferred, hm.inside⟩
      · apply Undisturbed.callReadHandler
        exact ⟨hm.sound, hm.once, hm.writeOver, hm.deferred, hm.inside⟩
  | cancelRead =>
    obtain ⟨_, h⟩ := Option.ite_none_right_eq_some.mp h
    rw [← Option.some.inj h, cancelRead]
    split
    · exact ⟨hm.sound, hm.once, hm.writeOver, hm.deferred, hm.inside⟩
    · exact hm
  | asyncGetResponse h' =>
    obtain ⟨_, h⟩ := Option.ite_none_right_eq_some.mp h
    rw [← Option.some.inj h, asyncGetResponse]
    split
    · exact ⟨hm.sound, hm.once, hm.writeOver, hm.deferred, hm.inside⟩
    · split
      · exact ⟨hm.sound, hm.once, hm.writeOver, hm.deferred, hm.inside⟩
      · rename_i hdelivered
        apply Undisturbed.deliverResponse
        · exact ⟨hm.sound, hm.once, hm.writeOver, hm.deferred, hm.inside⟩
        · exact fun hin => hout hin (Bool.eq_false_of_not_eq_true hdelivered)
  | cancelResponse =>
    obtain ⟨_, h⟩ := Option.ite_none_left_eq_some.mp h
    rw [← Option.some.inj h, cancelResponse]
    split
    · exact ⟨hm.sound, hm.once, hm.writeOver, hm.deferred, hm.inside⟩
    · exact hm
  | dropReader =>
    obtain ⟨_, h⟩ := Option.ite_none_right_eq_some.mp h
    rw [← Option.some.inj h, dropReader]
    split
    · apply Undisturbed.finishDeferredClose
      apply Undisturbed.maybeCloseStream
      dsimp only
      split <;> exact ⟨hm.sound, hm.once, hm.writeOver, hm.deferred, hm.inside⟩
    · exact ⟨hm.sound, hm.once, hm.writeOver, hm.deferred, hm.inside⟩
  | dropWriter =>
    obtain ⟨_, h⟩ := Option.ite_none_right_eq_some.mp h
    rw [← Option.some.inj h, dropWriter]
    split
    · apply Undisturbed.maybeCloseStream
      exact ⟨hm.sound, hm.once, hm.writeOver, hm.deferred, hm.inside⟩
    · exact ⟨hm.sound, hm.once, hm.writeOver, hm.deferred, hm.inside⟩
  | ret =>
    rw [Stream.step] at h
    split at h
    · cases h
    · rename_i hf
      rw [← Option.some.inj h]
      exact hm.ret hf
  | onHeaders fields =>
    obtain ⟨hguard, h⟩ := Option.ite_none_right_eq_some.mp h
    simp only [open_, Bool.and_eq_true, List.isEmpty_iff] at hguard
    have hnil : m.frames = [] := hguard.1.1.1.1.1
    rw [← Option.some.inj h, onHeaders]
    dsimp only
    split
    · exact ⟨hm.sound, hm.once, hm.writeOver, hm.deferred, hm.inside⟩
    · apply Undisturbed.onResponse
      · exact ⟨hm.sound, hm.once, hm.writeOver, hm.deferred, hm.inside⟩
      · exact hnil
  | onTrailers fields =>
    obtain ⟨_, h⟩ := Option.ite_none_right_eq_some.mp h
    rw [← Option.some.inj h]
    exact ⟨hm.sound, hm.once, hm.writeOver, hm.deferred, hm.inside⟩
  | onData data =>
    obtain ⟨_, h⟩ := Option.ite_none_right_eq_some.mp h
    rw [← Option.some.inj h]
    apply Undisturbed.callReadHandler
    exact ⟨hm.sound, hm.once, hm.writeOver, hm.deferred, hm.inside⟩
  | onEof =>
    obtain ⟨_, h⟩ := Option.ite_none_right_eq_some.mp h
    rw [← Option.some.inj h]
    apply Undisturbed.callReadHandler
    exact ⟨hm.sound, hm.once, hm.writeOver, hm.deferred, hm.inside⟩
  | streamClose =>
    obtain ⟨hguard, h⟩ := Option.ite_none_right_eq_some.mp h
    simp only [closable, Bool.and_eq_true, List.isEmpty_iff] at hguard
    have hnil : m.frames = [] := hguard.1.1.1
    rw [← Option.some.inj h]
    refine hm.closeStream ?_ (.inr hnil)
    rw [hnil]
    exact List.not_mem_nil
  | destroy =>
    obtain ⟨hguard, h⟩ := Option.ite_none_right_eq_some.mp h
    obtain ⟨_, hwrite, hclosed, hdeferred, hfault, hframes⟩ := destroy_gone m
    have hnil : m.frames = [] := List.isEmpty_iff.mp (Bool.and_eq_true_iff.mp hguard).1
    rw [← Option.some.inj h]
    refine ⟨hfault.trans hm.sound, ?_, fun _ => hwrite, ?_, ?_⟩
    · rw [hframes]
      exact hm.once
    · rw [hdeferred, hclosed]
      exact hm.deferred
    · rw [hframes, hnil]
      exact fun h => absurd h List.not_mem_nil

theorem undisturbed_client (backend : Backend) (maxHeaderSize : Nat) :
    Undisturbed (client backend maxHeaderSize) :=
  ⟨rfl, Nat.zero_le 1, nofun, nofun, fun h => absurd h List.not_mem_nil⟩

end Stream

end AnyHttp.H2
