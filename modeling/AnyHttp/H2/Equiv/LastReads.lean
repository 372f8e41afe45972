import AnyHttp.H2.Equiv.Retirement

/-!
# Reads of a stream that is over

Nothing more arrives on a stream that is closed or whose body has ended, and nobody comes back for a
read that is left waiting there: when the outermost call of `call_read_handler()` returns, it has to
have completed all of them.  The loops that deliver data and the end of the body do, however often a
handler reads again.  A truncation is reported outside of a loop, so that a handler that reads again
then is not answered.

* `reads_completed_iff`: that is the only exception.
-/

namespace AnyHttp.H2

open Lib

namespace Stream

variable {m t : Stream} {a : Action} {as : List Action} {after : Stream → Stream}

/-! ### The outermost call -/

/-- Nothing more arrives. -/
def Dead (m : Stream) : Prop := m.closed = true ∨ m.rx.eofReceived = true

/-- `close_stream()` calls `call_read_handler()`. -/
def CloseCalls (m : Stream) : Prop :=
  m.registered = true ∧ m.tx.writeHandler = none ∧ m.pending = true

/-- What goes on here does. -/
def FrameCalls (m : Stream) : Frame → Prop
  | .data | .eof | .truncated => True
  | .closing => m.pending = true
  | .failed => m.closed = true ∧ CloseCalls m
  | .erasing | .erased | .done => False

/-- The step calls `call_read_handler()`, or goes on with a call of it. -/
def Calls (m : Stream) : Action → Prop
  | .asyncReadSome _ size => 0 < size ∧ m.readerHandle = .attached
  | .onData _ | .onEof => True
  | .streamClose => CloseCalls m
  | .ret => ∃ f ∈ m.frames.head?, FrameCalls m f
  | _ => False

/-- The outermost call returns. -/
def Returns (m : Stream) (a : Action) (t : Stream) : Prop :=
  Calls m a ∧ t.rx.insideCallReadHandler = false

/-- A handler that has been told of a truncation has read again when it returns. -/
def Rearmed (m : Stream) (a : Action) : Prop :=
  a = .ret ∧ m.frames.head? = some .truncated ∧ m.Dead ∧ m.rx.readHandler ≠ none

/-! ### Answers -/

/-- A read is answered with data, the end of the body, or a truncation, unless it is cancelled, or
not meant to read anything. -/
def Answer : Call → Prop
  | .completeRead _ size ec _ bytes =>
    ec = .success ∧ (size = 0 ∨ bytes ≠ []) ∨ ec = .eof ∨ ec = .partialMessage ∨ ec = .canceled
  | _ => True

def readOf : Call → Option Handler
  | .completeRead h _ _ _ _ => some h
  | _ => none

/-- The reads so far: those that have completed, and the one that waits. -/
def reads (m : Stream) : List Handler := m.trace.filterMap readOf ++ m.rx.readHandler.toList

/-- What is asked for. -/
def asks : Action → List Handler
  | .asyncReadSome h _ => [h]
  | _ => []

/-- What a stream owes to its readers in a run. -/
structure Serves (m : Stream) (as : List Action) (t : Stream) : Prop where
  /-- When the outermost call returns and nothing more arrives, no read is left waiting. -/
  returned : Meets step (fun m a => ∀ t, step m a = some t → Returns m a t → Dead t →
    t.rx.readHandler = none) m as
  /-- All the reads have completed, in order, but for one that may be waiting. -/
  completed : t.reads = as.flatMap asks
  answers : ∀ c ∈ t.trace, Answer c

/-! ### No read is lost -/

theorem filterMap_readOf_other {cs : List Call} (h : ∀ c ∈ cs, Other c) :
    cs.filterMap readOf = [] := by
  rw [List.filterMap_eq_nil_iff]
  intro c hc
  have hc := h c hc
  cases c with
  | completeRead => exact hc.elim
  | _ => rfl

/-- A read that completes is still one of them. -/
theorem reads_complete {h : Handler} {size count : Nat} {ec : ErrorCode} {bytes : List UInt8}
    (hh : m.rx.readHandler = some h) (hnone : t.rx.readHandler = none)
    (htrace : t.trace = m.trace ++ [.completeRead h size ec count bytes]) : t.reads = m.reads := by
  unfold reads
  rw [htrace, hh, hnone, List.filterMap_append, Option.toList_none, List.append_nil]
  rfl

theorem reads_reads (hs : List Handler) : Reads fun m => m.reads = hs where
  unseen m t hm h := by
    obtain ⟨cs, htrace, hother⟩ := h.trace
    rw [← hm]
    unfold reads
    rw [htrace, h.handler, List.filterMap_append, filterMap_readOf_other hother, List.append_nil]
  deliver m h hh _ hm := (reads_complete hh rfl rfl).trans hm
  fail m h ec hh _ hm := (reads_complete hh rfl rfl).trans hm

theorem reads_answered {h : Handler} {size : Nat} {ec : ErrorCode}
    (hnone : m.rx.readHandler = none) :
    (m.call (.completeRead h size ec 0 [])).reads = m.reads ++ [h] := by
  show (m.trace ++ [_]).filterMap readOf ++ m.rx.readHandler.toList =
    m.trace.filterMap readOf ++ m.rx.readHandler.toList ++ [h]
  rw [hnone, Option.toList_none, List.append_nil, List.append_nil, List.filterMap_append]
  rfl

theorem reads_destroy (m : Stream) : m.destroy.reads = m.reads := by
  obtain ⟨htrace, _, hrx, _⟩ := destroy_spec m
  unfold reads
  rw [htrace, hrx, List.filterMap_append, List.append_assoc]
  congr 1
  unfold lastCalls
  cases m.rs.responseHandler <;> cases m.rx.readHandler <;> cases m.tx.writeHandler <;> rfl

theorem reads_step (h : step m a = some t) : t.reads = m.reads ++ asks a := by
  have hkeep (hasks : asks a = []) (hread : ∀ h size, a ≠ .asyncReadSome h size) :
      t.reads = m.reads ++ asks a := by
    rw [hasks, List.append_nil]
    exact (reads_reads m.reads).step (fun h' size heq => absurd heq (hread h' size))
      (fun _ => reads_destroy m) rfl h
  cases a with
  | asyncReadSome h' size =>
    obtain ⟨hguard, h⟩ := Option.ite_none_right_eq_some.mp h
    have hnone : m.rx.readHandler = none :=
      Option.isNone_iff_eq_none.mp (Bool.and_eq_true_iff.mp hguard).2
    rw [← Option.some.inj h]
    apply (reads_reads (m.reads ++ [h'])).asyncReadSome
    · exact fun _ => reads_answered hnone
    · exact fun _ _ => reads_answered hnone
    · intro _
      show m.trace.filterMap readOf ++ [h'] =
        m.trace.filterMap readOf ++ m.rx.readHandler.toList ++ [h']
      rw [hnone, Option.toList_none, List.append_nil]
  | _ => exact hkeep rfl nofun

/-! ### What reads are answered with -/

/-- What has been said, and what there is to say it with. -/
structure Answering (m : Stream) : Prop where
  answers : ∀ c ∈ m.trace, Answer c
  size : m.rx.readHandler.isSome = true → 0 < m.rx.readHandlerBuffer
  latched : ∀ ec, m.readerHandle = .detached ec → ec = .eof ∨ ec = .partialMessage

theorem answers_read {h : Handler} {size count : Nat} {ec : ErrorCode} {bytes : List UInt8}
    (hm : ∀ c ∈ m.trace, Answer c)
    (htrace : t.trace = m.trace ++ [.completeRead h size ec count bytes])
    (hanswer : ec = .success ∧ (size = 0 ∨ bytes ≠ []) ∨ ec = .eof ∨ ec = .partialMessage ∨
      ec = .canceled) : ∀ c ∈ t.trace, Answer c := by
  rw [htrace, List.forall_mem_append]
  refine ⟨hm, fun c hc => ?_⟩
  rw [List.mem_singleton.mp hc]
  exact hanswer

theorem reads_answering : Reads Answering where
  unseen m t hm h := by
    obtain ⟨cs, htrace, hother⟩ := h.trace
    refine ⟨?_, ?_, fun ec hec => hm.latched ec (h.detached ec hec)⟩
    · rw [htrace, List.forall_mem_append]
      refine ⟨hm.answers, fun c hc => ?_⟩
      have hc := hother c hc
      cases c with
      | completeRead => exact hc.elim
      | _ => trivial
    · rw [h.handler, h.size]
      exact hm.size
  deliver m h hh hb hm := by
    refine ⟨answers_read hm.answers rfl (.inl ⟨rfl, .inr ?_⟩), nofun, hm.latched⟩
    intro hempty
    rcases List.take_eq_nil_iff.mp hempty with hsize | hbuffer
    · have hpos := hm.size (by rw [hh]; rfl)
      omega
    · exact hb hbuffer
  fail m h ec hh hec hm :=
    ⟨answers_read hm.answers rfl (.inr hec), nofun, hm.latched⟩

theorem Answering.destroy (hm : Answering m) : Answering m.destroy := by
  obtain ⟨htrace, _, hrx, _, hhandle, _⟩ := destroy_spec m
  refine ⟨?_, ?_, ?_⟩
  · rw [htrace, List.forall_mem_append]
    refine ⟨hm.answers, fun c hc => ?_⟩
    unfold lastCalls at hc
    simp only [List.mem_append, Option.mem_toList, Option.map_eq_some_iff] at hc
    obtain (⟨_, _, rfl⟩ | ⟨_, _, rfl⟩) | ⟨_, _, rfl⟩ := hc
    · trivial
    · exact Or.inr (.inr (.inl rfl))
    · trivial
  · rw [hrx]
    exact nofun
  · intro ec hec
    rw [hhandle] at hec
    simp only [detach] at hec
    split_ifs at hec
    · exact .inl (ReaderHandle.detached.inj hec).symm
    · exact .inr (ReaderHandle.detached.inj hec).symm
    · exact hm.latched ec hec

theorem Answering.step (hm : Answering m) (h : step m a = some t) : Answering t := by
  refine reads_answering.step ?_ (fun _ => hm.destroy) hm h
  intro h' size _
  apply reads_answering.asyncReadSome
  · rintro rfl
    exact ⟨answers_read hm.answers rfl (.inl ⟨rfl, .inl rfl⟩), hm.size, hm.latched⟩
  · intro ec hec
    have hanswer := (hm.latched ec hec).imp_right (Or.inl (b := ec = .canceled))
    exact ⟨answers_read hm.answers rfl (.inr hanswer), hm.size, hm.latched⟩
  · exact fun hsize => ⟨hm.answers, fun _ => hsize, hm.latched⟩

theorem answering_fresh (hm : Fresh m) : Answering m := by
  obtain ⟨_, _, rfl | rfl⟩ := hm
  · exact ⟨nofun, nofun, nofun⟩
  · exact ⟨nofun, nofun, nofun⟩

/-! ### What is left when the outermost call returns -/

/-- No read waits for what does not come. -/
def Served (m : Stream) : Prop := Dead m → m.rx.readHandler = none

theorem keeps_idle : Keeps fun m => m.rx.readHandler = none where
  buffer m data hm := (unseen_buffer m data).handler.trans hm
  enter _ _ hm := hm
  advance m hm := (unseen_advance m).handler.trans hm
  credit m hm := (unseen_credit m).handler.trans hm
  park _ hm := hm
  leave _ hm := hm
  deliver _ _ _ _ _ := rfl
  failRead _ _ _ _ _ _ _ _ := rfl
  closeWrite _ _ _ _ hm := hm
  failResponse _ _ _ hm := hm
  flags _ _ _ _ _ _ _ hm := hm

theorem Served.finishDeferredClose (hm : Served m) : Served m.finishDeferredClose := by
  unfold Stream.finishDeferredClose
  split
  · rename_i hcond
    simp only [Bool.and_eq_true, Option.isNone_iff_eq_none] at hcond
    exact fun _ => keeps_idle.closeStream (m := { m with closeDeferred := false }) hcond.1.2
  · exact hm

theorem served_readStep (hafter : ∀ u, Served u → Served (after u)) (h : ReadStep after m t) :
    Served t := by
  cases h with
  | deliver _ _ => exact fun _ => rfl
  | park hh _ =>
    apply hafter
    intro _
    show m.credit.rx.readHandler = none
    rw [credit_readHandler, hh]
  | eof _ _ _ => exact fun _ => rfl
  | truncated _ _ _ => exact fun _ => rfl
  | wait _ hmore hopen =>
    apply hafter
    intro hdead
    show m.credit.rx.readHandler = none
    rw [credit_readHandler, ← Option.not_isSome_iff_eq_none]
    intro hh
    -- the loop would not leave anybody waiting at a stream that is closed, or whose body has ended
    rcases hdead with hclosed | heof
    · have hclosed : m.credit.closed = true := hclosed
      rw [credit_closed, hopen hh] at hclosed
      exact nomatch hclosed
    · have heof : m.credit.rx.eofReceived = true := heof
      rw [credit_eofReceived, hmore hh] at heof
      exact nomatch heof

/-- A call leaves no read behind, unless it is inside of another one, which it leaves them to. -/
theorem served_callReadHandlerThen (hafter : ∀ u, Served u → Served (after u))
    (hnested : m.rx.insideCallReadHandler = true → after m = m) {data : List UInt8}
    (hreturned : (m.callReadHandlerThen data after).rx.insideCallReadHandler = false) :
    Served (m.callReadHandlerThen data after) := by
  rcases callReadHandlerThen_cases m data after with ⟨hh, heq⟩ | ⟨hi, heq⟩ | ⟨_, _, hstep⟩
  · rw [heq]
    exact hafter _ fun _ => keeps_idle.buffer m data hh
  · rw [heq, hnested hi, hi] at hreturned
    exact nomatch hreturned
  · exact served_readStep hafter hstep

theorem finishDeferredClose_inside (h : m.rx.insideCallReadHandler = true) :
    m.finishDeferredClose = m := by
  unfold finishDeferredClose
  rw [h, Bool.not_true, Bool.and_false, if_neg Bool.false_ne_true]

theorem served_callReadHandler {data : List UInt8}
    (hreturned : (m.callReadHandler data).rx.insideCallReadHandler = false) :
    Served (m.callReadHandler data) :=
  served_callReadHandlerThen (fun _ h => h.finishDeferredClose) finishDeferredClose_inside hreturned

theorem served_keepOrErase (hpending : m.pending = true)
    (hreturned : m.keepOrErase.rx.insideCallReadHandler = false) : Served m.keepOrErase := by
  have heq : m.keepOrErase = m.useIterator.callReadHandlerThen [] id := if_pos hpending
  rw [heq] at hreturned ⊢
  exact served_callReadHandlerThen (fun _ h => h) (fun _ => rfl) hreturned

theorem served_closeStream (hcalls : CloseCalls m)
    (hreturned : m.closeStream.rx.insideCallReadHandler = false) : Served m.closeStream := by
  obtain ⟨hregistered, hwrite, hpending⟩ := hcalls
  have heq : m.closeStream = keepOrErase { m with closed := true } := by
    unfold closeStream
    rw [if_neg (by rw [hregistered]; decide)]
    dsimp only
    rw [hwrite]
  rw [heq] at hreturned ⊢
  exact served_keepOrErase (m := { m with closed := true }) hpending hreturned

/-! ### Steps -/

/-- What goes on when a handler returns. -/
theorem served_ret {f : Frame} {frames : List Frame} (hf : m.frames = f :: frames)
    (hcalls : FrameCalls m f) (hnot : ¬Rearmed m .ret)
    (hreturned : (ret { m with frames := frames } f).rx.insideCallReadHandler = false) :
    Served (ret { m with frames := frames } f) := by
  cases f with
  | data => exact served_readStep (fun _ h => h.finishDeferredClose) (readLoopThen_step _ _)
  | eof =>
    -- after the end of the body has been told, the loop tells it again
    show Served (eofLoopThen { m with frames := frames } _)
    unfold eofLoopThen
    split
    · exact fun _ => rfl
    · rename_i hnone
      exact Served.finishDeferredClose fun _ => hnone
  | truncated =>
    -- a truncation is told once: who reads again waits in vain
    apply Served.finishDeferredClose
    intro hdead
    by_contra hh
    exact hnot ⟨rfl, by rw [hf]; rfl, hdead, hh⟩
  | closing => exact served_keepOrErase (m := { m with frames := frames }) hcalls hreturned
  | failed =>
    -- the response has failed, and the stream is closed once more
    have heq : ret { m with frames := frames } .failed = closeStream { m with frames := frames } :=
      if_pos hcalls.1
    rw [heq] at hreturned ⊢
    exact served_closeStream (m := { m with frames := frames }) hcalls.2 hreturned
  | erasing | erased | done => exact hcalls.elim

theorem served_step (h : step m a = some t) (hreturns : Returns m a t) (hnot : ¬Rearmed m a) :
    Served t := by
  obtain ⟨hcalls, hreturned⟩ := hreturns
  cases a with
  | asyncReadSome h' size =>
    obtain ⟨hsize, hattached⟩ := hcalls
    obtain ⟨_, h⟩ := Option.ite_none_right_eq_some.mp h
    obtain rfl := Option.some.inj h
    have heq : m.asyncReadSome h' size = callReadHandler { m with rx := { m.rx with
        readHandler := some h', readHandlerBuffer := size } } [] := by
      unfold asyncReadSome
      rw [if_neg (by omega), hattached]
    rw [heq] at hreturned ⊢
    exact served_callReadHandler hreturned
  | onData data =>
    obtain ⟨_, h⟩ := Option.ite_none_right_eq_some.mp h
    obtain rfl := Option.some.inj h
    exact served_callReadHandler hreturned
  | onEof =>
    obtain ⟨_, h⟩ := Option.ite_none_right_eq_some.mp h
    obtain rfl := Option.some.inj h
    exact served_callReadHandler hreturned
  | streamClose =>
    obtain ⟨_, h⟩ := Option.ite_none_right_eq_some.mp h
    obtain rfl := Option.some.inj h
    exact served_closeStream hcalls hreturned
  | ret =>
    rw [step] at h
    split at h
    · cases h
    · rename_i f frames hf
      obtain rfl := Option.some.inj h
      obtain ⟨g, hg, hcalls⟩ := hcalls
      rw [hf] at hg
      obtain rfl := Option.some.inj hg
      exact served_ret hf hcalls hnot hreturned
  | _ => exact hcalls.elim

/-- After a truncation, a read is just left there. -/
theorem Rearmed.left (hr : Rearmed m a) (h : step m a = some t) :
    Returns m a t ∧ Dead t ∧ t.rx.readHandler ≠ none := by
  obtain ⟨rfl, hf, hdead, hh⟩ := hr
  rw [step] at h
  split at h
  · cases h
  · rename_i f frames hframes
    rw [hframes] at hf
    obtain rfl := Option.some.inj hf
    obtain rfl := Option.some.inj h
    have heq : ret { m with frames := frames } .truncated = leave { m with frames := frames } := by
      show finishDeferredClose (leave { m with frames := frames }) = _
      unfold finishDeferredClose
      rw [if_neg]
      intro hcond
      simp only [Bool.and_eq_true, Option.isNone_iff_eq_none] at hcond
      exact hh hcond.1.2
    rw [heq]
    exact ⟨⟨⟨.truncated, by rw [hframes]; rfl, trivial⟩, rfl⟩, hdead, hh⟩

/-- **Step lemma**: nobody but a handler that has been told of a truncation is left waiting. -/
theorem served_iff (h : step m a = some t) :
    (∀ t, step m a = some t → Returns m a t → Dead t → t.rx.readHandler = none) ↔
      ¬Rearmed m a := by
  constructor
  · intro hserved hr
    obtain ⟨hreturns, hdead, hh⟩ := hr.left h
    exact hh (hserved t h hreturns hdead)
  · intro hnot t h hreturns
    exact served_step h hreturns hnot

/-! ### Runs -/

/-- **No read is left hanging on a stream that is over**, in a run, exactly if no handler that has
been told of a truncation by `call_read_handler()` reads again before it returns. -/
theorem reads_completed_iff (hm : Fresh m) (hrun : run step m as = some t) :
    Serves m as t ↔ Meets step (fun m a => ¬Rearmed m a) m as := by
  have hmeets := meets_iff_meets (I := fun _ => True) (fun _ _ _ _ _ => trivial)
    (fun _ _ _ _ h => served_iff h) trivial hrun
  refine ⟨fun h => hmeets.mp h.returned, fun h => ⟨hmeets.mpr h, ?_, ?_⟩⟩
  · have hnone : m.reads = [] := by
      obtain ⟨_, _, rfl | rfl⟩ := hm
      · rfl
      · rfl
    have hlog := run_log (I := fun _ => True) (fun _ _ _ _ _ => trivial)
      (fun _ _ _ _ h => reads_step h) trivial hrun
    rw [hlog, hnone, List.nil_append]
  · exact (run_inv (fun _ _ _ hm h => hm.step h) (answering_fresh hm) hrun).answers

instance (m : Stream) (a : Action) : Decidable (Rearmed m a) :=
  inferInstanceAs (Decidable (a = .ret ∧ m.frames.head? = some .truncated ∧
    (m.closed = true ∨ m.rx.eofReceived = true) ∧ m.rx.readHandler ≠ none))

/-- A response that is asked for when the stream has been closed. -/
def closedEarly : List Action :=
  [.onHeaders [(":status".toList, "200".toList)], .onData [1, 2, 3, 4, 5], .streamClose,
    .asyncGetResponse ⟨0, none⟩, .ret]

/-- The handlers of the first two reads read again. -/
def readAgain : List Action :=
  closedEarly ++ [.asyncReadSome ⟨1, none⟩ 4, .asyncReadSome ⟨2, none⟩ 4, .ret,
    .asyncReadSome ⟨3, none⟩ 4, .ret, .ret]

theorem reads_completed_readAgain :
    ∃ t, run step (client .v1 1000) readAgain = some t ∧ Serves (client .v1 1000) readAgain t := by
  have hsome : (run step (client .v1 1000) readAgain).isSome = true := by decide +kernel
  obtain ⟨t, hrun⟩ := Option.isSome_iff_exists.mp hsome
  exact ⟨t, hrun, (reads_completed_iff ⟨_, _, .inl rfl⟩ hrun).mpr (by decide +kernel)⟩

/-- **A read that is issued on the news of a truncation is left waiting.** -/
theorem read_left_hanging :
    ¬ ∀ as t, run step (client .v1 1000) as = some t → Serves (client .v1 1000) as t := by
  intro h
  have hstate : (run step (client .v1 1000) (closedEarly ++ [.asyncReadSome ⟨1, none⟩ 8,
      .asyncReadSome ⟨2, none⟩ 8, .ret, .asyncReadSome ⟨3, none⟩ 8])).map
        (fun u => decide (Rearmed u .ret) && (step u .ret).isSome) = some true := by
    decide +kernel
  obtain ⟨u, hrun, hu⟩ := Option.map_eq_some_iff.mp hstate
  obtain ⟨hr, hsome⟩ := Bool.and_eq_true_iff.mp hu
  obtain ⟨t, hstep⟩ := Option.isSome_iff_exists.mp hsome
  obtain ⟨hreturns, hdead, hleft⟩ := (of_decide_eq_true hr).left hstep
  exact hleft ((h _ t (run_snoc hrun hstep)).returned.last hrun t hstep hreturns hdead)

end Stream

end AnyHttp.H2
