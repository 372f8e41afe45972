import AnyHttp.H2.Equiv.Interim
import AnyHttp.H2.Equiv.Retirement
import AnyHttp.Lib.OneShot

/-!
# `async_get_response()` over HTTP/2

A response, or its failure, is handed out as soon as it is there and somebody asks for it (`Waits`).
A call to a stream that is closed without a response is left waiting, but only as long as
`close_stream()` has not finished, or the stream is about to be destroyed (`Attended`).

* `get_response_rules`: what each step of a client's stream does to those who ask for its response.
-/

namespace AnyHttp.H2

open Lib

namespace Stream

variable {m t : Stream} {a : Action} {P : Stream → Prop}

def replyOf : Call → Option (Reply Handler ErrorCode (Nat × Fields))
  | .completeResponse h ec response => some ⟨h, ec, response⟩
  | _ => none

/-- What there is to see for those who ask. -/
def desk (m : Stream) : Desk Handler ErrorCode (Nat × Fields) where
  replies := m.trace.filterMap replyOf
  waiting := m.rs.responseHandler
  attached := m.writerHandle == .attached
  arrived := m.rs.hasResponse && m.rs.responseError.isNone
  handed := m.rs.responseDelivered
  closed := m.closed
  leaving := !m.registered || m.frames.contains .closing
  destroyed := m.destroyed

/-- Who asks. -/
def asksFor : Action → List Handler
  | .asyncGetResponse h => [h]
  | _ => []

/-! ### What those who ask do not see -/

/-- Nobody asks, or is answered, and the response does not arrive. -/
structure Unasked (m t : Stream) : Prop where
  handler : t.rs.responseHandler = m.rs.responseHandler
  hasResponse : t.rs.hasResponse = m.rs.hasResponse
  delivered : t.rs.responseDelivered = m.rs.responseDelivered
  error : t.rs.responseError = m.rs.responseError
  closed : m.closed = true → t.closed = true
  destroyed : t.destroyed = m.destroyed
  attached : t.writerHandle = .attached → m.writerHandle = .attached ∧ t.writer = m.writer
  trace : ∃ cs, t.trace = m.trace ++ cs ∧ cs.filterMap replyOf = []

/-- What leaves the response and the writing handle alone has nothing to do with asking. -/
theorem unasked_of (hrs : t.rs = m.rs) (hclosed : t.closed = m.closed)
    (hdestroyed : t.destroyed = m.destroyed) (hhandle : t.writerHandle = m.writerHandle)
    (hwriter : t.writer = m.writer) (htrace : t.trace = m.trace) : Unasked m t :=
  ⟨by rw [hrs], by rw [hrs], by rw [hrs], by rw [hrs], fun h => hclosed.trans h, hdestroyed,
    fun h => ⟨hhandle ▸ h, hwriter⟩, [], by rw [htrace, List.append_nil], rfl⟩

/-- Nor has another call. -/
theorem unasked_call {c : Call} (hc : replyOf c = none) (hrs : t.rs = m.rs)
    (hclosed : t.closed = m.closed) (hdestroyed : t.destroyed = m.destroyed)
    (hhandle : t.writerHandle = m.writerHandle) (hwriter : t.writer = m.writer)
    (htrace : t.trace = m.trace ++ [c]) : Unasked m t := by
  refine ⟨by rw [hrs], by rw [hrs], by rw [hrs], by rw [hrs], fun h => hclosed.trans h, hdestroyed,
    fun h => ⟨hhandle ▸ h, hwriter⟩, [c], htrace, ?_⟩
  rw [List.filterMap_cons, hc, List.filterMap_nil]

theorem Unasked.trans {u : Stream} (h₁ : Unasked m t) (h₂ : Unasked t u) : Unasked m u := by
  obtain ⟨cs, hcs, hnone⟩ := h₁.trace
  obtain ⟨ds, hds, hnone'⟩ := h₂.trace
  refine ⟨h₂.handler.trans h₁.handler, h₂.hasResponse.trans h₁.hasResponse,
    h₂.delivered.trans h₁.delivered, h₂.error.trans h₁.error, fun h => h₂.closed (h₁.closed h),
    h₂.destroyed.trans h₁.destroyed, ?_, cs ++ ds, ?_, ?_⟩
  · intro h
    obtain ⟨hattached, hwriter⟩ := h₂.attached h
    obtain ⟨hattached', hwriter'⟩ := h₁.attached hattached
    exact ⟨hattached', hwriter.trans hwriter'⟩
  · rw [hds, hcs, List.append_assoc]
  · rw [List.filterMap_append, hnone, hnone', List.append_nil]

/-- The outgoing body is not the response, ... -/
theorem unasked_of_outward (h : Outward m t) : Unasked m t := by
  obtain ⟨_, _, _, _, _, _, cs, rfl, _, hcs⟩ := h
  refine ⟨rfl, rfl, rfl, rfl, id, rfl, fun h => ⟨h, rfl⟩, cs, rfl, ?_⟩
  rw [List.filterMap_eq_nil_iff]
  intro c hc
  have hc := hcs c hc
  cases c with
  | completeResponse => exact hc.elim
  | _ => rfl

/-- ... and a reset does not answer for it. -/
theorem unasked_maybeCloseStream (m : Stream) : Unasked m m.maybeCloseStream := by
  unfold maybeCloseStream
  split_ifs
  · exact unasked_of rfl rfl rfl rfl rfl rfl
  · exact unasked_of rfl rfl rfl rfl rfl rfl
  · rcases m.backend.reset_cases with hreset | hreset
    · exact unasked_call (by rw [hreset]; rfl) rfl rfl rfl rfl rfl rfl
    · exact unasked_call (by rw [hreset]; rfl) rfl rfl rfl rfl rfl rfl
  · exact unasked_of rfl rfl rfl rfl rfl rfl

/-- The user lets go of the request. -/
theorem unasked_released {writer : Bool} (heq : t = { m with
      writer := writer
      writerHandle := .released }) : Unasked m t := by
  subst heq
  exact ⟨rfl, rfl, rfl, rfl, id, rfl, (fun h => nomatch h), [], (List.append_nil _).symm, rfl⟩

/-- The fields of a header section change nothing about who waits for the response. -/
theorem unasked_onHeaderSection (m : Stream) (fields : Fields) :
    Unasked m (m.onHeaderSection fields) := by
  have hrest := foldl_onHeader_rest m.maxHeaderSize fields m.rs
  refine ⟨?_, ?_, ?_, ?_, id, rfl, fun h => ⟨h, rfl⟩, [], (List.append_nil _).symm, rfl⟩
  · show (fields.foldl _ m.rs).responseHandler = _
    rw [hrest]
  · show (fields.foldl _ m.rs).hasResponse = _
    rw [hrest]
  · show (fields.foldl _ m.rs).responseDelivered = _
    rw [hrest]
  · show (fields.foldl _ m.rs).responseError = _
    rw [hrest]

/-- A property of what those who ask see that an error for the one who waits keeps. -/
structure Asks (P : Stream → Prop) : Prop where
  unasked : ∀ m t, P m → Unasked m t → P t
  fail : ∀ m h ec, m.rs.responseHandler = some h → ec ≠ .success → P m →
    P (m.completeResponse h ec none)

namespace Asks

/-- What an error for the one who waits keeps, and all the rest, is kept by `close_stream()`. -/
theorem keeps (hP : Asks P) : Keeps P where
  buffer m data hm := by
    refine hP.unasked m _ hm ?_
    unfold buffer
    split <;> exact unasked_of rfl rfl rfl rfl rfl rfl
  enter m _ hm := hP.unasked m _ hm (unasked_of rfl rfl rfl rfl rfl rfl)
  advance m hm := by
    refine hP.unasked m _ hm ?_
    unfold advance
    split <;> exact unasked_of rfl rfl rfl rfl rfl rfl
  credit m hm := by
    refine hP.unasked m _ hm ?_
    unfold credit
    split
    · exact unasked_of rfl rfl rfl rfl rfl rfl
    · exact unasked_call (c := .consumeStream _) rfl rfl rfl rfl rfl rfl rfl
  park m hm := hP.unasked m _ hm (unasked_of rfl rfl rfl rfl rfl rfl)
  leave m hm := hP.unasked m _ hm (unasked_of rfl rfl rfl rfl rfl rfl)
  deliver m h _ _ hm :=
    hP.unasked m _ hm (unasked_call (c := .completeRead _ _ _ _ _) rfl rfl rfl rfl rfl rfl rfl)
  failRead m h ec f _ _ _ hm :=
    hP.unasked m _ hm (unasked_call (c := .completeRead _ _ _ _ _) rfl rfl rfl rfl rfl rfl rfl)
  closeWrite m h _ _ hm :=
    hP.unasked m _ hm (unasked_call (c := .completeWrite _ _) rfl rfl rfl rfl rfl rfl rfl)
  failResponse m h hh hm :=
    hP.unasked _ _ (hP.fail m h endOfStream hh (by decide) hm) (unasked_of rfl rfl rfl rfl rfl rfl)
  flags m closed _ _ _ _ hle hm := by
    refine hP.unasked m _ hm ⟨rfl, rfl, rfl, rfl, fun h => ?_, rfl, fun h => ⟨h, rfl⟩, [], ?_, rfl⟩
    · rw [h] at hle
      exact Bool.eq_true_of_true_le hle
    · rw [List.append_nil]

/-- **Step rule** for what those who ask see. -/
theorem step (hP : Asks P) (hget : ∀ h, a = .asyncGetResponse h → m.writerHandle ≠ .released →
      m.rs.responseHandler = none → P (m.asyncGetResponse h))
    (hheaders : ∀ fields, a = .onHeaders fields → m.closed = false → m.destroyed = false →
      P (m.onHeaders fields))
    (hdestroy : a = .destroy → P m.destroy) (hm : P m) (h : step m a = some t) : P t := by
  cases a with
  | asyncWrite _ _ _ | cancelWrite | producer _ | dataReader _ | writeOffset _ =>
    exact hP.unasked m t hm (unasked_of_outward (outward_step rfl h))
  | asyncReadSome h' size =>
    obtain ⟨_, h⟩ := Option.ite_none_right_eq_some.mp h
    rw [← Option.some.inj h, asyncReadSome]
    split
    · exact hP.unasked m _ hm (unasked_call (c := .completeRead _ _ _ _ _)
        rfl rfl rfl rfl rfl rfl rfl)
    · split
      · exact hP.unasked m _ hm
          (unasked_call (c := .completeRead _ _ _ _ _) rfl rfl rfl rfl rfl rfl rfl)
      · apply hP.keeps.callReadHandler
        exact hP.unasked m _ hm (unasked_of rfl rfl rfl rfl rfl rfl)
  | cancelRead =>
    obtain ⟨_, h⟩ := Option.ite_none_right_eq_some.mp h
    rw [← Option.some.inj h, cancelRead]
    split
    · exact hP.unasked m _ hm (unasked_call (c := .completeRead _ _ _ _ _)
        rfl rfl rfl rfl rfl rfl rfl)
    · exact hm
  | asyncGetResponse h' =>
    obtain ⟨hguard, h⟩ := Option.ite_none_right_eq_some.mp h
    rw [← Option.some.inj h]
    exact hget h' rfl hguard.2.1 hguard.2.2
  | cancelResponse =>
    obtain ⟨_, h⟩ := Option.ite_none_left_eq_some.mp h
    rw [← Option.some.inj h, cancelResponse]
    split
    · exact hP.fail m _ .canceled ‹_› (by decide) hm
    · exact hm
  | dropReader =>
    obtain ⟨_, h⟩ := Option.ite_none_right_eq_some.mp h
    rw [← Option.some.inj h, dropReader]
    split
    · apply hP.keeps.finishDeferredClose
      refine hP.unasked m _ hm (Unasked.trans ?_ (unasked_maybeCloseStream _))
      dsimp only
      split
      · exact unasked_of rfl rfl rfl rfl rfl rfl
      · exact unasked_of rfl rfl rfl rfl rfl rfl
    · exact hP.unasked m _ hm (unasked_of rfl rfl rfl rfl rfl rfl)
  | dropWriter =>
    obtain ⟨_, h⟩ := Option.ite_none_right_eq_some.mp h
    rw [← Option.some.inj h, dropWriter]
    split
    · refine hP.unasked m _ hm (Unasked.trans ?_ (unasked_maybeCloseStream _))
      exact unasked_released rfl
    · exact hP.unasked m _ hm (unasked_released rfl)
  | ret =>
    rw [Stream.step] at h
    split at h
    · cases h
    · rw [← Option.some.inj h]
      apply hP.keeps.ret
      exact hP.unasked m _ hm (unasked_of rfl rfl rfl rfl rfl rfl)
  | onHeaders fields =>
    obtain ⟨hguard, h⟩ := Option.ite_none_right_eq_some.mp h
    simp only [open_, Bool.and_eq_true, Bool.not_eq_true'] at hguard
    rw [← Option.some.inj h]
    exact hheaders fields rfl hguard.1.1.1.2 hguard.1.1.2
  | onTrailers fields =>
    obtain ⟨_, h⟩ := Option.ite_none_right_eq_some.mp h
    rw [← Option.some.inj h]
    exact hP.unasked m _ hm (unasked_onHeaderSection m fields)
  | onData data =>
    obtain ⟨_, h⟩ := Option.ite_none_right_eq_some.mp h
    rw [← Option.some.inj h]
    apply hP.keeps.callReadHandler
    exact hP.unasked m _ hm (unasked_of rfl rfl rfl rfl rfl rfl)
  | onEof =>
    obtain ⟨_, h⟩ := Option.ite_none_right_eq_some.mp h
    rw [← Option.some.inj h]
    apply hP.keeps.callReadHandler
    exact hP.unasked m _ hm (unasked_of rfl rfl rfl rfl rfl rfl)
  | streamClose =>
    obtain ⟨_, h⟩ := Option.ite_none_right_eq_some.mp h
    rw [← Option.some.inj h]
    exact hP.keeps.closeStream hm
  | destroy =>
    obtain ⟨_, h⟩ := Option.ite_none_right_eq_some.mp h
    rw [← Option.some.inj h]
    exact hdestroy rfl

end Asks

/-! ### Who waits -/

/-- Whoever waits has a reason to. -/
structure Waits (m : Stream) : Prop where
  waiting : m.rs.responseHandler ≠ none → m.rs.hasResponse = false ∧ m.rs.responseError = none ∧
    m.rs.responseDelivered = false ∧ m.destroyed = false
  error : m.rs.responseError ≠ some .success
  gone : m.destroyed = true → m.writerHandle ≠ .attached
  writer : m.writerHandle = .attached → m.writer = true

/-- Whoever gets an error waits no longer. -/
theorem asks_waits : Asks Waits where
  unasked m t hm h := by
    refine ⟨?_, ?_, ?_, ?_⟩
    · rw [h.handler, h.hasResponse, h.error, h.delivered, h.destroyed]
      exact hm.waiting
    · rw [h.error]
      exact hm.error
    · rw [h.destroyed]
      exact fun hdestroyed hattached => hm.gone hdestroyed (h.attached hattached).1
    · intro hattached
      obtain ⟨hattached, hwriter⟩ := h.attached hattached
      rw [hwriter]
      exact hm.writer hattached
  fail m h ec _ _ hm := ⟨fun h => absurd rfl h, hm.error, hm.gone, hm.writer⟩

/-- A response is there, or not. -/
theorem Waits.deliverResponse (herror : m.rs.responseError ≠ some .success)
    (hgone : m.destroyed = true → m.writerHandle ≠ .attached)
    (hwriter : m.writerHandle = .attached → m.writer = true)
    (hasking : m.rs.responseHandler ≠ none → m.rs.responseDelivered = false ∧ m.destroyed = false) :
    Waits m.deliverResponse := by
  unfold Stream.deliverResponse
  -- there has to be a response, and somebody who waits for it
  split
  · rename_i habsent
    simp only [Bool.and_eq_true, Bool.not_eq_true', Option.isNone_iff_eq_none] at habsent
    exact ⟨fun h => ⟨habsent.1, habsent.2, hasking h⟩, herror, hgone, hwriter⟩
  · split
    · rename_i hnone
      exact ⟨fun h => absurd hnone h, herror, hgone, hwriter⟩
    · dsimp only
      split
      · exact ⟨fun h => absurd rfl h, herror, hgone, hwriter⟩
      · exact ⟨fun h => absurd rfl h, herror, hgone, hwriter⟩

/-! ### What they are told -/

/-- Only errors, and nothing of the component gets better. -/
structure Fails (d : Desk Handler ErrorCode (Nat × Fields)) (callers : List Handler) (t : Stream) :
    Prop where
  callers : t.desk.callers = callers
  errors : d.Errors .success t.desk
  handed : t.rs.responseDelivered = false → d.handed = false
  void : d.Void → t.desk.Void

/-- The replies are those of the calls, in their order. -/
theorem replies_append {cs : List Call} {rs : List (Reply Handler ErrorCode (Nat × Fields))}
    (htrace : t.trace = m.trace ++ cs) (hcs : cs.filterMap replyOf = rs) :
    t.desk.replies = m.desk.replies ++ rs := by
  show t.trace.filterMap replyOf = m.trace.filterMap replyOf ++ rs
  rw [htrace, List.filterMap_append, hcs]

/-- Without asking, nobody gets a reply. -/
theorem Unasked.replies (h : Unasked m t) : t.desk.replies = m.desk.replies := by
  obtain ⟨cs, htrace, hcs⟩ := h.trace
  rw [replies_append htrace hcs, List.append_nil]

/-- Those who get an error are the ones who ask. -/
theorem asks_fails (d : Desk Handler ErrorCode (Nat × Fields)) (callers : List Handler) :
    Asks (Fails d callers) where
  unasked m t hm h := by
    refine ⟨?_, ?_, ?_, ?_⟩
    · rw [← hm.callers, Desk.callers, h.replies]
      show _ ++ t.rs.responseHandler.toList = _
      rw [h.handler]
      rfl
    · obtain ⟨rs, hrs, hcodes⟩ := hm.errors
      exact ⟨rs, h.replies.trans hrs, hcodes⟩
    · rw [h.delivered]
      exact hm.handed
    · intro hvoid
      obtain ⟨hclosed, harrived⟩ := hm.void hvoid
      refine ⟨h.closed hclosed, ?_⟩
      show (t.rs.hasResponse && t.rs.responseError.isNone) = false
      rw [h.hasResponse, h.error]
      exact harrived
  fail m h ec hh hec hm := by
    have hreplies : (m.completeResponse h ec none).desk.replies =
        m.desk.replies ++ [⟨h, ec, none⟩] := replies_append rfl rfl
    refine ⟨?_, hm.errors.trans ⟨_, hreplies, ?_⟩, hm.handed, hm.void⟩
    · have hcaller : m.rs.responseHandler.toList ++ [] = [h] := by
        rw [hh]
        rfl
      rw [← hm.callers, ← List.append_nil m.desk.callers]
      exact Desk.callers_answer hreplies hcaller rfl
    · intro r hr
      rw [List.mem_singleton.mp hr]
      exact hec

/-- The response, or its failure, for the one who waits, or has just called. -/
theorem deliverResponse_progress {d : Desk Handler ErrorCode (Nat × Fields)} {hs : List Handler}
    (hreplies : m.desk.replies = d.replies)
    (hcaller : m.rs.responseHandler.toList = d.waiting.toList ++ hs)
    (hasking : m.rs.responseHandler ≠ none → m.rs.responseDelivered = false)
    (hhanded : m.rs.responseDelivered = d.handed) (herror : m.rs.responseError ≠ some .success)
    (hvoid : d.Void → m.desk.Void) : Answered .success d m.deliverResponse.desk hs := by
  unfold Stream.deliverResponse
  split
  · exact .silent hreplies hcaller (fun h => hhanded.symm.trans h) hvoid
  · rename_i hpresent
    split
    · exact .silent hreplies hcaller (fun h => hhanded.symm.trans h) hvoid
    · rename_i h hh
      rw [hh] at hcaller
      have hnot : d.handed = false := hhanded.symm.trans (hasking (by rw [hh]; exact nofun))
      dsimp only
      split
      · rename_i ec hec
        refine .fail (r := ⟨h, ec, none⟩) ?_ ?_ hcaller.symm rfl (fun _ => hnot) hvoid
        · rw [← hreplies]
          exact replies_append rfl rfl
        · rintro rfl
          exact herror hec
      · rename_i hnone
        refine @Answered.hand _ _ _ _ _ _ _ h (m.rs.statusCode.getD 0, m.rs.fields)
          ?_ hcaller.symm rfl
          hnot rfl fun hv => ?_
        · rw [← hreplies]
          exact replies_append rfl rfl
        · have hnone : m.rs.responseError = none := hnone
          have harrived : (m.rs.hasResponse && m.rs.responseError.isNone) = false := (hvoid hv).2
          rw [hnone] at harrived hpresent
          rw [Option.isNone_none, Bool.and_true] at harrived hpresent
          rw [harrived] at hpresent
          exact hpresent rfl

/-! ### The operations -/

/-- **Somebody asks**, and waits unless there is an answer. -/
theorem Waits.asyncGetResponse (hm : Waits m) (hheld : m.writerHandle ≠ .released) (h : Handler) :
    Waits (m.asyncGetResponse h) := by
  unfold Stream.asyncGetResponse
  split
  · exact ⟨hm.waiting, hm.error, hm.gone, hm.writer⟩
  · rename_i hnot
    split
    · exact ⟨hm.waiting, hm.error, hm.gone, hm.writer⟩
    · rename_i hdelivered
      refine Waits.deliverResponse (m := { m with rs := { m.rs with responseHandler := some h } })
        hm.error hm.gone hm.writer fun _ => ?_
      refine ⟨Bool.eq_false_of_not_eq_true hdelivered, ?_⟩
      -- a destroyed stream cannot be reached
      by_contra hdestroyed
      have hgone := hm.gone (Bool.eq_true_of_not_eq_false hdestroyed)
      cases hh : m.writerHandle with
      | attached => exact hgone hh
      | detached eofSubmitted => exact hnot eofSubmitted hh
      | released => exact hheld hh

/-- The answer that is there is given at once. -/
theorem asyncGetResponse_progress (herror : m.rs.responseError ≠ some .success)
    (hnone : m.rs.responseHandler = none) (h : Handler) :
    Answered .success m.desk (m.asyncGetResponse h).desk [h] := by
  have hcaller : m.rs.responseHandler.toList ++ [h] = [h] := by
    rw [hnone]
    rfl
  unfold Stream.asyncGetResponse
  split
  · exact .fail (r := ⟨h, .connectionAborted, none⟩) (replies_append rfl rfl) (fun h => nomatch h)
      hcaller hnone id id
  · split
    · exact .fail (r := ⟨h, .alreadyStarted, none⟩) (replies_append rfl rfl) (fun h => nomatch h)
        hcaller hnone id id
    · rename_i hdelivered
      have hdelivered : m.rs.responseDelivered = false := Bool.eq_false_of_not_eq_true hdelivered
      refine deliverResponse_progress
        (m := { m with rs := { m.rs with responseHandler := some h } })
        rfl ?_ (fun _ => hdelivered) rfl herror id
      show [h] = m.rs.responseHandler.toList ++ [h]
      exact hcaller.symm

/-- A response that has arrived, or is too long, is not waited for. -/
theorem Waits.onResponse (hm : Waits m) (hdestroyed : m.destroyed = false) :
    Waits m.onResponse := by
  have hasking : m.rs.responseHandler ≠ none →
      m.rs.responseDelivered = false ∧ m.destroyed = false :=
    fun h => ⟨(hm.waiting h).2.2.1, hdestroyed⟩
  unfold Stream.onResponse
  split
  · exact Waits.deliverResponse (fun h => nomatch h) hm.gone hm.writer hasking
  · exact Waits.deliverResponse hm.error hm.gone hm.writer hasking

/-- A header section arrives at a stream that is open. -/
theorem onResponse_progress {d : Desk Handler ErrorCode (Nat × Fields)} (hm : Waits m)
    (hreplies : m.desk.replies = d.replies) (hwaiting : m.rs.responseHandler = d.waiting)
    (hhanded : m.rs.responseDelivered = d.handed) (hvoid : ¬d.Void) :
    Answered .success d m.onResponse.desk [] := by
  have hcaller : m.rs.responseHandler.toList = d.waiting.toList ++ [] := by
    rw [hwaiting, List.append_nil]
  have hasking : m.rs.responseHandler ≠ none → m.rs.responseDelivered = false :=
    fun h => (hm.waiting h).2.2.1
  unfold Stream.onResponse
  split
  · refine deliverResponse_progress ?_ hcaller hasking hhanded (fun h => nomatch h)
      fun h => absurd h hvoid
    rw [← hreplies]
    exact (@replies_append m _ [.resetStream] _ rfl rfl).trans (List.append_nil _)
  · exact deliverResponse_progress hreplies hcaller hasking hhanded hm.error
      fun h => absurd h hvoid

/-- So is a header section that is a response, and other ones change nothing. -/
theorem Waits.onHeaders (hm : Waits m) (hdestroyed : m.destroyed = false) (fields : Fields) :
    Waits (m.onHeaders fields) := by
  have hsection := asks_waits.unasked m _ hm (unasked_onHeaderSection m fields)
  unfold Stream.onHeaders
  dsimp only
  split
  · exact ⟨hsection.waiting, hsection.error, hsection.gone, hsection.writer⟩
  · apply Waits.onResponse
    · exact ⟨hsection.waiting, hsection.error, hsection.gone, hsection.writer⟩
    · exact hdestroyed

/-- Who waits gets the response that arrives. -/
theorem onHeaders_progress (hm : Waits m) (hopen : m.closed = false) (fields : Fields) :
    Answered .success m.desk (m.onHeaders fields).desk [] := by
  have hvoid : ¬m.desk.Void := fun hvoid => nomatch hopen.symm.trans hvoid.1
  have hunasked := unasked_onHeaderSection m fields
  have hsection := asks_waits.unasked m _ hm hunasked
  unfold Stream.onHeaders
  dsimp only
  -- trailers for version 1, or a response
  split
  · refine .silent hunasked.replies ?_ (fun h => hunasked.delivered.symm.trans h)
      fun h => absurd h hvoid
    show (m.onHeaderSection fields).rs.responseHandler.toList = _
    rw [hunasked.handler, List.append_nil]
    rfl
  · refine onResponse_progress ⟨hsection.waiting, hsection.error, hsection.gone, hsection.writer⟩
      hunasked.replies hunasked.handler hunasked.delivered hvoid

/-- Nobody is left at a stream that is destroyed. -/
theorem destroy_asking (m : Stream) :
    m.destroy.rs = { m.rs with responseHandler := none } ∧
      m.destroy.writerHandle = m.detach.writerHandle ∧ m.destroy.destroyed = true := by
  have hnone : m.rs.responseHandler = none → m.rs = { m.rs with responseHandler := none } := by
    intro h
    rw [← h]
  cases hr : m.rs.responseHandler <;> cases hh : m.rx.readHandler <;>
    cases hw : m.tx.writeHandler <;>
    simp [destroy, detach, completeResponse, completeRead, completeWrite, call, hr, hh, hw] <;>
    exact hnone hr

/-- Nobody waits at a stream that is gone. -/
theorem Waits.destroy (hm : Waits m) : Waits m.destroy := by
  obtain ⟨hrs, hhandle, _⟩ := destroy_asking m
  have hgone : m.destroy.writerHandle ≠ .attached := by
    rw [hhandle]
    show (if m.writer then _ else _) ≠ _
    split
    · exact fun h => nomatch h
    · rename_i hwriter
      exact fun h => hwriter (hm.writer h)
  refine ⟨fun h => absurd ?_ h, ?_, fun _ => hgone, fun h => absurd h hgone⟩
  · rw [hrs]
  · rw [hrs]
    exact hm.error

/-- The destructor has errors for everybody. -/
theorem Fails.destroy {d : Desk Handler ErrorCode (Nat × Fields)} {callers : List Handler}
    (hm : Fails d callers m) : Fails d callers m.destroy := by
  obtain ⟨htrace, _⟩ := destroy_spec m
  obtain ⟨_, _, hclosed, _⟩ := destroy_gone m
  obtain ⟨hrs, _⟩ := destroy_asking m
  have hcalls : m.lastCalls.filterMap replyOf =
      m.rs.responseHandler.toList.map fun h => ⟨h, .canceled, none⟩ := by
    unfold lastCalls
    cases m.rs.responseHandler <;> cases m.rx.readHandler <;> cases m.tx.writeHandler <;> rfl
  have hreplies := replies_append htrace hcalls
  refine ⟨?_, hm.errors.trans ⟨_, hreplies, ?_⟩, ?_, ?_⟩
  · rw [← hm.callers, Desk.callers, hreplies, List.map_append, List.map_map]
    show _ ++ m.rs.responseHandler.toList.map id ++ m.destroy.rs.responseHandler.toList = _
    rw [hrs, List.map_id, Option.toList_none, List.append_nil]
    rfl
  · intro r hr
    obtain ⟨h, _, rfl⟩ := List.mem_map.mp hr
    exact fun h => by cases h
  · rw [hrs]
    exact hm.handed
  · intro hvoid
    obtain ⟨hc, harrived⟩ := hm.void hvoid
    refine ⟨hclosed.trans hc, ?_⟩
    show (m.destroy.rs.hasResponse && m.destroy.rs.responseError.isNone) = false
    rw [hrs]
    exact harrived

/-! ### Who is left -/

/-- A stream that is closed without a response is not kept for one. -/
structure Attended (m : Stream) : Prop where
  asked : m.reader = true → m.rs.responseDelivered = true
  kept : m.closed = true → m.registered = true → m.rs.responseDelivered = false →
    m.pending = false → .closing ∈ m.frames

/-- The loop of `call_read_handler()` keeps nobody waiting who was not. -/
theorem passes_attended : Passes Attended where
  buffer m data hm := by
    unfold buffer
    split <;> exact ⟨hm.asked, hm.kept⟩
  enter m _ hm := ⟨hm.asked, hm.kept⟩
  advance m hm := by
    unfold advance
    split <;> exact ⟨hm.asked, hm.kept⟩
  credit m hm := by
    unfold credit
    split <;> exact ⟨hm.asked, hm.kept⟩
  park m hm := ⟨hm.asked, hm.kept⟩
  leave m hm := ⟨hm.asked, hm.kept⟩
  deliver m h _ _ hm := ⟨hm.asked, fun hc hr hd hp => .tail _ (hm.kept hc hr hd hp)⟩
  failRead m h ec f _ _ _ hm := ⟨hm.asked, fun hc hr hd hp => .tail _ (hm.kept hc hr hd hp)⟩

/-- A response that fails is delivered. -/
theorem Attended.failResponse (hm : Attended m) : Attended m.failResponse := by
  unfold Stream.failResponse
  split
  · exact ⟨hm.asked, fun hc hr hd hp => .tail _ (hm.kept hc hr hd hp)⟩
  · exact ⟨hm.asked, hm.kept⟩

/-- `close_stream()` keeps a stream for its response only if there is one. -/
theorem attended_keepOrErase (hasked : m.reader = true → m.rs.responseDelivered = true) :
    Attended m.keepOrErase := by
  unfold keepOrErase
  -- kept for the response, kept for the rest of the body, or erased
  split
  · rename_i hpending
    have hused : Attended m.useIterator :=
      ⟨hasked, fun _ _ _ hp => absurd (hpending.symm.trans hp) (by decide)⟩
    exact passes_attended.callReadHandlerThen (fun _ h => h) hused []
  · split
    · rename_i hunread
      refine ⟨hasked, fun _ _ hd _ => ?_⟩
      simp only [Bool.and_eq_true] at hunread
      exact nomatch (hasked hunread.1.1).symm.trans hd
    · unfold erase
      dsimp only
      split
      · exact ⟨hasked, fun _ hr => nomatch hr⟩
      · exact Attended.failResponse ⟨hasked, fun _ hr => nomatch hr⟩

/-- **`close_stream()`** leaves no stream in the map that would keep somebody waiting. -/
theorem Attended.closeStream (hm : Attended m) : Attended m.closeStream := by
  unfold Stream.closeStream
  split
  · exact hm
  · dsimp only
    split
    · exact ⟨hm.asked, fun _ _ _ _ => .head _⟩
    · exact attended_keepOrErase hm.asked

/-- So it does when it has been deferred, ... -/
theorem Attended.finishDeferredClose (hm : Attended m) : Attended m.finishDeferredClose := by
  unfold Stream.finishDeferredClose
  split
  · exact Attended.closeStream ⟨hm.asked, hm.kept⟩
  · exact hm

/-- ... at the end of `call_read_handler()`, ... -/
theorem Attended.callReadHandler (hm : Attended m) (data : List UInt8) :
    Attended (m.callReadHandler data) :=
  passes_attended.callReadHandlerThen (fun _ h => h.finishDeferredClose) hm data

/-- ... and in a call that goes on. -/
theorem Attended.ret (hm : Attended m) {f : Frame} {frames : List Frame}
    (hf : m.frames = f :: frames) :
    Attended ({ m with frames := frames }.ret f) := by
  have hrest : f ≠ .closing → Attended { m with frames := frames } := by
    intro hne
    refine ⟨hm.asked, fun hc hr hd hp => ?_⟩
    have hmem := hm.kept hc hr hd hp
    rw [hf] at hmem
    exact (List.mem_cons.mp hmem).resolve_left hne.symm
  cases f with
  | data =>
    exact passes_attended.readStep (fun _ h => h.finishDeferredClose)
      (passes_attended.advance _ (hrest nofun)) (readLoopThen_step _ _)
  | eof =>
    show Attended (eofLoopThen _ _)
    unfold eofLoopThen
    split
    · exact passes_attended.failRead _ _ _ _ ‹_› (.inl rfl) rfl (hrest nofun)
    · exact (passes_attended.leave _ (hrest nofun)).finishDeferredClose
  | truncated => exact (passes_attended.leave _ (hrest nofun)).finishDeferredClose
  | closing => exact attended_keepOrErase hm.asked
  | erasing => exact (hrest nofun).failResponse
  | erased => exact ⟨(hrest nofun).asked, (hrest nofun).kept⟩
  | failed =>
    show Attended (if m.closed then _ else _)
    split
    · exact (hrest nofun).closeStream
    · exact hrest nofun
  | done => exact hrest nofun

theorem Attended.deliverResponse (hm : Attended m) : Attended m.deliverResponse := by
  unfold Stream.deliverResponse
  split
  · exact hm
  · split
    · exact hm
    · dsimp only
      split
      · exact ⟨fun _ => rfl, fun _ _ hd => nomatch hd⟩
      · exact ⟨fun _ => rfl, fun _ _ hd => nomatch hd⟩

/-- An open stream is not kept for anything. -/
theorem attended_open (hopen : m.closed = false)
    (hasked : m.reader = true → m.rs.responseDelivered = true) : Attended m :=
  ⟨hasked, fun hc => nomatch hopen.symm.trans hc⟩

theorem Attended.onResponse (hm : Attended m) (hopen : m.closed = false) :
    Attended m.onResponse := by
  unfold Stream.onResponse
  split
  · apply Attended.deliverResponse
    exact attended_open hopen hm.asked
  · apply Attended.deliverResponse
    exact attended_open hopen hm.asked

theorem Attended.onHeaderSection (hm : Attended m) (hopen : m.closed = false) (fields : Fields) :
    Attended (m.onHeaderSection fields) := by
  refine attended_open hopen ?_
  rw [(unasked_onHeaderSection m fields).delivered]
  exact hm.asked

theorem Attended.maybeCloseStream (hm : Attended m) : Attended m.maybeCloseStream := by
  unfold Stream.maybeCloseStream
  split_ifs
  · exact hm
  · exact hm
  · exact ⟨hm.asked, hm.kept⟩
  · exact hm

/-- **Step lemma**: every step preserves `Attended`. -/
theorem Attended.step (hm : Attended m) (h : step m a = some t) : Attended t := by
  cases a with
  | asyncWrite _ _ _ | cancelWrite | producer _ | dataReader _ | writeOffset _ =>
    obtain ⟨_, _, _, _, _, frames, _, rfl, hframes, _⟩ := outward_step rfl h
    refine ⟨hm.asked, fun hc hr hd hp => ?_⟩
    have hmem := hm.kept hc hr hd hp
    show .closing ∈ frames
    rcases hframes with rfl | rfl
    · exact hmem
    · exact .tail _ hmem
  | asyncReadSome h' size =>
    obtain ⟨_, h⟩ := Option.ite_none_right_eq_some.mp h
    rw [← Option.some.inj h, asyncReadSome]
    split
    · exact ⟨hm.asked, hm.kept⟩
    · split
      · exact ⟨hm.asked, hm.kept⟩
      · apply Attended.callReadHandler
        exact ⟨hm.asked, hm.kept⟩
  | cancelRead =>
    obtain ⟨_, h⟩ := Option.ite_none_right_eq_some.mp h
    rw [← Option.some.inj h, cancelRead]
    split
    · exact ⟨hm.asked, hm.kept⟩
    · exact hm
  | asyncGetResponse h' =>
    obtain ⟨_, h⟩ := Option.ite_none_right_eq_some.mp h
    rw [← Option.some.inj h, asyncGetResponse]
    split
    · exact ⟨hm.asked, hm.kept⟩
    · split
      · exact ⟨hm.asked, hm.kept⟩
      · exact Attended.deliverResponse ⟨hm.asked, hm.kept⟩
  | cancelResponse =>
    obtain ⟨_, h⟩ := Option.ite_none_left_eq_some.mp h
    rw [← Option.some.inj h, cancelResponse]
    split
    · exact ⟨hm.asked, hm.kept⟩
    · exact hm
  | dropReader =>
    obtain ⟨_, h⟩ := Option.ite_none_right_eq_some.mp h
    rw [← Option.some.inj h, dropReader]
    split
    · apply Attended.finishDeferredClose
      apply Attended.maybeCloseStream
      dsimp only
      split
      · exact ⟨(fun h => by cases h), hm.kept⟩
      · exact ⟨(fun h => by cases h), hm.kept⟩
    · exact ⟨hm.asked, hm.kept⟩
  | dropWriter =>
    obtain ⟨_, h⟩ := Option.ite_none_right_eq_some.mp h
    rw [← Option.some.inj h, dropWriter]
    split
    · exact Attended.maybeCloseStream ⟨hm.asked, hm.kept⟩
    · exact ⟨hm.asked, hm.kept⟩
  | ret =>
    rw [Stream.step] at h
    split at h
    · cases h
    · rename_i hf
      rw [← Option.some.inj h]
      exact hm.ret hf
  | onHeaders fields =>
    obtain ⟨hguard, h⟩ := Option.ite_none_right_eq_some.mp h
    simp only [open_, Bool.and_eq_true, Bool.not_eq_true'] at hguard
    have hopen : m.closed = false := hguard.1.1.1.2
    have hsection := hm.onHeaderSection hopen fields
    rw [← Option.some.inj h, onHeaders]
    dsimp only
    split
    · exact ⟨hsection.asked, hsection.kept⟩
    · apply Attended.onResponse
      · exact ⟨hsection.asked, hsection.kept⟩
      · exact hopen
  | onTrailers fields =>
    obtain ⟨hguard, h⟩ := Option.ite_none_right_eq_some.mp h
    simp only [open_, Bool.and_eq_true, Bool.not_eq_true'] at hguard
    rw [← Option.some.inj h]
    exact hm.onHeaderSection hguard.1.1.2 fields
  | onData data =>
    obtain ⟨_, h⟩ := Option.ite_none_right_eq_some.mp h
    rw [← Option.some.inj h]
    apply Attended.callReadHandler
    exact ⟨hm.asked, hm.kept⟩
  | onEof =>
    obtain ⟨_, h⟩ := Option.ite_none_right_eq_some.mp h
    rw [← Option.some.inj h]
    apply Attended.callReadHandler
    exact ⟨hm.asked, hm.kept⟩
  | streamClose =>
    obtain ⟨_, h⟩ := Option.ite_none_right_eq_some.mp h
    rw [← Option.some.inj h]
    exact hm.closeStream
  | destroy =>
    obtain ⟨_, h⟩ := Option.ite_none_right_eq_some.mp h
    rw [← Option.some.inj h]
    obtain ⟨_, _, _, hreader, _⟩ := destroy_spec m
    obtain ⟨hgone, _⟩ := destroy_gone m
    exact ⟨(fun h => by cases hreader.symm.trans h), fun _ hr => by cases hgone.symm.trans hr⟩

/-! ### Those who ask -/

/-- **Step lemma**: whoever waits after a step has a reason to. -/
theorem Waits.step (hm : Waits m) (h : Stream.step m a = some t) : Waits t := by
  refine asks_waits.step ?_ ?_ ?_ hm h
  · exact fun h' _ hheld _ => hm.asyncGetResponse hheld h'
  · exact fun fields _ _ hdestroyed => hm.onHeaders hdestroyed fields
  · exact fun _ => hm.destroy

/-- **Step lemma**: who asks, or has waited, is answered as soon as there is an answer. -/
theorem Waits.progress (hm : Waits m) (h : Stream.step m a = some t) :
    Answered .success m.desk t.desk (asksFor a) := by
  have hnone : Fails m.desk m.desk.callers m := ⟨rfl, .refl, id, id⟩
  cases a with
  | asyncGetResponse h' =>
    obtain ⟨hguard, h⟩ := Option.ite_none_right_eq_some.mp h
    rw [← Option.some.inj h]
    exact asyncGetResponse_progress hm.error hguard.2.2 h'
  | onHeaders fields =>
    obtain ⟨hguard, h⟩ := Option.ite_none_right_eq_some.mp h
    simp only [open_, Bool.and_eq_true, Bool.not_eq_true'] at hguard
    rw [← Option.some.inj h]
    exact onHeaders_progress hm hguard.1.1.1.2 fields
  | _ =>
    have hfails : Fails m.desk m.desk.callers t := by
      refine (asks_fails m.desk m.desk.callers).step ?_ ?_ (fun _ => hnone.destroy) hnone h
      · exact fun _ ha => by cases ha
      · exact fun _ ha => by cases ha
    refine .fails ?_ hfails.errors hfails.handed hfails.void
    rw [hfails.callers]
    exact (List.append_nil _).symm

end Stream

end AnyHttp.H2
