import AnyHttp.H3.Equiv.Interim
import AnyHttp.Lib.OneShot

/-!
# `async_get_response()` over HTTP/3

A response is there or not when it is asked for, so that it is handed out as soon as both has
happened. A call waits only as long as the stream is open (`Asked`), and a stream that is closed has
a reason to tell (`failureEc`).

* `get_response_rules`: what each step of a stream does to those who ask for its response.
-/

namespace AnyHttp.H3

open Lib
open H2 (Fields)

namespace ClientStream

variable {s t : ClientStream} {a : Action}

def replyOf : Call → Option (Reply Handler ErrorCode (Nat × Fields))
  | .completeResponse h ec response => some ⟨h, ec, response⟩
  | .resetStream => none

/-- What there is to see for those who ask. -/
def desk (s : ClientStream) : Desk Handler ErrorCode (Nat × Fields) where
  replies := s.trace.filterMap replyOf
  waiting := s.responseHandler
  attached := !s.destroyed
  arrived := s.headersReceived
  handed := s.responseDelivered
  closed := s.closed
  leaving := false
  destroyed := s.destroyed

/-- Who asks. -/
def asks : Action → List Handler
  | .asyncGetResponse h => [h]
  | _ => []

/-- Whoever waits has a reason to, and a stream that is closed has a reason to fail. -/
structure Asked (s : ClientStream) : Prop where
  waiting : s.responseHandler ≠ none → s.headersReceived = false ∧ s.responseDelivered = false ∧
    s.closed = false ∧ s.destroyed = false
  reason : s.closed = true → s.failureEc ≠ .success

/-! ### Answers -/

/-- What a step does for those who ask, and what they can rely on afterwards. -/
structure Serves (s t : ClientStream) (hs : List Handler) : Prop where
  asked : Asked t
  progress : Answered .success s.desk t.desk hs

theorem replies_append {cs : List Call} {rs : List (Reply Handler ErrorCode (Nat × Fields))}
    (htrace : t.trace = s.trace ++ cs) (hcs : cs.filterMap replyOf = rs) :
    t.desk.replies = s.desk.replies ++ rs := by
  show t.trace.filterMap replyOf = s.trace.filterMap replyOf ++ rs
  rw [htrace, List.filterMap_append, hcs]

/-- Nobody is answered. -/
theorem Serves.silent {cs : List Call} {hs : List Handler} (ht : Asked t)
    (htrace : t.trace = s.trace ++ cs) (hcs : cs.filterMap replyOf = [])
    (hwaiting : t.responseHandler.toList = s.responseHandler.toList ++ hs)
    (hdelivered : t.responseDelivered = s.responseDelivered) (hvoid : s.desk.Void → t.desk.Void) :
    Serves s t hs := by
  refine ⟨ht, .silent ?_ hwaiting (fun h => hdelivered.symm.trans h) hvoid⟩
  rw [replies_append htrace hcs, List.append_nil]

/-- The one who waits, or has just called, is told an error. -/
theorem Serves.fail {cs : List Call} {h : Handler} {ec : ErrorCode} {hs : List Handler}
    (ht : Asked t) (htrace : t.trace = s.trace ++ cs)
    (hcs : cs.filterMap replyOf = [⟨h, ec, none⟩]) (hec : ec ≠ .success)
    (hcaller : s.responseHandler.toList ++ hs = [h]) (hidle : t.responseHandler = none)
    (hdelivered : t.responseDelivered = false → s.responseDelivered = false)
    (hvoid : s.desk.Void → t.desk.Void) : Serves s t hs :=
  ⟨ht, .fail (replies_append htrace hcs) hec hcaller hidle hdelivered hvoid⟩

/-- ... or gets the response. -/
theorem Serves.hand {h : Handler} {response : Nat × Fields} {hs : List Handler} (ht : Asked t)
    (htrace : t.trace = s.trace ++ [.completeResponse h .success (some response)])
    (hcaller : s.responseHandler.toList ++ hs = [h]) (hidle : t.responseHandler = none)
    (hnot : s.responseDelivered = false) (hdelivered : t.responseDelivered = true)
    (hvoid : ¬s.desk.Void) : Serves s t hs :=
  ⟨ht, .hand (replies_append htrace rfl) hcaller hidle hnot hdelivered hvoid⟩

/-- Nobody waits. -/
theorem asked_idle (hidle : t.responseHandler = none)
    (hreason : t.closed = true → t.failureEc ≠ .success) : Asked t :=
  ⟨fun h => absurd hidle h, hreason⟩

/-! ### Delivering -/

theorem deliverFailure_of_received (h : s.headersReceived = true) : s.deliverFailure = s := by
  unfold deliverFailure
  rw [h, Bool.true_or, if_pos rfl]

theorem deliverFailure_of_idle (h : s.responseHandler = none) : s.deliverFailure = s := by
  unfold deliverFailure
  split
  · rfl
  · rw [h]

theorem deliverFailure_of_waiting {h : Handler} (hreceived : s.headersReceived = false)
    (hdelivered : s.responseDelivered = false) (hh : s.responseHandler = some h) :
    s.deliverFailure =
      { s with responseDelivered := true }.completeResponse h s.failureEc none := by
  unfold deliverFailure
  rw [hreceived, hdelivered, Bool.false_or, if_neg Bool.false_ne_true, hh]

theorem deliverResponse_of_waiting {h : Handler} (hreceived : s.headersReceived = true)
    (hh : s.responseHandler = some h) :
    s.deliverResponse = { s with responseDelivered := true }.completeResponse h .success
      (some (s.statusCode, s.fields)) := by
  unfold deliverResponse
  rw [if_pos hreceived, hh]

theorem deliverResponse_of_not_received (h : s.headersReceived = false) :
    s.deliverResponse = s := by
  unfold deliverResponse
  rw [if_neg (by rw [h]; exact Bool.false_ne_true)]

theorem deliverResponse_of_idle (h : s.responseHandler = none) : s.deliverResponse = s := by
  unfold deliverResponse
  split
  · rw [h]
  · rfl

/-! ### Steps -/

theorem Asked.asyncGetResponse (hs : Asked s) (hnone : s.responseHandler = none) (h : Handler) :
    Serves s (s.asyncGetResponse h) [h] := by
  have hcaller : s.responseHandler.toList ++ [h] = [h] := by
    rw [hnone]
    rfl
  unfold ClientStream.asyncGetResponse
  split
  · exact .fail (asked_idle hnone hs.reason) rfl rfl (by decide) hcaller hnone id id
  · rename_i hdestroyed
    split
    · exact .fail (asked_idle hnone hs.reason) rfl rfl (by decide) hcaller hnone id id
    · rename_i hdelivered
      have hdelivered : s.responseDelivered = false := Bool.eq_false_of_not_eq_true hdelivered
      dsimp only
      by_cases hreceived : s.headersReceived = true
      · -- the response is handed out, and there is nothing left to fail
        rw [deliverResponse_of_waiting (s := { s with responseHandler := some h }) hreceived rfl]
        have hhand : Serves s ({ s with responseHandler := some h, responseDelivered := true
            }.completeResponse h .success (some (s.statusCode, s.fields))) [h] := by
          refine .hand (asked_idle rfl hs.reason) rfl hcaller rfl hdelivered rfl fun hvoid => ?_
          exact nomatch hreceived.symm.trans hvoid.2
        split
        · rw [deliverFailure_of_received (by exact hreceived)]
          exact hhand
        · exact hhand
      · have hreceived : s.headersReceived = false := Bool.eq_false_of_not_eq_true hreceived
        rw [deliverResponse_of_not_received (s := { s with responseHandler := some h }) hreceived]
        split
        · rename_i hclosed
          rw [deliverFailure_of_waiting (s := { s with responseHandler := some h }) hreceived
            hdelivered rfl]
          exact .fail (asked_idle rfl hs.reason) rfl rfl (hs.reason hclosed) hcaller rfl
            (fun h => nomatch h) id
        · rename_i hopen
          refine .silent ⟨fun _ => ⟨hreceived, hdelivered, Bool.eq_false_of_not_eq_true hopen,
            Bool.eq_false_of_not_eq_true hdestroyed⟩, hs.reason⟩ (List.append_nil _).symm rfl ?_
            rfl id
          rw [hnone]
          rfl

theorem Asked.cancelResponse (hs : Asked s) : Serves s s.cancelResponse [] := by
  unfold ClientStream.cancelResponse
  split
  · rename_i h hh
    refine .fail (asked_idle rfl hs.reason) rfl rfl (by decide) ?_ rfl id id
    rw [hh]
    rfl
  · exact .silent hs (List.append_nil _).symm rfl (List.append_nil _).symm rfl id

/-- The end of a header section, of a stream that is open. -/
theorem Asked.onEndHeaders (hs : Asked s) (hopen : s.closed = false) :
    Serves s s.onEndHeaders [] := by
  have hvoid : ¬s.desk.Void := fun hvoid => nomatch hopen.symm.trans hvoid.1
  have hreason : ∀ ec, s.closed = true → ec ≠ ErrorCode.success :=
    fun _ hclosed => nomatch hopen.symm.trans hclosed
  unfold ClientStream.onEndHeaders onHeadersComplete
  obtain hh | ⟨h, hh⟩ := Option.eq_none_or_eq_some s.responseHandler
  · split
    · rw [deliverFailure_of_idle (by exact hh)]
      exact .silent (asked_idle hh (hreason _)) rfl rfl (by rw [hh]; rfl) rfl
        fun h => absurd h hvoid
    · rw [deliverResponse_of_idle (by exact hh)]
      exact .silent (asked_idle hh (hreason _)) (List.append_nil _).symm rfl (by rw [hh]; rfl) rfl
        fun h => absurd h hvoid
  · have hdelivered : s.responseDelivered = false := (hs.waiting (by rw [hh]; exact nofun)).2.1
    have hcaller : s.responseHandler.toList ++ [] = [h] := by
      rw [hh]
      rfl
    split
    · rw [deliverFailure_of_waiting (h := h) rfl (by exact hdelivered) (by exact hh)]
      have htrace : s.trace ++ [.resetStream] ++ [.completeResponse h .headerLimit none] =
          s.trace ++ [.resetStream, .completeResponse h .headerLimit none] :=
        List.append_assoc _ _ _
      exact .fail (asked_idle rfl (hreason _)) htrace rfl (by decide) hcaller rfl
        (fun h => nomatch h) fun h => absurd h hvoid
    · rw [deliverResponse_of_waiting (h := h) rfl (by exact hh)]
      exact .hand (asked_idle rfl (hreason _)) rfl hcaller rfl hdelivered rfl hvoid

theorem Asked.fail (hs : Asked s) (ec : ErrorCode) : Serves s (s.fail ec) [] := by
  set reason := if s.failureEc ≠ .success then s.failureEc
    else if ec = .success then H2.endOfStream else ec with hdef
  have hreason : reason ≠ .success := by
    rw [hdef]
    split_ifs with h₁ h₂
    · exact h₁
    · decide
    · exact h₂
  have heq : s.fail ec = deliverFailure { s with closed := true, failureEc := reason } := rfl
  rw [heq]
  have hvoid : s.desk.Void → s.headersReceived = false := fun hvoid => hvoid.2
  obtain hh | ⟨h, hh⟩ := Option.eq_none_or_eq_some s.responseHandler
  · rw [deliverFailure_of_idle (by exact hh)]
    exact .silent (asked_idle hh fun _ => hreason) (List.append_nil _).symm rfl
      (List.append_nil _).symm rfl fun h => ⟨rfl, hvoid h⟩
  · obtain ⟨hreceived, hdelivered, _⟩ := hs.waiting (by rw [hh]; exact nofun)
    rw [deliverFailure_of_waiting (h := h) (by exact hreceived) (by exact hdelivered) (by exact hh)]
    refine .fail (asked_idle rfl fun _ => hreason) rfl rfl hreason ?_ rfl (fun h => nomatch h)
      fun h => ⟨rfl, hvoid h⟩
    rw [hh]
    rfl

theorem Asked.destroy (hs : Asked s) : Serves s s.destroy [] := by
  unfold ClientStream.destroy
  dsimp only
  split
  · rename_i h hh
    obtain ⟨_, hdelivered, _⟩ := hs.waiting (by rw [hh]; exact nofun)
    rw [if_neg (by rw [hdelivered]; exact Bool.false_ne_true)]
    refine .fail (asked_idle rfl hs.reason) rfl rfl (by decide) ?_ rfl id id
    rw [hh]
    rfl
  · rename_i hh
    exact .silent (asked_idle hh hs.reason) (List.append_nil _).symm rfl (List.append_nil _).symm
      rfl id

/-- **Step lemma**: every step serves whoever it makes ask. -/
theorem Asked.step (hs : Asked s) (h : step s a = some t) : Serves s t (asks a) := by
  cases a with
  | asyncGetResponse h' =>
    obtain ⟨hnone, h⟩ := Option.ite_none_right_eq_some.mp h
    rw [← Option.some.inj h]
    exact hs.asyncGetResponse hnone h'
  | cancelResponse =>
    obtain ⟨_, h⟩ := Option.ite_none_left_eq_some.mp h
    rw [← Option.some.inj h]
    exact hs.cancelResponse
  | onHeaders fields =>
    obtain ⟨hguard, h⟩ := Option.ite_none_left_eq_some.mp h
    rw [Bool.or_eq_true, not_or] at hguard
    have hopen : s.closed = false := Bool.eq_false_of_not_eq_true hguard.1
    rw [← Option.some.inj h, onHeaders, foldl_onHeader_rest]
    -- the fields themselves are nothing to those who ask
    have hserves := Asked.onEndHeaders (s := { s with
      statusCode := (fields.foldl onHeader s).statusCode
      contentLength := (fields.foldl onHeader s).contentLength
      fields := (fields.foldl onHeader s).fields
      headerSize := (fields.foldl onHeader s).headerSize
      headerLimitExceeded := (fields.foldl onHeader s).headerLimitExceeded })
      ⟨hs.waiting, hs.reason⟩ hopen
    exact ⟨hserves.asked, hserves.progress⟩
  | fail ec =>
    obtain ⟨_, h⟩ := Option.ite_none_left_eq_some.mp h
    rw [← Option.some.inj h]
    exact hs.fail ec
  | destroy =>
    obtain ⟨_, h⟩ := Option.ite_none_left_eq_some.mp h
    rw [← Option.some.inj h]
    exact hs.destroy

end ClientStream

end AnyHttp.H3
