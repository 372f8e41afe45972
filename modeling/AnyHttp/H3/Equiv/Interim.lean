import AnyHttp.H3.Client
import AnyHttp.H2.Equiv.Interim

/-!
# Interim responses over HTTP/3

As over HTTP/2, a client takes the first header section for the response, which is that of the final
one as long as there is no interim response before it (`response_is_final`).
-/

namespace AnyHttp.H3

open Lib
open H2 (Fields Answer own headerFieldSize)

/-- The status code in a header section. -/
def statusOf (fields : Fields) : Option Nat :=
  (fields.filterMap fun f => if f.1 = ":status".toList then fromChars 32 f.2 else none).getLast?

/-- A header section arrives. -/
def isHeaders : Action → Bool
  | .onHeaders _ => true
  | _ => false

/-- The header sections of an answer, without the trailers. -/
def script (x : Answer) : List Action := x.interim.map .onHeaders ++ [.onHeaders x.final]

/-- A response is delivered. -/
def isResponse : Call → Bool
  | .completeResponse _ _ (some _) => true
  | _ => false

namespace ClientStream

variable {s t : ClientStream} {a : Action} {x : Answer}

def responses (s : ClientStream) : List Call := s.trace.filter isResponse

/-- Whoever asks for the response gets the final one, with its status code and its own header
fields, nobody gets it twice, or waits when it is there. -/
structure ResponseIsFinal (x : Answer) (s : ClientStream) (script : List Action) : Prop where
  right : ∀ h ec status fields, .completeResponse h ec (some (status, fields)) ∈ s.trace →
    ec = .success ∧ status = (statusOf x.final).getD 0 ∧ fields = own x.final
  once : s.responses.length ≤ 1
  prompt : .onHeaders x.final ∉ script → s.headerLimitExceeded = false → s.responseHandler = none

/-! ### Header sections -/

/-- A field is dropped, as the limit is exceeded, or stored. -/
theorem onHeader_cases (s : ClientStream) (f : List Char × List Char) :
    (∃ n, s.onHeader f = { s with headerSize := n, headerLimitExceeded := true }) ∨
      s.headerLimitExceeded = false ∧ ∃ n len, s.onHeader f =
        { s with
          headerSize := n
          contentLength := len
          statusCode :=
            (if f.1 = ":status".toList then fromChars 32 f.2 else none).getD s.statusCode
          fields := if f.1.head? = some ':' then s.fields else s.fields ++ [f] } := by
  unfold onHeader
  split
  · rename_i hx
    refine .inl ⟨s.headerSize, ?_⟩
    rw [← hx]
  · rename_i hx
    dsimp only
    split
    · exact .inl ⟨_, rfl⟩
    · refine .inr ⟨Bool.eq_false_of_not_eq_true hx, ?_⟩
      by_cases hpseudo : f.1.head? = some ':'
      · rw [if_pos hpseudo, if_pos hpseudo]
        refine ⟨s.headerSize + headerFieldSize f, s.contentLength, ?_⟩
        unfold onPseudoHeader
        split <;> rfl
      · have hname : f.1 ≠ ":status".toList := by
          intro h
          rw [h] at hpseudo
          exact hpseudo rfl
        rw [if_neg hpseudo, if_neg hpseudo, if_neg hname]
        exact ⟨_, _, rfl⟩

theorem foldl_onHeader_exceeded (fields : Fields) (h : s.headerLimitExceeded = true) :
    fields.foldl onHeader s = s := by
  induction fields with
  | nil => rfl
  | cons f fields ih => rw [List.foldl_cons, onHeader, if_pos h, ih]

/-- What a header section does not touch. -/
theorem foldl_onHeader_rest (fields : Fields) (s : ClientStream) :
    fields.foldl onHeader s =
      { s with
        statusCode := (fields.foldl onHeader s).statusCode
        contentLength := (fields.foldl onHeader s).contentLength
        fields := (fields.foldl onHeader s).fields
        headerSize := (fields.foldl onHeader s).headerSize
        headerLimitExceeded := (fields.foldl onHeader s).headerLimitExceeded } := by
  induction fields generalizing s with
  | nil => rfl
  | cons f fields ih =>
    rw [List.foldl_cons, ih]
    rcases onHeader_cases s f with ⟨n, heq⟩ | ⟨_, n, len, heq⟩
    · rw [heq]
    · rw [heq]

/-- A header section that is stored as a whole. -/
theorem foldl_onHeader_stored (fields : Fields) (s : ClientStream)
    (h : (fields.foldl onHeader s).headerLimitExceeded = false) :
    (fields.foldl onHeader s).statusCode = (statusOf fields).getD s.statusCode ∧
      (fields.foldl onHeader s).fields = s.fields ++ own fields := by
  induction fields generalizing s with
  | nil => exact ⟨rfl, (List.append_nil _).symm⟩
  | cons f fields ih =>
    rw [List.foldl_cons] at h ⊢
    rcases onHeader_cases s f with ⟨n, heq⟩ | ⟨_, n, len, heq⟩
    · rw [heq, foldl_onHeader_exceeded fields rfl] at h
      exact nomatch h
    · obtain ⟨hstatus, hfields⟩ := ih (s.onHeader f) h
      rw [hstatus, hfields, heq]
      dsimp only
      constructor
      · unfold statusOf
        rw [List.filterMap_cons]
        cases hcode : (if f.1 = ":status".toList then fromChars 32 f.2 else none) with
        | none => rfl
        | some code =>
          dsimp only
          rw [List.getLast?_cons]
          cases (List.filterMap _ fields).getLast? <;> rfl
      · unfold own
        by_cases hf : f.1.head? = some ':'
        · rw [if_pos hf, List.filter_cons, if_neg fun h => absurd hf (of_decide_eq_true h)]
        · rw [if_neg hf, List.filter_cons, if_pos (decide_eq_true hf), List.append_assoc]
          rfl

/-! ### The invariant -/

/-- What is delivered is the final response. -/
def DeliversFinal (x : Answer) : Call → Prop
  | .completeResponse _ ec (some (status, fields)) =>
    ec = .success ∧ status = (statusOf x.final).getD 0 ∧ fields = own x.final
  | _ => True

/-- Nothing has arrived. -/
structure Awaiting (s : ClientStream) : Prop where
  headersReceived : s.headersReceived = false
  statusCode : s.statusCode = 0
  fields : s.fields = []
  responses : s.responses = []

/-- The final response has arrived. -/
structure Arrived (x : Answer) (s : ClientStream) : Prop where
  received : s.headerLimitExceeded = false → s.headersReceived = true
  idle : s.headersReceived = true → s.responseHandler = none
  content : s.headersReceived = true →
    s.statusCode = (statusOf x.final).getD 0 ∧ s.fields = own x.final
  undelivered : s.responseDelivered = false → s.responses = []
  once : s.responses.length ≤ 1
  right : ∀ c ∈ s.responses, DeliversFinal x c

/-- How far the answer has got. -/
inductive Phase (x : Answer) : ClientStream → List Action → Prop
  | awaiting {s : ClientStream} : Awaiting s → Phase x s [.onHeaders x.final]
  | arrived {s : ClientStream} : Arrived x s → Phase x s []

/-- A call that does not deliver a response. -/
theorem responses_concat {c : Call} (htrace : t.trace = s.trace ++ [c])
    (hc : isResponse c = false) :
    t.responses = s.responses := by
  rw [responses, htrace, List.filter_append, List.filter_cons_of_neg (by simp [hc])]
  simp [responses]

/-- Nothing happens to the response, but that the one who waits for it may be told that there is
none. -/
structure Same (s t : ClientStream) : Prop where
  headersReceived : t.headersReceived = s.headersReceived
  exceeded : t.headerLimitExceeded = s.headerLimitExceeded
  statusCode : t.statusCode = s.statusCode
  fields : t.fields = s.fields
  handler : s.responseHandler = none → t.responseHandler = none
  delivered : t.responseDelivered = false → s.responseDelivered = false
  responses : t.responses = s.responses

theorem Awaiting.same (hs : Awaiting s) (h : Same s t) : Awaiting t :=
  ⟨h.headersReceived.trans hs.headersReceived, h.statusCode.trans hs.statusCode,
    h.fields.trans hs.fields, h.responses.trans hs.responses⟩

theorem Arrived.same (hs : Arrived x s) (h : Same s t) : Arrived x t := by
  refine ⟨?_, ?_, ?_, ?_, ?_, ?_⟩
  · rw [h.exceeded, h.headersReceived]
    exact hs.received
  · rw [h.headersReceived]
    exact fun hr => h.handler (hs.idle hr)
  · rw [h.headersReceived, h.statusCode, h.fields]
    exact hs.content
  · rw [h.responses]
    exact fun hd => hs.undelivered (h.delivered hd)
  · rw [h.responses]
    exact hs.once
  · rw [h.responses]
    exact hs.right

theorem Phase.same {script : List Action} (hs : Phase x s script) (h : Same s t) :
    Phase x t script := by
  cases hs with
  | awaiting hs => exact .awaiting (hs.same h)
  | arrived hs => exact .arrived (hs.same h)

theorem same_deliverFailure (s : ClientStream) : Same s s.deliverFailure := by
  unfold deliverFailure
  split
  · exact ⟨rfl, rfl, rfl, rfl, id, id, rfl⟩
  · split
    · exact ⟨rfl, rfl, rfl, rfl, id, id, rfl⟩
    · exact ⟨rfl, rfl, rfl, rfl, fun _ => rfl, (fun h => nomatch h),
        responses_concat (c := .completeResponse _ _ none) rfl rfl⟩

/-! ### Steps -/

/-- The final response is delivered as soon as it is there and somebody waits for it. -/
theorem arrived_deliver (hreceived : s.headersReceived = true)
    (hstatus : s.statusCode = (statusOf x.final).getD 0) (hfields : s.fields = own x.final)
    (hresponses : s.responses = []) : Arrived x s.deliverResponse := by
  unfold deliverResponse
  rw [if_pos hreceived]
  split
  · rename_i hnone
    exact ⟨fun _ => hreceived, fun _ => hnone, fun _ => ⟨hstatus, hfields⟩, fun _ => hresponses,
      by simp [hresponses], by simp [hresponses]⟩
  · rename_i h _
    set call := Call.completeResponse h .success (some (s.statusCode, s.fields))
    have hnew : ∀ u : ClientStream, u.trace = s.trace ++ [call] → u.responses = [call] := by
      intro u hu
      rw [responses, hu, List.filter_append]
      show s.responses ++ _ = _
      rw [hresponses]
      rfl
    refine ⟨fun _ => hreceived, fun _ => rfl, fun _ => ⟨hstatus, hfields⟩,
      (fun h => nomatch h), ?_, ?_⟩
    · rw [hnew _ rfl]
      exact le_rfl
    · rw [hnew _ rfl]
      intro c hc
      rw [List.mem_singleton.mp hc]
      exact ⟨rfl, hstatus, hfields⟩

/-- The end of the header section of the final response. -/
theorem arrived_onEndHeaders (hcontent : s.headerLimitExceeded = false →
      s.statusCode = (statusOf x.final).getD 0 ∧ s.fields = own x.final)
    (hresponses : s.responses = []) : Arrived x s.onEndHeaders := by
  unfold onEndHeaders onHeadersComplete
  split
  · rename_i hexceeded
    apply Arrived.same ?_ (same_deliverFailure _)
    have hnew : ∀ u : ClientStream, u.trace = s.trace ++ [.resetStream] → u.responses = [] :=
      fun u hu => (responses_concat hu rfl).trans hresponses
    refine ⟨fun h => absurd (hexceeded.symm.trans h) (by decide), (fun h => nomatch h),
      (fun h => nomatch h), fun _ => hnew _ rfl, ?_, ?_⟩
    · rw [hnew _ rfl]
      exact Nat.zero_le _
    · rw [hnew _ rfl]
      exact fun _ hc => nomatch hc
  · rename_i hstored
    obtain ⟨hstatus, hfields⟩ := hcontent (Bool.eq_false_of_not_eq_true hstored)
    exact arrived_deliver rfl hstatus hfields hresponses

/-- The final response arrives. -/
theorem Awaiting.onHeaders (hs : Awaiting s) : Arrived x (s.onHeaders x.final) := by
  apply arrived_onEndHeaders
  · intro hstored
    obtain ⟨hstatus, hfields⟩ := foldl_onHeader_stored x.final s hstored
    rw [hstatus, hfields, hs.statusCode, hs.fields]
    exact ⟨rfl, List.nil_append _⟩
  · rw [foldl_onHeader_rest]
    exact hs.responses

theorem Phase.asyncGetResponse {script : List Action} (hs : Phase x s script) (h : Handler) :
    Phase x (s.asyncGetResponse h) script := by
  have hcall : ∀ ec, Same s (s.call (.completeResponse h ec none)) := fun ec =>
    ⟨rfl, rfl, rfl, rfl, id, id, responses_concat (c := .completeResponse h ec none) rfl rfl⟩
  unfold ClientStream.asyncGetResponse
  split
  · exact hs.same (hcall _)
  · split
    · exact hs.same (hcall _)
    · rename_i hnot
      have hdelivered : s.responseDelivered = false := Bool.eq_false_of_not_eq_true hnot
      have hdeliver : Phase x { s with responseHandler := some h }.deliverResponse script := by
        cases hs with
        | awaiting hs =>
          refine .awaiting ?_
          rw [deliverResponse, if_neg (by simp [hs.headersReceived])]
          exact ⟨hs.headersReceived, hs.statusCode, hs.fields, hs.responses⟩
        | arrived hs =>
          refine .arrived ?_
          by_cases hreceived : s.headersReceived = true
          · obtain ⟨hstatus, hfields⟩ := hs.content hreceived
            exact arrived_deliver hreceived hstatus hfields (hs.undelivered hdelivered)
          · rw [deliverResponse, if_neg hreceived]
            exact ⟨hs.received, fun h => absurd h hreceived, fun h => absurd h hreceived,
              hs.undelivered, hs.once, hs.right⟩
      dsimp only
      split
      · exact hdeliver.same (same_deliverFailure _)
      · exact hdeliver

theorem Phase.follow {script rest : List Action} (hs : Phase x s script)
    (h : follow isHeaders step (s, script) a = some (t, rest)) : Phase x t rest := by
  obtain ⟨hstep, hscript⟩ := (follow_eq_some isHeaders).mp h
  cases a with
  | onHeaders fields =>
    have hscript : script = .onHeaders fields :: rest := hscript
    subst hscript
    cases hs with
    | awaiting hs =>
      obtain ⟨_, hstep⟩ := Option.ite_none_left_eq_some.mp hstep
      rw [← Option.some.inj hstep]
      exact .arrived hs.onHeaders
  | asyncGetResponse h' =>
    rw [show rest = script from hscript]
    obtain ⟨_, hstep⟩ := Option.ite_none_right_eq_some.mp hstep
    rw [← Option.some.inj hstep]
    exact hs.asyncGetResponse h'
  | cancelResponse =>
    rw [show rest = script from hscript]
    obtain ⟨_, hstep⟩ := Option.ite_none_left_eq_some.mp hstep
    rw [← Option.some.inj hstep, cancelResponse]
    split
    · exact hs.same ⟨rfl, rfl, rfl, rfl, fun _ => rfl, id,
        responses_concat (c := .completeResponse _ _ none) rfl rfl⟩
    · exact hs
  | fail ec =>
    rw [show rest = script from hscript]
    obtain ⟨_, hstep⟩ := Option.ite_none_left_eq_some.mp hstep
    rw [← Option.some.inj hstep]
    apply Phase.same ?_ (same_deliverFailure _)
    exact hs.same ⟨rfl, rfl, rfl, rfl, id, id, rfl⟩
  | destroy =>
    rw [show rest = script from hscript]
    obtain ⟨_, hstep⟩ := Option.ite_none_left_eq_some.mp hstep
    rw [← Option.some.inj hstep, destroy]
    dsimp only
    split
    · split
      · exact hs.same ⟨rfl, rfl, rfl, rfl, id, id, rfl⟩
      · exact hs.same ⟨rfl, rfl, rfl, rfl, fun _ => rfl, id,
          responses_concat (c := .completeResponse _ _ none) rfl rfl⟩
    · exact hs.same ⟨rfl, rfl, rfl, rfl, id, id, rfl⟩

theorem Phase.responseIsFinal {script : List Action} (hs : Phase x s script) :
    ResponseIsFinal x s script := by
  cases hs with
  | awaiting hs =>
    refine ⟨?_, by simp [hs.responses], fun h => absurd List.mem_cons_self h⟩
    intro h ec status fields hmem
    have hmem : .completeResponse h ec (some (status, fields)) ∈ s.responses :=
      List.mem_filter.mpr ⟨hmem, rfl⟩
    rw [hs.responses] at hmem
    exact nomatch hmem
  | arrived hs =>
    refine ⟨?_, hs.once, fun _ hstored => hs.idle (hs.received hstored)⟩
    intro h ec status fields hmem
    exact hs.right _ (List.mem_filter.mpr ⟨hmem, rfl⟩)

/-- Without interim responses, the response that a client gets is the final one. -/
theorem response_is_final {maxHeaderSize : Nat} {as rest : List Action} (hnone : x.interim = [])
    (hrun : run (Lib.follow isHeaders step) (init maxHeaderSize, script x) as = some (t, rest)) :
    ResponseIsFinal x t rest := by
  have hinit : Phase x (init maxHeaderSize) (script x) := by
    rw [script, hnone]
    exact .awaiting ⟨rfl, rfl, rfl, rfl⟩
  have hphase : Phase x t rest :=
    run_inv (P := fun s : ClientStream × List Action => Phase x s.1 s.2)
    (fun _ _ _ hs h => hs.follow h) hinit hrun
  exact hphase.responseIsFinal

end ClientStream

end AnyHttp.H3
