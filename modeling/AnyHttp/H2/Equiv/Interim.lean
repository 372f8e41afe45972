import AnyHttp.H2.Equiv.Incoming

/-!
# Interim responses over HTTP/2

A server answers a request by any number of interim responses and the final one (`Answer`), each of
which is a header section, in an order that only it decides (`follow`).  A client takes the first
section for the response.  So that is the final one as long as there is no interim response before
it (`response_is_final`).
-/

namespace AnyHttp.H2

open Lib

/-- The status code in a header section. -/
def statusOf (fields : Fields) : Option Nat :=
  ((fields.filter fun f => f.1 = ":status".toList).getLast?).map fun f => fromChars f.2

/-- The fields of a header section but for the pseudo header fields. -/
def own (fields : Fields) : Fields := fields.filter fun f => f.1.head? ≠ some ':'

/-- The header section of an interim response, as a client can get them. -/
def isInterim (fields : Fields) : Bool :=
  match statusOf fields with
  | some status => decide (100 ≤ status ∧ status < 200 ∧ status ≠ 101)
  | none => false

/-- What a server answers a request with. -/
structure Answer where
  interim : List Fields
  final : Fields
  trailers : Fields
  isInterim : ∀ s ∈ interim, isInterim s = true
  isFinal : H2.isInterim final = false
  plain : ∀ f ∈ trailers, f.1.head? ≠ some ':'

/-- A header section arrives. -/
def isHeaders : Action → Bool
  | .onHeaders _ | .onTrailers _ => true
  | _ => false

/-- The header sections of an answer. -/
def Answer.script (x : Answer) : List Action :=
  x.interim.map .onHeaders ++ [.onHeaders x.final, .onTrailers x.trailers]

/-- A response is delivered. -/
def isResponse : Call → Bool
  | .completeResponse _ _ (some _) => true
  | _ => false

namespace Stream

variable {m t : Stream} {a : Action} {x : Answer}

def responses (m : Stream) : List Call := m.trace.filter isResponse

/-- Whoever asks for the response gets the final one, with its status code and its own header
fields, and the trailers if there are any by then; nobody gets it twice, or waits when it
is there. -/
structure ResponseIsFinal (x : Answer) (m : Stream) (script : List Action) : Prop where
  right : ∀ h ec status fields, .completeResponse h ec (some (status, fields)) ∈ m.trace →
    ec = .success ∧ status = (statusOf x.final).getD 0 ∧ own x.final <+: fields ∧
      fields <+: own x.final ++ x.trailers
  once : m.responses.length ≤ 1
  prompt : .onHeaders x.final ∉ script → m.rs.responseHandler = none

/-! ### Header sections -/

/-- A field is dropped, as the limit is exceeded, or stored. -/
theorem onHeader_cases (e : Exchange) (size : Nat) (f : List Char × List Char) :
    (∃ n, onHeader e size f = { e with headerSize := n, headerLimitExceeded := true }) ∨
      e.headerLimitExceeded = false ∧ ∃ n, onHeader e size f =
        { e with
          headerSize := n
          statusCode := if f.1 = ":status".toList then some (fromChars f.2) else e.statusCode
          fields := if f.1.head? = some ':' then e.fields else e.fields ++ [f] } := by
  unfold onHeader
  split
  · rename_i hx
    refine .inl ⟨e.headerSize, ?_⟩
    rw [← hx]
  · rename_i hx
    dsimp only
    split
    · exact .inl ⟨_, rfl⟩
    · exact .inr ⟨Bool.eq_false_of_not_eq_true hx, _, rfl⟩

theorem foldl_onHeader_exceeded {e : Exchange} (size : Nat) (fields : Fields)
    (h : e.headerLimitExceeded = true) :
    fields.foldl (fun e f => onHeader e size f) e = e := by
  induction fields with
  | nil => rfl
  | cons f fields ih => rw [List.foldl_cons, onHeader, if_pos h, ih]

/-- What a header section does not touch. -/
theorem foldl_onHeader_rest (size : Nat) (fields : Fields) (e : Exchange) :
    let e' := fields.foldl (fun e f => onHeader e size f) e
    e' = { e with
      statusCode := e'.statusCode
      fields := e'.fields
      headerSize := e'.headerSize
      headerLimitExceeded := e'.headerLimitExceeded } := by
  induction fields generalizing e with
  | nil => rfl
  | cons f fields ih =>
    dsimp only
    rw [List.foldl_cons, ih]
    rcases onHeader_cases e size f with ⟨n, heq⟩ | ⟨_, n, heq⟩
    · rw [heq]
    · rw [heq]

/-- A header section that is stored as a whole. -/
theorem foldl_onHeader_stored (size : Nat) (fields : Fields) (e : Exchange)
    (h : (fields.foldl (fun e f => onHeader e size f) e).headerLimitExceeded = false) :
    (fields.foldl (fun e f => onHeader e size f) e).statusCode = (statusOf fields).or e.statusCode ∧
      (fields.foldl (fun e f => onHeader e size f) e).fields = e.fields ++ own fields := by
  -- on the fields, as long as they fit
  induction fields generalizing e with
  | nil => exact ⟨rfl, (List.append_nil _).symm⟩
  | cons f fields ih =>
    rw [List.foldl_cons] at h ⊢
    rcases onHeader_cases e size f with ⟨n, heq⟩ | ⟨_, n, heq⟩
    · rw [heq, foldl_onHeader_exceeded size fields rfl] at h
      exact nomatch h
    · obtain ⟨hstatus, hfields⟩ := ih (onHeader e size f) h
      rw [hstatus, hfields, heq]
      dsimp only
      constructor
      · unfold statusOf
        -- the status code, another pseudo-header, or a field of the response
        by_cases hf : f.1 = ":status".toList
        · rw [if_pos hf, List.filter_cons, if_pos (decide_eq_true hf), List.getLast?_cons]
          cases (List.filter (fun f => decide (f.1 = ":status".toList)) fields).getLast? <;> rfl
        · rw [if_neg hf, List.filter_cons, if_neg fun h => hf (of_decide_eq_true h)]
      · unfold own
        by_cases hf : f.1.head? = some ':'
        · rw [if_pos hf, List.filter_cons, if_neg fun h => absurd hf (of_decide_eq_true h)]
        · rw [if_neg hf, List.filter_cons, if_pos (decide_eq_true hf), List.append_assoc]
          rfl

/-- Trailers are stored as far as there is room for them. -/
theorem foldl_onHeader_trailers (size : Nat) (fields : Fields) (e : Exchange)
    (hplain : ∀ f ∈ fields, f.1.head? ≠ some ':') :
    (fields.foldl (fun e f => onHeader e size f) e).statusCode = e.statusCode ∧
      ∃ stored, stored <+: fields ∧
        (fields.foldl (fun e f => onHeader e size f) e).fields = e.fields ++ stored := by
  induction fields generalizing e with
  | nil => exact ⟨rfl, [], List.prefix_rfl, by simp⟩
  | cons f fields ih =>
    rw [List.foldl_cons]
    -- a field that exceeds the limit is not stored, nor is any after it
    rcases onHeader_cases e size f with ⟨n, heq⟩ | ⟨_, n, heq⟩
    · rw [heq, foldl_onHeader_exceeded size fields rfl]
      exact ⟨rfl, [], List.nil_prefix, by simp⟩
    · obtain ⟨hstatus, stored, hstored, hfields⟩ :=
        ih (onHeader e size f) fun g hg => hplain g (List.mem_cons_of_mem _ hg)
      have hf := hplain f List.mem_cons_self
      have hname : f.1 ≠ ":status".toList := by
        intro h
        rw [h] at hf
        exact hf rfl
      rw [hstatus, hfields, heq]
      dsimp only
      rw [if_neg hname, if_neg hf]
      refine ⟨rfl, f :: stored, List.cons_prefix_cons.mpr ⟨rfl, hstored⟩, ?_⟩
      rw [List.append_assoc]
      rfl

/-! ### The invariant -/

/-- Nothing has arrived. -/
structure Awaiting (m : Stream) : Prop where
  hasResponse : m.rs.hasResponse = false
  responseError : m.rs.responseError = none
  responseDelivered : m.rs.responseDelivered = false
  headersSeen : m.rs.headersSeen = false
  statusCode : m.rs.statusCode = none
  fields : m.rs.fields = []
  responses : m.responses = []

/-- What is delivered is the final response, with some of the trailers. -/
def DeliversFinal (x : Answer) : Call → Prop
  | .completeResponse _ ec (some (status, fields)) =>
    ec = .success ∧ status = (statusOf x.final).getD 0 ∧ own x.final <+: fields ∧
      fields <+: own x.final ++ x.trailers
  | _ => True

/-- The final response has arrived, and `stored` of the trailers. -/
structure Arrived (x : Answer) (stored : Fields) (m : Stream) : Prop where
  headersSeen : m.rs.headersSeen = true
  idle : m.rs.responseHandler = none
  content : m.rs.responseError = none → m.rs.hasResponse = true ∧
    m.rs.statusCode.getD 0 = (statusOf x.final).getD 0 ∧ m.rs.fields = own x.final ++ stored
  undelivered : m.rs.responseDelivered = false → m.responses = []
  once : m.responses.length ≤ 1
  right : ∀ c ∈ m.responses, DeliversFinal x c

/-- How far the answer has got. -/
inductive Phase (x : Answer) : Stream → List Action → Prop
  | awaiting {m : Stream} : Awaiting m →
    Phase x m [.onHeaders x.final, .onTrailers x.trailers]
  | arrived {m : Stream} : Arrived x [] m → Phase x m [.onTrailers x.trailers]
  | complete {m : Stream} {stored : Fields} : Arrived x stored m → stored <+: x.trailers →
    Phase x m []

/-- Nothing happens to the response. -/
structure SameRs (m t : Stream) : Prop where
  rs : { t.rs with responseHandler := none } = { m.rs with responseHandler := none }
  handler : m.rs.responseHandler = none → t.rs.responseHandler = none
  responses : t.responses = m.responses

theorem Awaiting.same (hm : Awaiting m) (h : SameRs m t) : Awaiting t := by
  have hrs := h.rs
  simp only [Exchange.mk.injEq, true_and] at hrs
  obtain ⟨h₁, h₂, h₃, h₄, h₅, _, _, h₆⟩ := hrs
  exact ⟨h₁.trans hm.hasResponse, h₃.trans hm.responseError, h₂.trans hm.responseDelivered,
    h₆.trans hm.headersSeen, h₄.trans hm.statusCode, h₅.trans hm.fields,
    h.responses.trans hm.responses⟩

theorem Arrived.same {stored : Fields} (hm : Arrived x stored m) (h : SameRs m t) :
    Arrived x stored t := by
  have hrs := h.rs
  simp only [Exchange.mk.injEq, true_and] at hrs
  obtain ⟨h₁, h₂, h₃, h₄, h₅, _, _, h₆⟩ := hrs
  refine ⟨h₆.trans hm.headersSeen, h.handler hm.idle, ?_, ?_, ?_, ?_⟩
  · rw [h₁, h₃, h₄, h₅]
    exact hm.content
  · rw [h₂, h.responses]
    exact hm.undelivered
  · rw [h.responses]
    exact hm.once
  · rw [h.responses]
    exact hm.right

theorem Phase.same {script : List Action} (hm : Phase x m script) (h : SameRs m t) :
    Phase x t script := by
  cases hm with
  | awaiting hm => exact .awaiting (hm.same h)
  | arrived hm => exact .arrived (hm.same h)
  | complete hm hstored => exact .complete (hm.same h) hstored

/-- A call that does not deliver a response. -/
theorem responses_concat {c : Call} (htrace : t.trace = m.trace ++ [c])
    (hc : isResponse c = false) :
    t.responses = m.responses := by
  rw [responses, htrace, List.filter_append, List.filter_cons_of_neg (by simp [hc])]
  simp [responses]

theorem responses_eq (htrace : t.trace = m.trace) : t.responses = m.responses := by
  rw [responses, htrace, responses]

theorem sameRs_trace (hrs : t.rs = m.rs) (htrace : t.trace = m.trace) : SameRs m t :=
  ⟨by rw [hrs], by rw [hrs]; exact id, responses_eq htrace⟩

theorem sameRs_call {c : Call} (hrs : t.rs = m.rs) (hc : isResponse c = false)
    (htrace : t.trace = m.trace ++ [c]) : SameRs m t :=
  ⟨by rw [hrs], by rw [hrs]; exact id, responses_concat htrace hc⟩

theorem keeps_phase (x : Answer) (script : List Action) : Keeps fun m => Phase x m script where
  buffer m data hm := by
    refine hm.same ?_
    unfold buffer
    split <;> exact sameRs_trace rfl rfl
  enter m data hm := hm.same (sameRs_trace rfl rfl)
  advance m hm := by
    refine hm.same ?_
    unfold advance
    split <;> exact sameRs_trace rfl rfl
  credit m hm := by
    refine hm.same ?_
    unfold credit
    split
    · exact sameRs_trace rfl rfl
    · exact sameRs_call (c := .consumeStream _) rfl rfl rfl
  park m hm := hm.same (sameRs_trace rfl rfl)
  leave m hm := hm.same (sameRs_trace rfl rfl)
  deliver m h _ _ hm := hm.same (sameRs_call (c := .completeRead _ _ _ _ _) rfl rfl rfl)
  failRead m h ec f _ _ _ hm := hm.same (sameRs_call (c := .completeRead _ _ _ _ _) rfl rfl rfl)
  closeWrite m h _ _ hm := hm.same (sameRs_call (c := .completeWrite _ _) rfl rfl rfl)
  failResponse m h _ hm := hm.same
    ⟨rfl, fun _ => rfl, responses_concat (c := .completeResponse h endOfStream none) rfl rfl⟩
  flags m _ _ _ _ _ _ hm := hm.same (sameRs_trace rfl rfl)

/-! ### Steps -/

/-- The final response is delivered as soon as it is there and somebody waits for it. -/
theorem arrived_deliver {stored : Fields} (hseen : m.rs.headersSeen = true)
    (hpresent : m.rs.hasResponse = true ∨ m.rs.responseError.isSome = true)
    (hcontent : m.rs.responseError = none → m.rs.hasResponse = true ∧
      m.rs.statusCode.getD 0 = (statusOf x.final).getD 0 ∧ m.rs.fields = own x.final ++ stored)
    (hresponses : m.responses = []) (hstored : stored <+: x.trailers) :
    Arrived x stored m.deliverResponse := by
  unfold deliverResponse
  -- nobody waits for the response yet
  split
  · rename_i habsent
    simp only [Bool.and_eq_true, Bool.not_eq_true', Option.isNone_iff_eq_none] at habsent
    rcases hpresent with h | h
    · exact absurd (habsent.1.symm.trans h) (by decide)
    · rw [habsent.2] at h
      exact nomatch h
  · split
    · rename_i hnone
      exact ⟨hseen, hnone, hcontent, fun _ => hresponses, by simp [hresponses],
        by simp [hresponses]⟩
    · rename_i h _
      dsimp only
      split
      · rename_i ec hec
        have hnew : Stream.responses (((({ m with rs := { m.rs with responseDelivered := true } } :
            Stream).completeResponse h ec none).push .failed)) = [] :=
          (responses_concat (c := .completeResponse h ec none) rfl rfl).trans hresponses
        exact ⟨hseen, rfl, hcontent, (fun h => nomatch h), by simp [hnew], by simp [hnew]⟩
      · rename_i hnone
        obtain ⟨hhas, hcode, hfields⟩ := hcontent hnone
        set call := Call.completeResponse h .success (some (m.rs.statusCode.getD 0, m.rs.fields))
        have hright : DeliversFinal x call := by
          refine ⟨rfl, hcode, ?_, ?_⟩
          · rw [hfields]
            exact List.prefix_append _ _
          · rw [hfields]
            exact (List.prefix_append_right_inj _).mpr hstored
        have hnew : ∀ u : Stream, u.trace = m.trace ++ [call] → u.responses = [call] := by
          intro u hu
          rw [responses, hu, List.filter_append]
          show m.responses ++ _ = _
          rw [hresponses]
          rfl
        refine ⟨hseen, rfl, fun _ => ⟨hhas, hcode, hfields⟩, (fun h => nomatch h), ?_, ?_⟩
        · rw [hnew _ rfl]
          exact le_rfl
        · rw [hnew _ rfl]
          intro c hc
          rw [List.mem_singleton.mp hc]
          exact hright

/-- The final response arrives. -/
theorem Awaiting.onHeaders (hm : Awaiting m) : Arrived x [] (m.onHeaders x.final) := by
  have hrest := foldl_onHeader_rest m.maxHeaderSize x.final m.rs
  set e := x.final.foldl (fun e f => onHeader e m.maxHeaderSize f) m.rs with he
  unfold Stream.onHeaders
  dsimp only
  rw [if_neg (by rw [hm.headersSeen]; simp)]
  unfold onResponse
  -- a header that is too long fails the response
  split
  · apply arrived_deliver
    · rfl
    · exact .inr rfl
    · exact fun h => nomatch h
    · exact (responses_concat (c := .resetStream) rfl rfl).trans hm.responses
    · exact List.nil_prefix
  · rename_i hstored
    have hstored : e.headerLimitExceeded = false := Bool.eq_false_of_not_eq_true hstored
    obtain ⟨hstatus, hfields⟩ := foldl_onHeader_stored m.maxHeaderSize x.final m.rs hstored
    apply arrived_deliver
    · rfl
    · exact .inl rfl
    · intro _
      refine ⟨rfl, ?_, ?_⟩
      · show e.statusCode.getD 0 = _
        rw [hstatus, hm.statusCode, Option.or_none]
      · show e.fields = _
        rw [hfields, hm.fields, List.nil_append, List.append_nil]
    · exact hm.responses
    · exact List.nil_prefix

theorem Arrived.onTrailers (hm : Arrived x [] m) :
    ∃ stored, Arrived x stored (m.onHeaderSection x.trailers) ∧ stored <+: x.trailers := by
  obtain ⟨hstatus, stored, hstored, hfields⟩ :=
    foldl_onHeader_trailers m.maxHeaderSize x.trailers m.rs x.plain
  have hrest := foldl_onHeader_rest m.maxHeaderSize x.trailers m.rs
  refine ⟨stored, ⟨?_, ?_, ?_, ?_, hm.once, hm.right⟩, hstored⟩
  · show (x.trailers.foldl _ m.rs).headersSeen = true
    rw [hrest]
    exact hm.headersSeen
  · show (x.trailers.foldl _ m.rs).responseHandler = none
    rw [hrest]
    exact hm.idle
  · intro herror
    have herror : m.rs.responseError = none := by
      have :
          (x.trailers.foldl (fun e f => onHeader e m.maxHeaderSize f) m.rs).responseError = none :=
        herror
      rw [hrest] at this
      exact this
    obtain ⟨hhas, hcode, hown⟩ := hm.content herror
    refine ⟨?_, ?_, ?_⟩
    · show (x.trailers.foldl _ m.rs).hasResponse = true
      rw [hrest]
      exact hhas
    · show (x.trailers.foldl _ m.rs).statusCode.getD 0 = _
      rw [hstatus]
      exact hcode
    · show (x.trailers.foldl _ m.rs).fields = _
      rw [hfields, hown, List.append_nil]
  · show (x.trailers.foldl _ m.rs).responseDelivered = false → _
    rw [hrest]
    exact hm.undelivered

theorem Phase.asyncGetResponse {script : List Action} (hm : Phase x m script) (h : Handler) :
    Phase x (m.asyncGetResponse h) script := by
  unfold Stream.asyncGetResponse
  split
  · exact hm.same (sameRs_call (c := .completeResponse h _ none) rfl rfl rfl)
  · split
    · exact hm.same (sameRs_call (c := .completeResponse h _ none) rfl rfl rfl)
    · rename_i hnot
      have hdeliver : ∀ {stored : Fields}, Arrived x stored m → stored <+: x.trailers →
          Arrived x stored
            { m with rs := { m.rs with responseHandler := some h } }.deliverResponse := by
        intro stored hm hstored
        apply arrived_deliver
        · exact hm.headersSeen
        · by_cases herror : m.rs.responseError = none
          · exact .inl (hm.content herror).1
          · exact .inr (Option.isSome_iff_ne_none.mpr herror)
        · exact hm.content
        · exact hm.undelivered (Bool.eq_false_of_not_eq_true hnot)
        · exact hstored
      cases hm with
      | awaiting hm =>
        refine .awaiting ?_
        unfold deliverResponse
        rw [if_pos (by simp [hm.hasResponse, hm.responseError])]
        exact ⟨hm.hasResponse, hm.responseError, hm.responseDelivered, hm.headersSeen,
          hm.statusCode,
          hm.fields, hm.responses⟩
      | arrived hm => exact .arrived (hdeliver hm List.nil_prefix)
      | complete hm hstored => exact .complete (hdeliver hm hstored) hstored

theorem sameRs_maybeCloseStream (m : Stream) : SameRs m m.maybeCloseStream := by
  unfold maybeCloseStream
  split_ifs
  · exact sameRs_trace rfl rfl
  · exact sameRs_trace rfl rfl
  · rcases m.backend.reset_cases with hreset | hreset
    · exact sameRs_call rfl rfl (by rw [hreset]; rfl)
    · exact sameRs_call rfl rfl (by rw [hreset]; rfl)
  · exact sameRs_trace rfl rfl

theorem sameRs_of_outward (h : Outward m t) : SameRs m t := by
  obtain ⟨_, _, _, _, _, _, cs, rfl, _, hcs⟩ := h
  refine ⟨rfl, id, ?_⟩
  show (m.trace ++ cs).filter isResponse = m.trace.filter isResponse
  have hnone : cs.filter isResponse = [] := by
    rw [List.filter_eq_nil_iff]
    intro c hc
    have hc := hcs c hc
    cases c with
    | completeResponse => exact hc.elim
    | _ => exact Bool.false_ne_true
  rw [List.filter_append, hnone, List.append_nil]

/-- The destructor does not deliver anything. -/
theorem sameRs_destroy (m : Stream) : SameRs m m.destroy := by
  obtain ⟨htrace, _, _, _, _, hnone, _, _, _⟩ := destroy_spec m
  refine ⟨?_, fun _ => hnone, ?_⟩
  · unfold destroy
    dsimp only
    split <;> split <;> split <;> rfl
  · rw [responses, htrace, List.filter_append]
    have hlast : m.lastCalls.filter isResponse = [] := by
      unfold lastCalls
      cases m.rs.responseHandler <;> cases m.rx.readHandler <;> cases m.tx.writeHandler <;> rfl
    rw [hlast, List.append_nil, responses]

/-- What has nothing to do with header sections. -/
theorem Phase.step_other {script : List Action} (hm : Phase x m script) (ha : isHeaders a = false)
    (h : step m a = some t) : Phase x t script := by
  have hK := keeps_phase x script
  cases a with
  | onHeaders fields => cases ha
  | onTrailers fields => cases ha
  | asyncReadSome h' size =>
    obtain ⟨_, h⟩ := Option.ite_none_right_eq_some.mp h
    rw [← Option.some.inj h, asyncReadSome]
    split
    · exact hm.same (sameRs_call (c := .completeRead _ _ _ _ _) rfl rfl rfl)
    · split
      · exact hm.same (sameRs_call (c := .completeRead _ _ _ _ _) rfl rfl rfl)
      · apply hK.callReadHandler
        exact hm.same (sameRs_trace rfl rfl)
  | cancelRead =>
    obtain ⟨_, h⟩ := Option.ite_none_right_eq_some.mp h
    rw [← Option.some.inj h, cancelRead]
    split
    · exact hm.same (sameRs_call (c := .completeRead _ _ _ _ _) rfl rfl rfl)
    · exact hm
  | asyncWrite _ _ _ | cancelWrite | producer _ | dataReader _ | writeOffset _ =>
    exact hm.same (sameRs_of_outward (outward_step rfl h))
  | asyncGetResponse h' =>
    obtain ⟨_, h⟩ := Option.ite_none_right_eq_some.mp h
    rw [← Option.some.inj h]
    exact hm.asyncGetResponse h'
  | cancelResponse =>
    obtain ⟨_, h⟩ := Option.ite_none_left_eq_some.mp h
    rw [← Option.some.inj h, cancelResponse]
    split
    · exact hm.same
        ⟨rfl, fun _ => rfl, responses_concat (c := .completeResponse _ .canceled none) rfl rfl⟩
    · exact hm
  | dropReader =>
    obtain ⟨_, h⟩ := Option.ite_none_right_eq_some.mp h
    rw [← Option.some.inj h, dropReader]
    split
    · apply hK.finishDeferredClose
      apply Phase.same ?_ (sameRs_maybeCloseStream _)
      dsimp only
      split <;> exact hm.same (sameRs_trace rfl rfl)
    · exact hm.same (sameRs_trace rfl rfl)
  | dropWriter =>
    obtain ⟨_, h⟩ := Option.ite_none_right_eq_some.mp h
    rw [← Option.some.inj h, dropWriter]
    split
    · apply Phase.same ?_ (sameRs_maybeCloseStream _)
      exact hm.same (sameRs_trace rfl rfl)
    · exact hm.same (sameRs_trace rfl rfl)
  | ret =>
    rw [Stream.step] at h
    split at h
    · cases h
    · rw [← Option.some.inj h]
      apply hK.ret
      exact hm.same (sameRs_trace rfl rfl)
  | onData data =>
    obtain ⟨_, h⟩ := Option.ite_none_right_eq_some.mp h
    rw [← Option.some.inj h]
    apply hK.callReadHandler
    exact hm.same (sameRs_trace rfl rfl)
  | onEof =>
    obtain ⟨_, h⟩ := Option.ite_none_right_eq_some.mp h
    rw [← Option.some.inj h]
    apply hK.callReadHandler
    exact hm.same (sameRs_trace rfl rfl)
  | streamClose =>
    obtain ⟨_, h⟩ := Option.ite_none_right_eq_some.mp h
    rw [← Option.some.inj h]
    exact hK.closeStream hm
  | destroy =>
    obtain ⟨_, h⟩ := Option.ite_none_right_eq_some.mp h
    rw [← Option.some.inj h]
    exact hm.same (sameRs_destroy m)

/-- The next header section arrives. -/
theorem Phase.step_headers {rest : List Action} (hm : Phase x m (a :: rest))
    (h : step m a = some t) : Phase x t rest := by
  cases hm with
  | awaiting hm =>
    obtain ⟨_, h⟩ := Option.ite_none_right_eq_some.mp h
    rw [← Option.some.inj h]
    exact .arrived hm.onHeaders
  | arrived hm =>
    obtain ⟨_, h⟩ := Option.ite_none_right_eq_some.mp h
    rw [← Option.some.inj h]
    obtain ⟨stored, harrived, hstored⟩ := hm.onTrailers
    exact .complete harrived hstored

theorem Phase.follow {script rest : List Action} (hm : Phase x m script)
    (h : follow isHeaders step (m, script) a = some (t, rest)) : Phase x t rest := by
  obtain ⟨hstep, hscript⟩ := (follow_eq_some isHeaders).mp h
  cases ha : isHeaders a with
  | true =>
    rw [if_pos ha] at hscript
    subst hscript
    exact hm.step_headers hstep
  | false =>
    rw [if_neg (by simp [ha])] at hscript
    rw [hscript]
    exact hm.step_other ha hstep

theorem Phase.responseIsFinal {script : List Action} (hm : Phase x m script) :
    ResponseIsFinal x m script := by
  have harrived : ∀ {stored : Fields}, Arrived x stored m → ResponseIsFinal x m script := by
    intro stored hm
    refine ⟨?_, hm.once, fun _ => hm.idle⟩
    intro h ec status fields hmem
    exact hm.right _ (List.mem_filter.mpr ⟨hmem, rfl⟩)
  cases hm with
  | awaiting hm =>
    refine ⟨?_, by simp [hm.responses], fun h => absurd List.mem_cons_self h⟩
    intro h ec status fields hmem
    have hmem : .completeResponse h ec (some (status, fields)) ∈ m.responses :=
      List.mem_filter.mpr ⟨hmem, rfl⟩
    rw [hm.responses] at hmem
    exact nomatch hmem
  | arrived hm => exact harrived hm
  | complete hm _ => exact harrived hm

/-- Without interim responses, the response that a client gets is the final one. -/
theorem response_is_final {backend : Backend} {maxHeaderSize : Nat} {as rest : List Action}
    (hnone : x.interim = [])
    (hrun : run (Lib.follow isHeaders step) (client backend maxHeaderSize, x.script) as =
      some (t, rest)) : ResponseIsFinal x t rest := by
  have hinit : Phase x (client backend maxHeaderSize) x.script := by
    rw [Answer.script, hnone]
    exact .awaiting ⟨rfl, rfl, rfl, rfl, rfl, rfl, rfl⟩
  have hphase : Phase x t rest := run_inv (P := fun s : Stream × List Action => Phase x s.1 s.2)
    (fun _ _ _ hs h => hs.follow h) hinit hrun
  exact hphase.responseIsFinal

end Stream

end AnyHttp.H2
