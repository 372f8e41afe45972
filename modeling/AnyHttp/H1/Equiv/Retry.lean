import AnyHttp.H1.Equiv.Release

/-!
# `get_response()`, again

A `get_response()` that is cancelled before anything has arrived hands out a response all the same,
with a reader that is not done.  It leaves the session alone (`Spares`), whatever becomes of that
response, but for one thing: `destroy()` does not know that there was nothing to read, and shuts
down the receive side of the connection (`cancelled_response_shuts_down`).

* `get_response_repeatable_iff`: attempts leave no trace, however many there are, exactly if none of
  what they hand out is destroyed or reset.
-/

namespace AnyHttp.H1.Client

open Lib

variable {P : Type*} {Γ : Context P} {s t : Client P} {a : Action}

/-- What belongs to an attempt that comes to nothing: it begins, is cancelled before anything has
arrived, and what it hands out is discarded. -/
def InVain (s : Client P) : Action → Prop
  | .getResponse _ => True
  | .deliver i ec => ec = .canceled ∧ ∀ r ∈ s.readers[i]?, r.consumed = 0
  | .releaseResponse i _ => ∀ r ∈ s.readers[i]?, r.void = true
  | _ => False

/-- The session can read as before. -/
structure Spared (s t : Client P) : Prop where
  receiveShut : t.receiveShut = s.receiveShut
  closed : t.closed = s.closed
  receiveFailed : t.receiveFailed = s.receiveFailed
  responsesRead : t.responsesRead = s.responsesRead
  cursor : t.cursor = s.cursor

def Spares (Γ : Context P) (s : Client P) (a : Action) : Prop :=
  InVain s a → ∀ t, step Γ s a = some t → Spared s t

/-- A request that has asked in vain gets its response, which is the next one on the connection,
when it asks again and the response arrives. -/
def Repeatable (Γ : Context P) (s : Client P) : Prop :=
  ∀ k r, s.requests[k]? = some r → (∃ q ∈ s.readers, q.request = k ∧ q.void = true) →
    r.held = true → r.responseRequested = false → r.writer.attached = true →
    s.receiveFailed = false → s.receiveShut = false →
    At Γ s.methods k s.cursor ∧ s.responseError k r = none ∧
      ∀ n, Arrives Γ r.method s.cursor n →
        ∃ t q, run (step Γ) s (.getResponse k :: (List.replicate n (.receive s.readers.length) ++
            [.deliver s.readers.length .success])) = some t ∧
          t.readers[s.readers.length]? = some q ∧ q.held = true ∧ q.request = k ∧
          q.start = s.cursor

/-- What a cancelled `get_response()` hands out is neither destroyed nor reset as long as the
session is there, unless that makes no difference any more. -/
def Careful (Γ : Context P) (s : Client P) : Action → Prop
  | .releaseResponse i true => ∀ r ∈ s.readers[i]?, r.void = true → r.attached = true →
    Γ.done r.parser = false → s.receiveShut = true ∧ s.closed = true
  | _ => True

/-! ### Attempts -/

theorem spared_getResponse {k : Nat} (h : s.getResponse Γ k = some t) : Spared s t := by
  obtain ⟨r, _, h⟩ := Option.bind_eq_some_iff.mp h
  obtain ⟨_, h⟩ := Option.ite_none_left_eq_some.mp h
  split_ifs at h
  · rw [← Option.some.inj h]
    exact ⟨rfl, rfl, rfl, rfl, rfl⟩
  · rw [← Option.some.inj h]
    exact ⟨rfl, rfl, rfl, rfl, rfl⟩

theorem spared_deliver {i : Nat} {ec : ErrorCode} (hcanceled : ec = .canceled)
    (hnone : ∀ r ∈ s.readers[i]?, r.consumed = 0) (h : s.deliver Γ i ec = some t) : Spared s t := by
  obtain ⟨r, hr, h⟩ := Option.bind_eq_some_iff.mp h
  obtain ⟨_, h⟩ := Option.ite_none_left_eq_some.mp h
  rw [if_pos ⟨hcanceled, hnone r hr⟩] at h
  rw [← Option.some.inj h]
  exact ⟨rfl, rfl, rfl, rfl, rfl⟩

/-- A reader that has finished has nothing to tell the session. -/
theorem finishReader_of_finished {i : Nat} {r : Reader P} (h : r.finished = true) :
    s.finishReader Γ i r = { s with readers := s.readers.set i r } := by
  unfold finishReader
  rw [h, Bool.not_true, Bool.and_false, if_neg Bool.false_ne_true]

theorem releaseResponse_void {i : Nat} {destroy : Bool} {r : Reader P} (hr : s.readers[i]? = some r)
    (hfinished : r.finished = true) (h : s.releaseResponse Γ i destroy = some t) :
    t = { s with
      receiveShut := s.receiveShut || (destroy && !Γ.done r.parser && r.attached)
      closed := s.closed || (destroy && !Γ.done r.parser && r.attached)
      readers := s.readers.set i { r with held := false } } := by
  obtain ⟨r', hr', h⟩ := Option.bind_eq_some_iff.mp h
  obtain rfl : r = r' := Option.some.inj (hr.symm.trans hr')
  obtain ⟨_, h⟩ := Option.ite_none_right_eq_some.mp h
  rw [← Option.some.inj h]
  dsimp only
  split
  · exact finishReader_of_finished hfinished
  · rfl

/-- **Step lemma**: a step spares those who wait exactly if it is careful. -/
theorem spares_iff (hs : Receiving Γ false s) (h : step Γ s a = some t) :
    Spares Γ s a ↔ Careful Γ s a := by
  have hone : ∀ u, step Γ s a = some u → u = t := fun u hu => Option.some.inj (hu.symm.trans h)
  cases a with
  | getResponse k => exact iff_of_true (fun _ _ hu => spared_getResponse hu) trivial
  | deliver i ec => exact iff_of_true (fun hvain _ hu => spared_deliver hvain.1 hvain.2 hu) trivial
  | releaseResponse i destroy =>
    obtain ⟨r, hr, _⟩ := Option.bind_eq_some_iff.mp h
    have hfinished : r.void = true → r.finished = true :=
      fun hvoid => ((hs.reader r (List.mem_of_getElem? hr)).void hvoid).2.1
    cases destroy with
    | false =>
      refine iff_of_true (fun hvain u hu => ?_) trivial
      rw [releaseResponse_void hr (hfinished (hvain r hr)) hu]
      exact ⟨Bool.or_false _, Bool.or_false _, rfl, rfl, rfl⟩
    | true =>
      constructor
      · intro hspares q hq hvoid hattached hdone
        obtain rfl : r = q := Option.some.inj (hr.symm.trans hq)
        have hvain : InVain s (.releaseResponse i true) := by
          intro q hq
          rwa [← Option.some.inj (hr.symm.trans hq)]
        have hspared := hspares hvain t h
        rw [releaseResponse_void hr (hfinished hvoid) h, hdone, hattached] at hspared
        have hshut := hspared.receiveShut
        have hclosed := hspared.closed
        simp only [Bool.not_false, Bool.and_self, Bool.or_true] at hshut hclosed
        exact ⟨hshut.symm, hclosed.symm⟩
      · intro hcareful hvain u hu
        have hvoid : r.void = true := hvain r hr
        rw [releaseResponse_void hr (hfinished hvoid) hu]
        cases hcut : true && !Γ.done r.parser && r.attached with
        | false => exact ⟨Bool.or_false _, Bool.or_false _, rfl, rfl, rfl⟩
        | true =>
          simp only [Bool.true_and, Bool.and_eq_true, Bool.not_eq_true'] at hcut
          obtain ⟨hshut, hclosed⟩ := hcareful r hr hvoid hcut.2 hcut.1
          exact ⟨(Bool.or_true _).trans hshut.symm, (Bool.or_true _).trans hclosed.symm,
            rfl, rfl, rfl⟩
  | _ => exact iff_of_true (fun hvain => nomatch hvain) trivial

/-! ### Asking again -/

/-- Unless it has asked again, it is still the turn of a request that has asked in vain. -/
theorem Receiving.repeatable (hs : Receiving Γ true s) : Repeatable Γ s := by
  rintro k r hr ⟨q, hq, rfl, _⟩ hheld hnot hattached hfailed _
  have hturn : q.request = s.responsesRead := by
    refine Nat.le_antisymm (hs.turn q hq) (Nat.le_of_not_lt fun hlt => ?_)
    obtain ⟨r', hr', hrequested⟩ := hs.read _ hlt
    rw [hr, Option.some.injEq] at hr'
    rw [← hr', hnot] at hrequested
    exact nomatch hrequested
  have herror : s.responseError q.request r = none := by
    unfold responseError
    rw [hnot, hattached, hfailed, hturn]
    simp
  refine ⟨?_, herror, fun n hn => getResponse_arrives hr hheld herror hn⟩
  rw [hturn]
  exact hs.frontier rfl (hs.due hr herror)

/-- **A cancelled `get_response()` can be repeated**, any number of times, exactly if none of what
it hands out is destroyed or reset, in every run in which nothing is read through that. -/
theorem get_response_repeatable_iff {as : List Action} (hrun : run (step Γ) {} as = some t)
    (hq : Meets (step Γ) Sound {} as) :
    Meets (step Γ) (Spares Γ) {} as ∧ Repeatable Γ t ↔ Meets (step Γ) (Careful Γ) {} as := by
  have hrec : Receiving Γ true t :=
    run_inv_of_meets (P := Receiving Γ true) (fun s a u hs hq h => hs.step (fun _ => hq) h)
      receiving_init hq hrun
  have hspares : Meets (step Γ) (Spares Γ) {} as ↔ Meets (step Γ) (Careful Γ) {} as :=
    meets_iff_meets (I := Receiving Γ false) (fun s a u hs h => hs.step (fun h => nomatch h) h)
      (fun s a u hs h => spares_iff hs h) receiving_init hrun
  rw [hspares]
  exact and_iff_left hrec.repeatable

instance (s : Client P) : ∀ a, Decidable (Careful Γ s a)
  | .releaseResponse i true =>
    inferInstanceAs (Decidable (∀ r ∈ s.readers[i]?, r.void = true → r.attached = true →
      Γ.done r.parser = false → s.receiveShut = true ∧ s.closed = true))
  | .releaseResponse _ false | .submit _ _ _ _ | .contentLength _ _ | .write _ _ _ | .emit _ _
  | .finish _ _ | .releaseRequest _ | .getResponse _ | .receive _ | .deliver _ _ | .readSome _
  | .readDone _ | .shutdown | .gone => inferInstanceAs (Decidable True)

/-- Two attempts are cancelled, and what they hand out is assigned over with what comes next. -/
def assignedOver : List Action :=
  sent 0 ++ [.getResponse 0, .deliver 0 .canceled, .getResponse 0, .deliver 1 .canceled,
    .releaseResponse 0 false, .getResponse 0] ++ arrival 2 ++
    [.deliver 2 .success, .releaseResponse 1 false]

theorem get_response_repeatable_iff_assignedOver :
    ∃ t, run (step twoResponses) {} assignedOver = some t ∧ t.responsesRead = 1 ∧
      Meets (step twoResponses) (Spares twoResponses) {} assignedOver ∧
      Repeatable twoResponses t := by
  have hread : (run (step twoResponses) {} assignedOver).map (fun t => t.responsesRead) =
      some 1 := by
    decide +kernel
  obtain ⟨t, hrun, hread⟩ := Option.map_eq_some_iff.mp hread
  exact ⟨t, hrun, hread,
    (get_response_repeatable_iff hrun (by decide +kernel)).mpr (by decide +kernel)⟩

/-- An attempt is cancelled, and what it hands out goes out of scope. -/
def outOfScope : List Action := sent 0 ++ [.getResponse 0, .deliver 0 .canceled]

/-- **A response that came with a cancelled `get_response()` takes the connection with it** when it
is destroyed. -/
theorem cancelled_response_shuts_down :
    ¬ ∀ as t, run (step twoResponses) {} as = some t → Meets (step twoResponses) Sound {} as →
      Meets (step twoResponses) (Spares twoResponses) {} as ∧ Repeatable twoResponses t := by
  intro h
  have hshut : (run (step twoResponses) {} outOfScope).map (fun s => s.receiveShut) =
      some false := by
    decide +kernel
  have hshut' : (run (step twoResponses) {} (outOfScope ++ [.releaseResponse 0 true])).map
      (fun t => t.receiveShut) = some true := by
    decide +kernel
  have hvoid : ((run (step twoResponses) {} outOfScope).bind fun s => s.readers[0]?).map
      (fun r => r.void) = some true := by
    decide +kernel
  obtain ⟨s, hrun, hshut⟩ := Option.map_eq_some_iff.mp hshut
  obtain ⟨t, hrun', hshut'⟩ := Option.map_eq_some_iff.mp hshut'
  have hspares := (h _ t hrun' (by decide +kernel)).1.last hrun
  have hvain : InVain s (.releaseResponse 0 true) := by
    intro r hr
    rw [hrun, Option.bind_some, hr] at hvoid
    exact Option.some.inj hvoid
  obtain ⟨u, hu, hstep⟩ := run_append_eq_some.mp hrun'
  rw [hrun, Option.some.injEq] at hu
  obtain ⟨v, hv, hnil⟩ := run_cons_eq_some.mp hstep
  rw [← Option.some.inj hnil, (hspares hvain v (hu ▸ hv)).receiveShut, hshut] at hshut'
  exact nomatch hshut'

end AnyHttp.H1.Client
