import AnyHttp.H1.Equiv.Release

/-!
# Interim responses over HTTP/1.1

For Beast, an interim response is a message that ends with its header, and a client takes the next
message for the response to the next request.  As long as there are none, this is the final response
to it (`response_is_final`).
-/

namespace AnyHttp.H1.Client

open Lib

variable {P : Type*} {Γ : Context P} {s t : Client P} {a : Action} {interim : P → Bool}

/-- A part of the response to the `k`-th request begins at `pos`, be it an interim response or the
final one: the final responses to those before end there, or another interim response to it. -/
inductive Part (Γ : Context P) (interim : P → Bool) (methods : List Method) : Nat → Nat → Prop
  | first : Part Γ interim methods 0 0
  | interim {k pos n : Nat} {m : Method} (hpos : Part Γ interim methods k pos)
      (hm : methods[k]? = some m) (hn : Γ.automaton.IsMessage (Γ.init m) pos n)
      (hinterim : interim (Γ.automaton.feed (Γ.init m) pos n) = true) :
      Part Γ interim methods k (pos + n)
  | final {k pos n : Nat} {m : Method} (hpos : Part Γ interim methods k pos)
      (hm : methods[k]? = some m) (hn : Γ.automaton.IsMessage (Γ.init m) pos n)
      (hfinal : interim (Γ.automaton.feed (Γ.init m) pos n) = false) :
      Part Γ interim methods (k + 1) (pos + n)

/-- What is delivered to a request is the final response to it, and not more than once. -/
structure ResponseIsFinal (Γ : Context P) (interim : P → Bool) (s : Client P) : Prop where
  right : ∀ r ∈ s.readers, r.delivered = true → Γ.headerDone r.parser = true →
    Part Γ interim s.methods r.request r.start ∧ interim r.parser = false
  once : s.readers.Pairwise fun r q => r.void = false → q.void = false → r.request ≠ q.request

/-- The peer does not send interim responses: none of the messages on the stream is one. -/
def NoInterim (Γ : Context P) (interim : P → Bool) (methods : List Method) : Prop :=
  ∀ k pos m n, At Γ methods k pos → methods[k]? = some m →
    (∀ j < n, Γ.done (Γ.automaton.feed (Γ.init m) pos j) = false) →
    interim (Γ.automaton.feed (Γ.init m) pos n) = false

/-- Then the messages are the final responses, one after the other. -/
theorem At.part {ms : List Method} (hnone : NoInterim Γ interim ms) {k pos : Nat}
    (h : At Γ ms k pos) : Part Γ interim ms k pos := by
  induction h with
  | first => exact .first
  | next hpos hm hn ih => exact .final ih hm hn (hnone _ _ _ _ hpos hm hn.2)

/-! ### One reader for a request -/

/-- No two readers are for the same request, but for those that came to nothing. -/
def Distinct (s : Client P) : Prop :=
  s.readers.Pairwise fun r q => r.void = false → q.void = false → r.request ≠ q.request

/-- A reader changes, but not the request it is for. -/
theorem Distinct.set (hs : Distinct s) {i : Nat} {r r' : Reader P} (hr : s.readers[i]? = some r)
    (hreaders : t.readers = s.readers.set i r') (hrequest : r'.request = r.request)
    (hvoid : r'.void = false → r.void = false) : Distinct t := by
  unfold Distinct at hs ⊢
  rw [hreaders]
  rw [List.pairwise_iff_getElem] at hs ⊢
  intro j k hj hk hjk
  obtain ⟨hi, hri⟩ := List.getElem?_eq_some_iff.mp hr
  rw [List.length_set] at hj hk
  have hpair := hs j k hj hk hjk
  rw [List.getElem_set, List.getElem_set]
  split
  · rename_i hij
    rw [if_neg (by omega), hrequest]
    subst hij
    rw [hri] at hpair
    exact fun hv => hpair (hvoid hv)
  · split
    · rename_i hik
      rw [hrequest]
      subst hik
      rw [hri] at hpair
      exact fun hv hw => hpair hv (hvoid hw)
    · exact hpair

theorem Distinct.of_eq (hs : Distinct s) (hreaders : t.readers = s.readers) : Distinct t := by
  unfold Distinct
  rw [hreaders]
  exact hs

theorem Distinct.finishReader (hs : Distinct s) {i : Nat} {r r' : Reader P}
    (hr : s.readers[i]? = some r) (hrequest : r'.request = r.request)
    (hvoid : r'.void = false → r.void = false) : Distinct (s.finishReader Γ i r') := by
  unfold Client.finishReader
  split_ifs
  · exact hs.set hr rfl hrequest hvoid
  · exact hs.set hr rfl hrequest hvoid
  · exact hs.set hr rfl hrequest hvoid

/-- The readers are detached. -/
theorem Distinct.detach (hs : Distinct s)
    (hreaders : t.readers = s.readers.map fun r => { r with attached := false }) : Distinct t := by
  unfold Distinct
  rw [hreaders, List.pairwise_map]
  exact hs

/-- A response is asked for once: the request of an earlier reader has asked for it already. -/
theorem Distinct.getResponse (hs : Distinct s) (hrec : Receiving Γ true s) {k : Nat}
    (h : s.getResponse Γ k = some t) : Distinct t := by
  obtain ⟨r, hr, h⟩ := Option.bind_eq_some_iff.mp h
  obtain ⟨_, h⟩ := Option.ite_none_left_eq_some.mp h
  split_ifs at h with herror
  · exact Option.some.inj h ▸ hs
  · rw [← Option.some.inj h]
    have hunasked : r.responseRequested = false :=
      (responseError_eq_none (Option.not_isSome_iff_eq_none.mp herror)).1
    refine List.pairwise_append.mpr ⟨hs, List.pairwise_singleton _ _, ?_⟩
    intro q hq new hnew hvoid _ hsame
    obtain ⟨q', hq', hasked⟩ := hrec.requested q hq hvoid
    rw [hsame, List.mem_singleton.mp hnew] at hq'
    rw [Option.some.inj (hr.symm.trans hq')] at hunasked
    exact absurd (hunasked.symm.trans hasked) (by decide)

theorem Distinct.step (hs : Distinct s) (hrec : Receiving Γ true s) (h : step Γ s a = some t) :
    Distinct t := by
  cases a with
  | submit method target host headers =>
    obtain ⟨_, h⟩ := Option.ite_none_right_eq_some.mp h
    rw [← Option.some.inj h, Client.submit]
    split_ifs
    · exact hs
    · exact hs.of_eq rfl
  | contentLength k n =>
    obtain ⟨r, _, h⟩ := Option.bind_eq_some_iff.mp h
    obtain ⟨_, h⟩ := Option.ite_none_right_eq_some.mp h
    rw [← Option.some.inj h]
    exact hs.of_eq rfl
  | write k data eof =>
    obtain ⟨r, _, h⟩ := Option.bind_eq_some_iff.mp h
    obtain ⟨_, h⟩ := Option.ite_none_left_eq_some.mp h
    split_ifs at h
    · exact Option.some.inj h ▸ hs
    · rw [← Option.some.inj h]
      exact hs.of_eq rfl
  | emit k n =>
    obtain ⟨r, _, h⟩ := Option.bind_eq_some_iff.mp h
    obtain ⟨p, _, h⟩ := Option.bind_eq_some_iff.mp h
    obtain ⟨_, h⟩ := Option.ite_none_left_eq_some.mp h
    rw [← Option.some.inj h]
    exact hs.of_eq rfl
  | finish k ec => exact hs.of_eq (finish_readers h).1
  | releaseRequest k =>
    obtain ⟨r, _, h⟩ := Option.bind_eq_some_iff.mp h
    obtain ⟨_, h⟩ := Option.ite_none_right_eq_some.mp h
    rw [← Option.some.inj h]
    split_ifs
    · exact hs.of_eq rfl
    · exact hs.of_eq (destroyRequest_readers _ k _).1
  | getResponse k => exact hs.getResponse hrec h
  | receive i =>
    obtain ⟨r, hr, h⟩ := Option.bind_eq_some_iff.mp h
    obtain ⟨_, h⟩ := Option.ite_none_right_eq_some.mp h
    rw [← Option.some.inj h]
    exact hs.set hr rfl rfl id
  | deliver i ec =>
    obtain ⟨r, hr, h⟩ := Option.bind_eq_some_iff.mp h
    obtain ⟨_, h⟩ := Option.ite_none_left_eq_some.mp h
    dsimp only at h
    split_ifs at h
    · rw [← Option.some.inj h]
      exact hs.set hr rfl rfl fun hv => by cases hv
    · rw [← Option.some.inj h]
      exact hs.finishReader hr rfl id
    · rw [← Option.some.inj h]
      exact hs.set hr rfl rfl id
  | readSome i =>
    obtain ⟨r, hr, h⟩ := Option.bind_eq_some_iff.mp h
    obtain ⟨_, h⟩ := Option.ite_none_right_eq_some.mp h
    rw [← Option.some.inj h]
    exact hs.set hr rfl rfl id
  | readDone i =>
    obtain ⟨r, hr, h⟩ := Option.bind_eq_some_iff.mp h
    obtain ⟨_, h⟩ := Option.ite_none_right_eq_some.mp h
    rw [← Option.some.inj h]
    split_ifs
    · exact hs.finishReader hr rfl id
    · exact hs.set hr rfl rfl id
  | releaseResponse i destroy =>
    obtain ⟨r, hr, h⟩ := Option.bind_eq_some_iff.mp h
    obtain ⟨_, h⟩ := Option.ite_none_right_eq_some.mp h
    rw [← Option.some.inj h]
    dsimp only
    split
    · apply Distinct.finishReader
      · exact hs.of_eq rfl
      · exact hr
      · rfl
      · exact id
    · exact hs.set hr rfl rfl id
  | shutdown =>
    obtain ⟨_, h⟩ := Option.ite_none_right_eq_some.mp h
    rw [← Option.some.inj h, Client.shutdown]
    split_ifs
    · exact hs
    · exact hs.detach rfl
  | gone =>
    rw [← Option.some.inj h]
    exact hs.detach rfl

/-- Without interim responses, what a request gets is the final response to it, as long as nothing
is read through a response that came with a cancelled `get_response()`. -/
theorem response_is_final {as : List Action} (hrun : run (step Γ) {} as = some t)
    (hq : Meets (step Γ) Sound {} as) (hnone : NoInterim Γ interim t.methods) :
    ResponseIsFinal Γ interim t := by
  obtain ⟨hrec, hdistinct⟩ : Receiving Γ true t ∧ Distinct t :=
    run_inv_of_meets (P := fun s => Receiving Γ true s ∧ Distinct s)
      (fun s a u hs hq h => ⟨hs.1.step (fun _ => hq) h, hs.2.step hs.1 h⟩)
      ⟨receiving_init, .nil⟩ hq hrun
  refine ⟨fun r hr _ _ => ?_, hdistinct⟩
  obtain ⟨hstart, ⟨m, hm, hparser, hbefore⟩, _⟩ := (hrec.reader r hr).inPlace rfl
  rw [hparser]
  exact ⟨hstart.part hnone, hnone _ _ _ _ hstart hm hbefore⟩

/-! ### With plain responses -/

/-- With the header so far, besides what the parser makes of it. -/
def Context.recorded (Γ : Context P) : Context (List UInt8 × P) where
  beast := Γ.beast
  init m := ([], Γ.init m)
  next p c := (if Γ.headerDone p.2 then p.1 else p.1 ++ c.toList, Γ.next p.2 c)
  headerDone p := Γ.headerDone p.2
  done p := Γ.done p.2
  headerDone_of_done p := Γ.headerDone_of_done p.2
  stream := Γ.stream

/-- A status code from 100 to 199, but for 101. -/
def isInterim (p : List UInt8 × P) : Bool :=
  (p.1.drop 9).take 1 == ascii ['1'] && (p.1.drop 9).take 3 != ascii "101".toList

/-- Two final responses answer two requests. -/
theorem noInterim_twoResponses :
    NoInterim twoResponses.recorded isInterim [.get, .get] := by
  have hfirst : twoResponses.recorded.automaton.IsMessage (twoResponses.recorded.init .get) 0 38 :=
    ⟨by decide +kernel, by decide +kernel⟩
  have hsecond : twoResponses.recorded.automaton.done
      (twoResponses.recorded.automaton.feed (twoResponses.recorded.init .get) 38 38) = true := by
    decide +kernel
  intro k pos m n hat hm hbefore
  match k, hm with
  | 0, hm =>
    obtain rfl : Method.get = m := Option.some.inj hm
    obtain rfl : pos = 0 := by cases hat; rfl
    have hall : ∀ n < 39, isInterim (twoResponses.recorded.automaton.feed
        (twoResponses.recorded.init .get) 0 n) = false := by
      decide +kernel
    exact hall n (Nat.lt_succ_of_le (Automaton.IsMessage.le hfirst.1 hbefore))
  | 1, hm =>
    obtain rfl : Method.get = m := Option.some.inj hm
    obtain rfl : pos = 38 := by
      cases hat with
      | next hpos hm hn =>
        cases hpos
        rw [← Option.some.inj hm] at hn
        rw [hfirst.unique hn, Nat.zero_add]
    have hall : ∀ n < 39, isInterim (twoResponses.recorded.automaton.feed
        (twoResponses.recorded.init .get) 38 n) = false := by
      decide +kernel
    exact hall n (Nat.lt_succ_of_le (Automaton.IsMessage.le hsecond hbefore))
  | k + 2, hm => exact nomatch hm

/-- An interim response and the final one to a request, and the response to another. -/
def hinted : Context (List UInt8 × Bool × PlainParser) :=
  let response := "HTTP/1.1 200 OK\r\nContent-Length: 0\r\n\r\n".toList
  (Context.plain
    (ascii ("HTTP/1.1 103 Early Hints\r\n\r\n".toList ++ response ++ response))).recorded

/-- Two requests are sent; the first one gets the interim response, and the second one gets the
final response to the first one. -/
def bothHinted : List Action :=
  sent 0 ++ sent 1 ++ [.getResponse 0] ++ List.replicate 28 (.receive 0) ++
    [.deliver 0 .success, .getResponse 1] ++ List.replicate 38 (.receive 1) ++ [.deliver 1 .success]

end AnyHttp.H1.Client
