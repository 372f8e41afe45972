import AnyHttp.H1.Equiv.Interim
import AnyHttp.H3.Equiv.Interim

/-!
# Interim responses

None of the clients knows about interim responses: each of them takes the first one for the response
(`interim_taken_for_response`), and is right only if there are none (`final_responses_delivered`).
-/

namespace AnyHttp

open Lib

/-- **A client gets the final response to each of its requests**, over HTTP/1.1, HTTP/2 (with either
version of nghttp2) and HTTP/3, in every run in which the server does not send interim responses,
and over HTTP/1.1 nothing is read through a response that came with a cancelled `get_response()`. -/
theorem final_responses_delivered (maxHeaderSize : Nat) (x : H2.Answer) :
    (∀ (P : Type) (Γ : H1.Client.Context P) (interim : P → Bool) (as : List H1.Client.Action)
      (t : H1.Client P), run (H1.Client.step Γ) {} as = some t →
        Meets (H1.Client.step Γ) H1.Client.Sound {} as → H1.Client.NoInterim Γ interim t.methods →
        H1.Client.ResponseIsFinal Γ interim t) ∧
      (∀ (backend : H2.Backend) (as rest : List H2.Action) (t : H2.Stream),
        run (follow H2.isHeaders H2.Stream.step)
          (H2.Stream.client backend maxHeaderSize, x.script) as = some (t, rest) →
          x.interim = [] → H2.Stream.ResponseIsFinal x t rest) ∧
      ∀ (as rest : List H3.Action) (t : H3.ClientStream),
        run (follow H3.isHeaders H3.ClientStream.step)
          (H3.ClientStream.init maxHeaderSize, H3.script x) as = some (t, rest) →
          x.interim = [] → H3.ClientStream.ResponseIsFinal x t rest := by
  refine ⟨?_, ?_, ?_⟩
  · intro P Γ interim as t hrun hsound hnone
    exact H1.Client.response_is_final hrun hsound hnone
  · intro backend as rest t hrun hnone
    exact H2.Stream.response_is_final hnone hrun
  · intro as rest t hrun hnone
    exact H3.ClientStream.response_is_final hnone hrun

/-- An answer with an interim response before the final one, ... -/
def hintedAnswer : H2.Answer where
  interim := [[(":status".toList, "103".toList)]]
  final := [(":status".toList, "200".toList), ("server".toList, "a".toList)]
  trailers := []
  isInterim := by decide
  isFinal := by decide
  plain := by decide

/-- ... and without it. -/
def plainAnswer : H2.Answer :=
  { hintedAnswer with
    interim := []
    isInterim := by decide }

theorem final_responses_delivered_plain :
    (∃ t, run (H1.Client.step H1.Client.twoResponses.recorded) {} H1.Client.bothRead = some t ∧
      t.responsesRead = 2 ∧
      H1.Client.ResponseIsFinal H1.Client.twoResponses.recorded H1.Client.isInterim t) ∧
      (∃ t, run (follow H2.isHeaders H2.Stream.step)
        (H2.Stream.client .v1 1000, plainAnswer.script)
        [.asyncGetResponse ⟨0, none⟩, .onHeaders plainAnswer.final] =
          some (t, [.onTrailers []]) ∧ t.responses.length = 1 ∧
        H2.Stream.ResponseIsFinal plainAnswer t [.onTrailers []]) ∧
      ∃ t, run (follow H3.isHeaders H3.ClientStream.step)
        (H3.ClientStream.init 1000, H3.script plainAnswer)
        [.asyncGetResponse ⟨0, none⟩, .onHeaders plainAnswer.final] = some (t, []) ∧
        t.responses.length = 1 ∧ H3.ClientStream.ResponseIsFinal plainAnswer t [] := by
  refine ⟨?_, ?_, ?_⟩
  · have hread : (run (H1.Client.step H1.Client.twoResponses.recorded) {} H1.Client.bothRead).map
        (fun t => (t.responsesRead, t.methods)) = some (2, [.get, .get]) := by
      decide +kernel
    obtain ⟨t, hrun, hread⟩ := Option.map_eq_some_iff.mp hread
    obtain ⟨hread, hmethods⟩ := Prod.mk.inj hread
    refine ⟨t, hrun, hread, ?_⟩
    refine (final_responses_delivered 0 plainAnswer).1 _ _ _ _ t hrun (by decide +kernel) ?_
    rw [hmethods]
    exact H1.Client.noInterim_twoResponses
  · have hlength : (run (follow H2.isHeaders H2.Stream.step)
        (H2.Stream.client .v1 1000, plainAnswer.script)
        [.asyncGetResponse ⟨0, none⟩, .onHeaders plainAnswer.final]).map
        (fun s => (s.1.responses.length, s.2)) = some (1, [.onTrailers []]) := by
      decide +kernel
    obtain ⟨⟨t, rest⟩, hrun, hstate⟩ := Option.map_eq_some_iff.mp hlength
    obtain ⟨hlength, rfl⟩ := Prod.mk.inj hstate
    exact ⟨t, hrun, hlength, (final_responses_delivered _ _).2.1 _ _ _ t hrun rfl⟩
  · have hlength : (run (follow H3.isHeaders H3.ClientStream.step)
        (H3.ClientStream.init 1000, H3.script plainAnswer)
        [.asyncGetResponse ⟨0, none⟩, .onHeaders plainAnswer.final]).map
        (fun s => (s.1.responses.length, s.2)) = some (1, []) := by
      decide +kernel
    obtain ⟨⟨t, rest⟩, hrun, hstate⟩ := Option.map_eq_some_iff.mp hlength
    obtain ⟨hlength, rfl⟩ := Prod.mk.inj hstate
    exact ⟨t, hrun, hlength, (final_responses_delivered _ _).2.2 _ _ t hrun rfl⟩

/-- **An interim response is taken for the response**, with each of the protocols. -/
theorem interim_taken_for_response :
    (¬ ∀ as t, run (H1.Client.step H1.Client.hinted) {} as = some t →
      Meets (H1.Client.step H1.Client.hinted) H1.Client.Sound {} as →
      H1.Client.ResponseIsFinal H1.Client.hinted H1.Client.isInterim t) ∧
      (¬ ∀ backend as t rest, run (follow H2.isHeaders H2.Stream.step)
        (H2.Stream.client backend 1000, hintedAnswer.script) as = some (t, rest) →
        H2.Stream.ResponseIsFinal hintedAnswer t rest) ∧
      ¬ ∀ as t rest, run (follow H3.isHeaders H3.ClientStream.step)
        (H3.ClientStream.init 1000, H3.script hintedAnswer) as = some (t, rest) →
        H3.ClientStream.ResponseIsFinal hintedAnswer t rest := by
  refine ⟨?_, ?_, ?_⟩
  · intro h
    have hreaders : (run (H1.Client.step H1.Client.hinted) {} H1.Client.bothHinted).map
        (fun t => t.readers.map fun r =>
          r.delivered && H1.Client.hinted.headerDone r.parser && H1.Client.isInterim r.parser) =
        some [true, false] := by
      decide +kernel
    obtain ⟨t, hrun, hreaders⟩ := Option.map_eq_some_iff.mp hreaders
    have hfinal := (h _ t hrun (by decide +kernel)).right
    have hmem : true ∈ t.readers.map fun r =>
        r.delivered && H1.Client.hinted.headerDone r.parser && H1.Client.isInterim r.parser := by
      rw [hreaders]
      exact List.mem_cons_self
    obtain ⟨r, hr, hall⟩ := List.mem_map.mp hmem
    simp only [Bool.and_eq_true] at hall
    exact absurd (hall.2.symm.trans (hfinal r hr hall.1.1 hall.1.2).2) (by decide)
  · intro h
    have htrace : (run (follow H2.isHeaders H2.Stream.step)
        (H2.Stream.client .v1 1000, hintedAnswer.script)
        [.asyncGetResponse ⟨0, none⟩, .onHeaders [(":status".toList, "103".toList)]]).map
        (fun s => s.1.trace) = some [.completeResponse ⟨0, none⟩ .success (some (103, []))] := by
      decide +kernel
    obtain ⟨⟨t, rest⟩, hrun, htrace⟩ := Option.map_eq_some_iff.mp htrace
    have hright := (h _ _ t rest hrun).right ⟨0, none⟩ .success 103 [] (by
      rw [show t.trace = _ from htrace]
      exact List.mem_cons_self)
    exact absurd hright.2.1 (by decide)
  · intro h
    have htrace : (run (follow H3.isHeaders H3.ClientStream.step)
        (H3.ClientStream.init 1000, H3.script hintedAnswer)
        [.asyncGetResponse ⟨0, none⟩, .onHeaders [(":status".toList, "103".toList)]]).map
        (fun s => s.1.trace) = some [.completeResponse ⟨0, none⟩ .success (some (103, []))] := by
      decide +kernel
    obtain ⟨⟨t, rest⟩, hrun, htrace⟩ := Option.map_eq_some_iff.mp htrace
    have hright := (h _ t rest hrun).right ⟨0, none⟩ .success 103 [] (by
      rw [show t.trace = _ from htrace]
      exact List.mem_cons_self)
    exact absurd hright.2.1 (by decide)

end AnyHttp
