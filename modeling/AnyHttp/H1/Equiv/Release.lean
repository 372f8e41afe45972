import AnyHttp.H1.Equiv.Stream

/-!
# What a later request does to an earlier response

A request that goes away without having asked for its response leaves that on the connection, and
no response after it can be read any more.  The session remembers that in one flag for all
(`receiveFailed`), so that the responses to earlier requests, which could well be read, are lost
with it (`release_affects_earlier`), unless they have begun to arrive (`Considerate`).
-/

namespace AnyHttp.H1.Client

open Lib

variable {P : Type*} {Γ : Context P} {s t : Client P} {a : Action}

/-- The response to request `i` has been read, or has begun to arrive, or is the user's. -/
def Begun (s : Client P) (i : Nat) : Prop :=
  i < s.responsesRead ∨
    ∃ r ∈ s.readers.getLast?, r.request = i ∧ r.void = false ∧
      (r.delivered = true ∨ 0 < r.consumed)

/-- The last reader has been released before the end of its message. -/
def Stuck (s : Client P) : Prop :=
  ∃ r ∈ s.readers.getLast?, r.finished = true ∧ r.delivered = true ∧ r.void = false ∧
    r.counted = false

/-- When request `j` goes away without having asked for its response, the earlier requests are gone,
too, or their responses have begun to arrive. -/
def Cleared (s : Client P) (j : Nat) : Prop :=
  ∀ i < j, ∀ q ∈ s.requests[i]?, q.released = true ∨ Begun s i

/-- Requests go away without their response only after the earlier ones. -/
def Considerate (s : Client P) : Action → Prop
  | .releaseRequest j =>
    ∀ r ∈ s.requests[j]?, r.writer.writing = none → r.responseRequested = false → Cleared s j
  | .finish j _ => ∀ r ∈ s.requests[j]?, r.held = false →
      (∀ p ∈ r.writer.writing, p.head = false) → r.responseRequested = false → Cleared s j
  | _ => True

/-! ### What readers do -/

theorem begun_of_eq {i : Nat} (h : Begun s i) (hreaders : t.readers = s.readers)
    (hread : t.responsesRead = s.responsesRead) : Begun t i := by
  rw [Begun, hreaders, hread]
  exact h

theorem stuck_of_eq (h : Stuck s) (hreaders : t.readers = s.readers) : Stuck t := by
  rw [Stuck, hreaders]
  exact h

/-- A reader changes, but not back to one that nothing has arrived for. -/
theorem begun_of_set {i k : Nat} {r r' : Reader P} (h : Begun s k) (hr : s.readers[i]? = some r)
    (hreaders : t.readers = s.readers.set i r') (hread : s.responsesRead ≤ t.responsesRead)
    (hsame : r'.request = r.request)
    (hmono : r.void = false → r.delivered = true ∨ 0 < r.consumed →
      r'.void = false ∧ (r'.delivered = true ∨ 0 < r'.consumed)) : Begun t k := by
  rcases h with h | ⟨q, hq, hrequest, hvoid, hbegun⟩
  · exact .inl (Nat.lt_of_lt_of_le h hread)
  · have hi := (List.getElem?_eq_some_iff.mp hr).1
    rw [List.getLast?_eq_getElem?] at hq
    rcases eq_or_ne i (s.readers.length - 1) with heq | hne
    · subst heq
      have : r = q := Option.some.inj (hr.symm.trans hq)
      subst this
      obtain ⟨hvoid', hbegun'⟩ := hmono hvoid hbegun
      refine .inr ⟨r', ?_, hsame.trans hrequest, hvoid', hbegun'⟩
      rw [hreaders, List.getLast?_eq_getElem?, List.length_set]
      exact List.getElem?_set_self hi
    · refine .inr ⟨q, ?_, hrequest, hvoid, hbegun⟩
      rw [hreaders, List.getLast?_eq_getElem?, List.length_set, Option.mem_def,
        List.getElem?_set_ne hne]
      exact hq

theorem stuck_of_set {i : Nat} {r r' : Reader P} (h : Stuck s) (hr : s.readers[i]? = some r)
    (hreaders : t.readers = s.readers.set i r')
    (hmono : r.finished = true → r.delivered = true → r.void = false → r.counted = false →
      r'.finished = true ∧ r'.delivered = true ∧ r'.void = false ∧ r'.counted = false) :
    Stuck t := by
  obtain ⟨q, hq, hfinished, hdelivered, hvoid, hcounted⟩ := h
  have hi := (List.getElem?_eq_some_iff.mp hr).1
  rw [List.getLast?_eq_getElem?] at hq
  rcases eq_or_ne i (s.readers.length - 1) with heq | hne
  · subst heq
    have : r = q := Option.some.inj (hr.symm.trans hq)
    subst this
    refine ⟨r', ?_, hmono hfinished hdelivered hvoid hcounted⟩
    rw [hreaders, List.getLast?_eq_getElem?, List.length_set]
    exact List.getElem?_set_self hi
  · refine ⟨q, ?_, hfinished, hdelivered, hvoid, hcounted⟩
    rw [hreaders, List.getLast?_eq_getElem?, List.length_set, Option.mem_def,
      List.getElem?_set_ne hne]
    exact hq

/-- What a step does to the readers, as far as it matters here. -/
structure Reads (s t : Client P) : Prop where
  begun : ∀ i, Begun s i → Begun t i
  stuck : s.receiveFailed = true → Stuck s → Stuck t

theorem reads_of_eq (hreaders : t.readers = s.readers)
    (hread : t.responsesRead = s.responsesRead) : Reads s t :=
  ⟨fun _ h => begun_of_eq h hreaders hread, fun _ h => stuck_of_eq h hreaders⟩

theorem reads_finishReader {i : Nat} {r r' : Reader P}
    (hr : s.readers[i]? = some r)
    (hsame : r'.request = r.request ∧ r'.counted = r.counted ∧ r'.void = r.void ∧
      r'.finished = r.finished ∧ r'.consumed = r.consumed)
    (hdelivered : r.delivered = true → r'.delivered = true) :
    Reads s (s.finishReader Γ i r') := by
  obtain ⟨hrequest, hcounted, hvoid, hfinished, hconsumed⟩ := hsame
  unfold Client.finishReader
  split_ifs with hc hdone
  · constructor
    · intro k hk
      refine begun_of_set hk hr rfl (Nat.le_succ _) hrequest fun hv hb => ⟨hvoid.trans hv, ?_⟩
      exact hb.imp hdelivered fun h => hconsumed ▸ h
    · intro _ hstuck
      refine stuck_of_set hstuck hr rfl fun hf _ _ _ => ?_
      simp only [Bool.and_eq_true, Bool.not_eq_true'] at hc
      exact absurd ((hfinished.trans hf).symm.trans hc.2) (by decide)
  · constructor
    · intro k hk
      refine begun_of_set hk hr rfl le_rfl hrequest fun hv hb => ⟨hvoid.trans hv, ?_⟩
      exact hb.imp hdelivered fun h => hconsumed ▸ h
    · intro _ hstuck
      exact stuck_of_set hstuck hr rfl fun _ hd hv hn =>
        ⟨rfl, hdelivered hd, hvoid.trans hv, hcounted.trans hn⟩
  · constructor
    · intro k hk
      refine begun_of_set hk hr rfl le_rfl hrequest fun hv hb => ⟨hvoid.trans hv, ?_⟩
      exact hb.imp hdelivered fun h => hconsumed ▸ h
    · intro _ hstuck
      exact stuck_of_set hstuck hr rfl fun hf hd hv hn =>
        ⟨hfinished.trans hf, hdelivered hd, hvoid.trans hv, hcounted.trans hn⟩

theorem reads_set {i : Nat} {r r' : Reader P} (hr : s.readers[i]? = some r)
    (hreaders : t.readers = s.readers.set i r') (hread : t.responsesRead = s.responsesRead)
    (hsame : r'.request = r.request ∧ r'.counted = r.counted ∧ r'.void = r.void ∧
      r'.finished = r.finished)
    (hdelivered : r.delivered = true → r'.delivered = true)
    (hconsumed : r.consumed ≤ r'.consumed) : Reads s t := by
  obtain ⟨hrequest, hcounted, hvoid, hfinished⟩ := hsame
  constructor
  · intro k hk
    refine begun_of_set hk hr hreaders hread.ge hrequest fun hv hb => ⟨hvoid.trans hv, ?_⟩
    exact hb.imp hdelivered fun h => Nat.lt_of_lt_of_le h hconsumed
  · intro _ hstuck
    exact stuck_of_set hstuck hr hreaders fun hf hd hv hn =>
      ⟨hfinished.trans hf, hdelivered hd, hvoid.trans hv, hcounted.trans hn⟩

theorem reads_getResponse (hs : Receiving Γ false s) {k : Nat} (h : s.getResponse Γ k = some t) :
    Reads s t := by
  obtain ⟨r, hr, h⟩ := Option.bind_eq_some_iff.mp h
  obtain ⟨_, h⟩ := Option.ite_none_left_eq_some.mp h
  split_ifs at h with herror
  · rw [← Option.some.inj h]
    exact reads_of_eq rfl rfl
  have herror' : s.responseError k r = none := by simpa using herror
  rw [← Option.some.inj h]
  constructor
  · rintro i (hi | ⟨q, hq, rfl, hvoid, _⟩)
    · exact .inl hi
    · -- the last reader is counted by now
      rcases hs.due hr herror' q hq with hv | hc
      · exact absurd (hv.symm.trans hvoid) (by decide)
      · exact .inl (hs.counted_lt q (List.mem_of_getLast? hq) hc)
  · intro hfailed _
    exact absurd (hfailed.symm.trans (responseError_eq_none herror').2.2.1) (by decide)

theorem reads_deliver {i : Nat} {ec : ErrorCode}
    (h : s.deliver Γ i ec = some t) : Reads s t := by
  obtain ⟨r, hr, h⟩ := Option.bind_eq_some_iff.mp h
  obtain ⟨hc, h⟩ := Option.ite_none_left_eq_some.mp h
  simp only [Bool.or_eq_true, decide_eq_true_eq, not_or, Bool.not_eq_true] at hc
  obtain ⟨hdelivered, _⟩ := hc
  dsimp only at h
  split_ifs at h with hcanceled hsuccess
  · rw [← Option.some.inj h]
    constructor
    · intro k hk
      refine begun_of_set hk hr rfl le_rfl rfl fun _ hb => ?_
      rcases hb with hb | hb
      · exact absurd (hb.symm.trans hdelivered) (by decide)
      · exact absurd hcanceled.2 (Nat.ne_of_gt hb)
    · intro hfailed hstuck
      refine stuck_of_set hstuck hr rfl fun _ hd _ _ => ?_
      exact absurd (hd.symm.trans hdelivered) (by decide)
  · rw [← Option.some.inj h]
    exact reads_finishReader hr ⟨rfl, rfl, rfl, rfl, rfl⟩ fun _ => rfl
  · rw [← Option.some.inj h]
    exact reads_set hr rfl rfl ⟨rfl, rfl, rfl, rfl⟩ (fun _ => rfl) le_rfl

theorem reads_detach (hreaders : t.readers = s.readers.map fun r => { r with attached := false })
    (hread : t.responsesRead = s.responsesRead) : Reads s t := by
  have hlast : ∀ q ∈ s.readers.getLast?, { q with attached := false } ∈ t.readers.getLast? := by
    intro q hq
    rw [hreaders, List.getLast?_map, Option.mem_def.mp hq]
    rfl
  constructor
  · rintro i (hi | ⟨q, hq, hrequest, hvoid, hbegun⟩)
    · exact .inl (hread ▸ hi)
    · exact .inr ⟨_, hlast q hq, hrequest, hvoid, hbegun⟩
  · rintro _ ⟨q, hq, hfinished, hdelivered, hvoid, hcounted⟩
    exact ⟨_, hlast q hq, hfinished, hdelivered, hvoid, hcounted⟩

/-! ### What becomes of the requests -/

/-- Why the responses can not be read any more: a request has gone away without asking for its own,
after all earlier ones, or the last reader before its end. -/
def Explained (s : Client P) : Prop :=
  (∃ m q, s.requests[m]? = some q ∧ q.released = true ∧ q.responseRequested = false ∧
    Cleared s m) ∨ Stuck s

structure Fair (s : Client P) : Prop where
  released : ∀ r ∈ s.requests, r.released = true → r.held = false ∧ r.writer.writing = none
  attached : s.alive = true → s.shuttingDown = false → ∀ r ∈ s.requests, r.writer.attached = true
  failed : s.receiveFailed = true → s.shuttingDown = false → Explained s

theorem fair_init : Fair ({} : Client P) :=
  ⟨by simp, by simp, by simp⟩

/-- What a step does to the requests, as far as it matters here. -/
structure Carries (s t : Client P) : Prop where
  released : ∀ (k : Nat) q, s.requests[k]? = some q → q.released = true →
    ∃ q', t.requests[k]? = some q' ∧ q'.released = true ∧
      (q.responseRequested = false → q'.responseRequested = false)
  new : ∀ (k : Nat) q', t.requests[k]? = some q' →
    (∃ q, s.requests[k]? = some q) ∨ s.requests.length ≤ k

theorem Explained.carry (h : Explained s) (hreads : Reads s t) (hcarries : Carries s t)
    (hfailed : s.receiveFailed = true) : Explained t := by
  rcases h with ⟨m, q, hq, hreleased, hrequested, hcleared⟩ | hstuck
  · obtain ⟨q', hq', hreleased', hsame⟩ := hcarries.released m q hq hreleased
    refine .inl ⟨m, q', hq', hreleased', hsame hrequested, ?_⟩
    intro i hi v hv
    have hm := (List.getElem?_eq_some_iff.mp hq).1
    rcases hcarries.new i v hv with ⟨w, hw⟩ | hnew
    · rcases hcleared i hi w hw with hr | hb
      · obtain ⟨v', hv', hr', _⟩ := hcarries.released i w hw hr
        have : v = v' := Option.some.inj (hv.symm.trans hv')
        exact .inl (this ▸ hr')
      · exact .inr (hreads.begun i hb)
    · omega
  · exact .inr (hreads.stuck hfailed hstuck)

theorem carries_of_eq (hrequests : t.requests = s.requests) : Carries s t := by
  constructor
  · intro k q hq hr
    exact ⟨q, by rw [hrequests, hq], hr, id⟩
  · intro k q hq
    exact .inl ⟨q, by rw [← hrequests, hq]⟩

theorem carries_set {k : Nat} {r r' : Request} (hr : s.requests[k]? = some r)
    (hrequests : t.requests = s.requests.set k r')
    (hreleased : r.released = true → r'.released = true ∧
      (r.responseRequested = false → r'.responseRequested = false)) : Carries s t := by
  have hk := (List.getElem?_eq_some_iff.mp hr).1
  constructor
  · intro j q hq hq'
    rw [hrequests]
    rcases eq_or_ne k j with rfl | hne
    · have : r = q := Option.some.inj (hr.symm.trans hq)
      subst this
      exact ⟨r', List.getElem?_set_self hk, hreleased hq'⟩
    · exact ⟨q, by rw [List.getElem?_set_ne hne, hq], hq', id⟩
  · intro j q hq
    have hj := (List.getElem?_eq_some_iff.mp hq).1
    rw [hrequests, List.length_set] at hj
    exact .inl ⟨_, List.getElem?_eq_getElem hj⟩

theorem carries_append {r : Request} (hrequests : t.requests = s.requests ++ [r]) :
    Carries s t := by
  constructor
  · intro k q hq hr
    have hk := (List.getElem?_eq_some_iff.mp hq).1
    exact ⟨q, by rw [hrequests, List.getElem?_append_left hk, hq], hr, id⟩
  · intro k q _
    rcases Nat.lt_or_ge k s.requests.length with hk | hk
    · exact .inl ⟨_, List.getElem?_eq_getElem hk⟩
    · exact .inr hk

theorem carries_map {f : Request → Request} (hrequests : t.requests = s.requests.map f)
    (hreleased : ∀ r, (f r).released = r.released)
    (hrequested : ∀ r, (f r).responseRequested = r.responseRequested) : Carries s t := by
  constructor
  · intro k q hq hr
    refine ⟨f q, ?_, (hreleased q).trans hr, fun h => (hrequested q).trans h⟩
    rw [hrequests, List.getElem?_map, hq, Option.map_some]
  · intro k q hq
    rw [hrequests, List.getElem?_map, Option.map_eq_some_iff] at hq
    obtain ⟨q', hq', _⟩ := hq
    exact .inl ⟨q', hq'⟩

/-- A step that has nothing to do with the requests, and leaves the flags alone. -/
theorem Fair.of_eq (hs : Fair s) (hreads : Reads s t) (hrequests : t.requests = s.requests)
    (halive : t.alive = s.alive) (hshut : t.shuttingDown = s.shuttingDown)
    (hfailed : t.receiveFailed = s.receiveFailed) : Fair t := by
  refine ⟨?_, ?_, ?_⟩
  · rw [hrequests]
    exact hs.released
  · rw [hrequests, halive, hshut]
    exact hs.attached
  · rw [hfailed, hshut]
    intro hf hn
    exact (hs.failed hf hn).carry hreads (carries_of_eq hrequests) hf

/-- A request changes that has not been released. -/
theorem Fair.set (hs : Fair s) {k : Nat} {r r' : Request} (hr : s.requests[k]? = some r)
    (hrequests : t.requests = s.requests.set k r') (hreads : Reads s t)
    (halive : t.alive = s.alive) (hshut : t.shuttingDown = s.shuttingDown)
    (hfailed : t.receiveFailed = s.receiveFailed) (hlive : r.released = false)
    (hlive' : r'.released = false) (hattached : r'.writer.attached = r.writer.attached) :
    Fair t := by
  have hmem := List.mem_of_getElem? hr
  have hforall : ∀ {p : Request → Prop}, (∀ q ∈ s.requests, p q) → p r' →
      ∀ q ∈ t.requests, p q := by
    intro p hall hp q hq
    rw [hrequests] at hq
    rcases List.mem_or_eq_of_mem_set hq with hq | rfl
    · exact hall q hq
    · exact hp
  refine ⟨?_, ?_, ?_⟩
  · apply hforall hs.released
    intro h
    exact absurd (h.symm.trans hlive') (by decide)
  · rw [halive, hshut]
    intro ha hn
    apply hforall (hs.attached ha hn)
    rw [hattached]
    exact hs.attached ha hn r hmem
  · rw [hfailed, hshut]
    intro hf hn
    refine (hs.failed hf hn).carry hreads (carries_set hr hrequests ?_) hf
    intro h
    exact absurd (h.symm.trans hlive) (by decide)

theorem Fair.live_of_held (hs : Fair s) {r : Request} (hr : r ∈ s.requests) (h : r.held = true) :
    r.released = false := by
  by_contra hne
  exact absurd (h.symm.trans (hs.released r hr (by simpa using hne)).1) (by decide)

theorem Fair.live_of_pass (hs : Fair s) {r : Request} {p : Pass} (hr : r ∈ s.requests)
    (h : r.writer.writing = some p) : r.released = false := by
  by_contra hne
  exact absurd (h.symm.trans (hs.released r hr (by simpa using hne)).2) (by simp)

/-- What is said about a request that goes away without having asked for its response. -/
theorem requestReleased_failed (s : Client P) (k : Nat) (r : Request) :
    (s.requestReleased k r).shuttingDown = s.shuttingDown ∧
      ((s.requestReleased k r).receiveFailed = true →
        s.receiveFailed = true ∨ r.responseRequested = false) := by
  have hsame : (if s.sending = some k then s.requestFailed else s).shuttingDown =
        s.shuttingDown ∧
      (if s.sending = some k then s.requestFailed else s).receiveFailed = s.receiveFailed := by
    split_ifs <;> exact ⟨rfl, rfl⟩
  unfold requestReleased
  cases hr : r.responseRequested with
  | true => exact ⟨hsame.1, fun h => .inl (hsame.2.symm.trans h)⟩
  | false => exact ⟨hsame.1, fun _ => .inr rfl⟩

/-- The destructor of a request, after the earlier ones if it has not asked for its response. -/
theorem Fair.destroyRequest (hs : Fair s) {k : Nat} {r : Request}
    (hr : s.requests[k]? = some r) (hheld : r.held = false)
    (hidle : r.writer.writing = none) (hcleared : r.responseRequested = false → Cleared s k) :
    Fair (s.destroyRequest k r) := by
  have hmem := List.mem_of_getElem? hr
  have hk := (List.getElem?_eq_some_iff.mp hr).1
  set r' : Request := { r with released := true } with hr'
  set u : Client P := { s with requests := s.requests.set k r' } with hu
  have hcarries : Carries s u := carries_set hr rfl fun _ => ⟨rfl, id⟩
  have hreads : Reads s u := reads_of_eq rfl rfl
  have hforall : ∀ {p : Request → Prop}, (∀ q ∈ s.requests, p q) → p r' →
      ∀ q ∈ u.requests, p q := by
    intro p hall hp q hq
    rcases List.mem_or_eq_of_mem_set hq with hq | rfl
    · exact hall q hq
    · exact hp
  have hbase : Fair u := by
    refine ⟨hforall hs.released fun _ => ⟨hheld, hidle⟩, ?_, ?_⟩
    · intro ha hn
      exact hforall (hs.attached ha hn) (hs.attached ha hn r hmem)
    · intro hf hn
      exact (hs.failed hf hn).carry hreads hcarries hf
  unfold Client.destroyRequest
  split_ifs with hattached
  · -- what the session is told changes nothing but its flags
    obtain ⟨hrequests, _, halive, _⟩ := requestReleased_sending u k r
    obtain ⟨hreaders, hread, _⟩ := requestReleased_receiving u k r
    obtain ⟨hshut, hfailed⟩ := requestReleased_failed u k r
    have hreads' : Reads u (u.requestReleased k r) := reads_of_eq hreaders hread
    refine ⟨?_, ?_, ?_⟩
    · rw [hrequests]
      exact hbase.released
    · rw [hrequests, halive, hshut]
      exact hbase.attached
    · intro hf hn
      rw [hshut] at hn
      -- the receiving has failed before, or fails for this request
      rcases hfailed hf with hold | hnot
      · exact (hbase.failed hold hn).carry hreads' (carries_of_eq hrequests) hold
      · refine .inl ⟨k, r', ?_, rfl, hnot, ?_⟩
        · rw [hrequests]
          exact List.getElem?_set_self hk
        · intro i hi q hq
          rw [hrequests, hu, Option.mem_def, List.getElem?_set_ne (Nat.ne_of_gt hi)] at hq
          exact (hcleared hnot i hi q hq).imp id fun h => begun_of_eq h hreaders hread
  · exact hbase

/-- A reader that is done with the stream counts as read, or all others fail. -/
theorem Fair.finishReader (hs : Fair s) (hrec : Receiving Γ false s) {i : Nat} {r r' : Reader P}
    (hr : s.readers[i]? = some r)
    (hsame : r'.request = r.request ∧ r'.counted = r.counted ∧ r'.void = r.void ∧
      r'.finished = r.finished ∧ r'.consumed = r.consumed)
    (hdelivered : r'.delivered = true) : Fair (s.finishReader Γ i r') := by
  have hreads := reads_finishReader (Γ := Γ) hr hsame fun _ => hdelivered
  have hmem := List.mem_of_getElem? hr
  have hok := hrec.reader r hmem
  obtain ⟨hrequest, hcounted, hvoid, hfinished, hconsumed⟩ := hsame
  -- a reader that has not finished is the one of the response that is due
  have hactive : (r'.attached && !r'.finished) = true →
      r.void = false ∧ r.counted = false ∧ i + 1 = s.readers.length := by
    intro hc
    simp only [Bool.and_eq_true, Bool.not_eq_true'] at hc
    have hnot : r.finished = false := hfinished.symm.trans hc.2
    have hv : r.void = false := by
      by_contra h
      exact absurd ((hok.void (by simpa using h)).2.1.symm.trans hnot) (by decide)
    have hn : r.counted = false := by
      by_contra h
      exact absurd ((hok.counted (by simpa using h)).2.symm.trans hnot) (by decide)
    exact ⟨hv, hn, (hrec.last_of_active hr hv hn).1⟩
  unfold Client.finishReader at hreads ⊢
  split_ifs at hreads ⊢ with hc hdone
  · refine ⟨hs.released, hs.attached, fun hf hn => ?_⟩
    exact (hs.failed hf hn).carry hreads (carries_of_eq rfl) hf
  · obtain ⟨hv, hn, hi⟩ := hactive hc
    refine ⟨hs.released, hs.attached, fun _ _ => .inr ?_⟩
    have hlt := (List.getElem?_eq_some_iff.mp hr).1
    refine ⟨{ r' with finished := true }, ?_, rfl, hdelivered, hvoid.trans hv, hcounted.trans hn⟩
    rw [List.getLast?_eq_getElem?, List.length_set, ← hi, Nat.add_sub_cancel]
    exact List.getElem?_set_self hlt
  · exact hs.of_eq hreads rfl rfl rfl rfl

theorem Fair.deliver (hs : Fair s) (hrec : Receiving Γ false s) {i : Nat} {ec : ErrorCode}
    (h : s.deliver Γ i ec = some t) : Fair t := by
  have hreads : Reads s t := reads_deliver h
  obtain ⟨r, hr, h⟩ := Option.bind_eq_some_iff.mp h
  obtain ⟨hc, h⟩ := Option.ite_none_left_eq_some.mp h
  simp only [Bool.or_eq_true, decide_eq_true_eq, not_or, Bool.not_eq_true] at hc
  obtain ⟨hdelivered, hec⟩ := hc
  have hmem := List.mem_of_getElem? hr
  have hok := hrec.reader r hmem
  dsimp only at h
  split_ifs at h with hcanceled hsuccess
  · have hdone : Γ.done r.parser = false := by
      by_contra hd
      have hheader := Γ.headerDone_of_done r.parser (by simpa using hd)
      rw [hcanceled.1] at hec
      exact hec ⟨by simp, fun h => absurd (h.symm.trans hheader) (by decide)⟩
    have hv : r.void = false := by
      by_contra h
      exact absurd ((hok.void (by simpa using h)).1.symm.trans hdelivered) (by decide)
    obtain ⟨_, hlast⟩ := hrec.last_of_active hr hv (hok.not_counted hdone)
    have hdue := (hrec.active r hlast hv (hok.not_counted hdone)).1
    rw [← Option.some.inj h] at hreads ⊢
    -- the request that may ask again is the one whose response is due
    have hget : ∀ {k : Nat} {q : Request}, s.requests[k]? = some q →
        ∃ q', (s.unrequest r.request).requests[k]? = some q' ∧ q'.released = q.released ∧
          (q.responseRequested = false → q'.responseRequested = false) := by
      intro k q hq
      -- a request whose attempt has been in vain may be asked for again
      rcases eq_or_ne r.request k with hk | hne
      · refine ⟨{ q with responseRequested := false }, ?_, rfl, fun _ => rfl⟩
        simp only [unrequest, List.getElem?_modify, if_pos hk, hq]
        rfl
      · exact ⟨q, unrequest_ne hne hq, rfl, id⟩
    have hlength : (s.unrequest r.request).requests.length = s.requests.length :=
      List.length_modify ..
    have hback : ∀ q ∈ (s.unrequest r.request).requests, ∃ q' ∈ s.requests,
        q.released = q'.released ∧ q.held = q'.held ∧ q.writer = q'.writer := by
      intro q hq
      obtain ⟨j, hj, rfl⟩ := List.mem_iff_getElem.mp hq
      rw [hlength] at hj
      refine ⟨s.requests[j], List.getElem_mem hj, ?_⟩
      simp only [unrequest, List.getElem_modify]
      split_ifs <;> exact ⟨rfl, rfl, rfl⟩
    refine ⟨?_, ?_, ?_⟩
    · intro q hq hreleased
      obtain ⟨q', hq', h₁, h₂, h₃⟩ := hback q hq
      rw [h₂, h₃]
      exact hs.released q' hq' (h₁ ▸ hreleased)
    · intro ha hn q hq
      obtain ⟨q', hq', _, _, h₃⟩ := hback q hq
      rw [h₃]
      exact hs.attached ha hn q' hq'
    · intro hf hn
      refine (hs.failed hf hn).carry hreads ⟨?_, ?_⟩ hf
      · intro k q hq hreleased
        obtain ⟨q', hq', h₁, h₂⟩ := hget hq
        exact ⟨q', hq', h₁.trans hreleased, h₂⟩
      · intro k q hq
        have hk := (List.getElem?_eq_some_iff.mp hq).1
        have hk' : k < s.requests.length := hlength ▸ hk
        exact .inl ⟨_, List.getElem?_eq_getElem hk'⟩
  · rw [← Option.some.inj h]
    exact hs.finishReader hrec hr ⟨rfl, rfl, rfl, rfl, rfl⟩ rfl
  · rw [← Option.some.inj h] at hreads ⊢
    exact hs.of_eq hreads rfl rfl rfl rfl

theorem Fair.finish (hs : Fair s) {k : Nat} {ec : ErrorCode}
    (hq : Considerate s (.finish k ec)) (h : s.finish k ec = some t) : Fair t := by
  obtain ⟨r, hr, h⟩ := Option.bind_eq_some_iff.mp h
  obtain ⟨p, hp, h⟩ := Option.bind_eq_some_iff.mp h
  obtain ⟨_, h⟩ := Option.ite_none_left_eq_some.mp h
  have hlive := hs.live_of_pass (List.mem_of_getElem? hr) hp
  have hk := (List.getElem?_eq_some_iff.mp hr).1
  rw [← Option.some.inj h]
  set w := r.writer.finish p ec with hw
  set r' : Request := { r with writer := w, held := r.held || p.head } with hr'
  set u : Client P := { s with
    requests := s.requests.set k r'
    shut := s.shut || (!p.head && ec == ErrorCode.canceled && w.attached) } with hu
  have hrequests := (afterPass_sending u w).1
  have hsame : (u.afterPass w).readers = s.readers ∧
      (u.afterPass w).responsesRead = s.responsesRead ∧ (u.afterPass w).alive = s.alive ∧
      (u.afterPass w).shuttingDown = s.shuttingDown ∧
      (u.afterPass w).receiveFailed = s.receiveFailed := by
    unfold afterPass
    split_ifs <;> exact ⟨rfl, rfl, rfl, rfl, rfl⟩
  obtain ⟨hreaders, hread, halive, hshut, hfailed⟩ := hsame
  have hbase : Fair (u.afterPass w) :=
    hs.set hr hrequests (reads_of_eq hreaders hread) halive hshut hfailed hlive hlive rfl
  split_ifs with hheld
  · exact hbase
  · simp only [hr', Bool.or_eq_true, not_or, Bool.not_eq_true] at hheld
    refine hbase.destroyRequest ?_ (by simp [hr', hheld]) rfl ?_
    · rw [hrequests]
      exact List.getElem?_set_self hk
    · intro hnot i hi q hq'
      have hcleared := hq r hr hheld.1 (by simpa [hp] using hheld.2) hnot
      rw [hrequests, hu, Option.mem_def, List.getElem?_set_ne (Nat.ne_of_gt hi)] at hq'
      exact (hcleared i hi q hq').imp id fun h => begun_of_eq h hreaders hread

theorem Fair.step (hs : Fair s) (hrec : Receiving Γ false s) (hq : Considerate s a)
    (h : step Γ s a = some t) : Fair t := by
  cases a with
  | submit method target host headers =>
    obtain ⟨_, h⟩ := Option.ite_none_right_eq_some.mp h
    rw [← Option.some.inj h, Client.submit]
    split_ifs
    · exact hs
    refine ⟨?_, ?_, ?_⟩
    · intro q hq hreleased
      -- a new request has not been released
      rcases List.mem_append.mp hq with hq | hq
      · exact hs.released q hq hreleased
      · rw [List.mem_singleton.mp hq] at hreleased
        cases hreleased
    · intro ha hn q hq
      -- ... and it is attached
      rcases List.mem_append.mp hq with hq | hq
      · exact hs.attached ha hn q hq
      · rw [List.mem_singleton.mp hq]
        rfl
    · intro hf hn
      exact (hs.failed hf hn).carry (reads_of_eq rfl rfl) (carries_append rfl) hf
  | contentLength k n =>
    obtain ⟨r, hr, h⟩ := Option.bind_eq_some_iff.mp h
    obtain ⟨hheld, h⟩ := Option.ite_none_right_eq_some.mp h
    have hlive := hs.live_of_held (List.mem_of_getElem? hr) hheld
    rw [← Option.some.inj h]
    exact hs.set hr rfl (reads_of_eq rfl rfl) rfl rfl rfl hlive hlive rfl
  | write k data eof =>
    obtain ⟨r, hr, h⟩ := Option.bind_eq_some_iff.mp h
    obtain ⟨hc, h⟩ := Option.ite_none_left_eq_some.mp h
    simp only [Bool.or_eq_true, not_or, Bool.not_eq_true, Bool.not_eq_false'] at hc
    have hlive := hs.live_of_held (List.mem_of_getElem? hr) hc.1
    split_ifs at h
    · exact Option.some.inj h ▸ hs
    · rw [← Option.some.inj h]
      exact hs.set hr rfl (reads_of_eq rfl rfl) rfl rfl rfl hlive hlive rfl
  | emit k n =>
    obtain ⟨r, hr, h⟩ := Option.bind_eq_some_iff.mp h
    obtain ⟨p, hp, h⟩ := Option.bind_eq_some_iff.mp h
    obtain ⟨_, h⟩ := Option.ite_none_left_eq_some.mp h
    have hlive := hs.live_of_pass (List.mem_of_getElem? hr) hp
    rw [← Option.some.inj h]
    exact hs.set hr rfl (reads_of_eq rfl rfl) rfl rfl rfl hlive hlive rfl
  | finish k ec => exact hs.finish hq h
  | releaseRequest k =>
    obtain ⟨r, hr, h⟩ := Option.bind_eq_some_iff.mp h
    obtain ⟨hc, h⟩ := Option.ite_none_right_eq_some.mp h
    simp only [Bool.and_eq_true] at hc
    have hlive := hs.live_of_held (List.mem_of_getElem? hr) hc.1
    have hk := (List.getElem?_eq_some_iff.mp hr).1
    rw [← Option.some.inj h]
    set r' : Request := { r with held := false } with hr'
    have hbase : Fair { s with requests := s.requests.set k r' } :=
      hs.set hr rfl (reads_of_eq rfl rfl) rfl rfl rfl hlive hlive rfl
    split_ifs with hwriting
    · exact hbase
    · have hidle : r.writer.writing = none := by simpa using hwriting
      refine hbase.destroyRequest (List.getElem?_set_self hk) rfl hidle ?_
      intro hnot i hi q hq'
      rw [Option.mem_def, List.getElem?_set_ne (Nat.ne_of_gt hi)] at hq'
      exact (hq r hr hidle hnot i hi q hq').imp id fun h => begun_of_eq h rfl rfl
  | getResponse k =>
    have hreads := reads_getResponse hrec h
    obtain ⟨r, hr, h⟩ := Option.bind_eq_some_iff.mp h
    obtain ⟨hheld, h⟩ := Option.ite_none_left_eq_some.mp h
    have hlive := hs.live_of_held (List.mem_of_getElem? hr) (by simpa using hheld)
    split_ifs at h
    · exact Option.some.inj h ▸ hs
    · rw [← Option.some.inj h] at hreads ⊢
      exact hs.set hr rfl hreads rfl rfl rfl hlive hlive rfl
  | receive i =>
    obtain ⟨r, hr, h⟩ := Option.bind_eq_some_iff.mp h
    obtain ⟨_, h⟩ := Option.ite_none_right_eq_some.mp h
    rw [← Option.some.inj h]
    exact hs.of_eq (reads_set hr rfl rfl ⟨rfl, rfl, rfl, rfl⟩ id (Nat.le_succ _)) rfl rfl rfl rfl
  | deliver i ec => exact hs.deliver hrec h
  | readSome i =>
    obtain ⟨r, hr, h⟩ := Option.bind_eq_some_iff.mp h
    obtain ⟨_, h⟩ := Option.ite_none_right_eq_some.mp h
    rw [← Option.some.inj h]
    exact hs.of_eq (reads_set hr rfl rfl ⟨rfl, rfl, rfl, rfl⟩ id le_rfl) rfl rfl rfl rfl
  | readDone i =>
    obtain ⟨r, hr, h⟩ := Option.bind_eq_some_iff.mp h
    obtain ⟨hc, h⟩ := Option.ite_none_right_eq_some.mp h
    simp only [Bool.and_eq_true] at hc
    rw [← Option.some.inj h]
    split_ifs
    · exact hs.finishReader hrec hr ⟨rfl, rfl, rfl, rfl, rfl⟩ hc.1
    · exact hs.of_eq (reads_set hr rfl rfl ⟨rfl, rfl, rfl, rfl⟩ id le_rfl) rfl rfl rfl rfl
  | releaseResponse i destroy =>
    obtain ⟨r, hr, h⟩ := Option.bind_eq_some_iff.mp h
    obtain ⟨hc, h⟩ := Option.ite_none_right_eq_some.mp h
    simp only [Bool.and_eq_true] at hc
    rw [← Option.some.inj h]
    dsimp only
    split
    · refine Fair.finishReader ?_ ?_ hr ⟨rfl, rfl, rfl, rfl, rfl⟩ hc.1
      · exact hs.of_eq (reads_of_eq rfl rfl) rfl rfl rfl rfl
      · exact hrec.kept (kept_rfl rfl) rfl rfl rfl id
    · exact hs.of_eq (reads_set hr rfl rfl ⟨rfl, rfl, rfl, rfl⟩ id le_rfl) rfl rfl rfl rfl
  | shutdown =>
    obtain ⟨_, h⟩ := Option.ite_none_right_eq_some.mp h
    rw [← Option.some.inj h, Client.shutdown]
    split_ifs
    · exact hs
    refine ⟨?_, by simp, by simp⟩
    intro q hq hreleased
    obtain ⟨q', hq', rfl⟩ := List.mem_map.mp hq
    exact hs.released q' hq' hreleased
  | gone =>
    rw [← Option.some.inj h]
    refine ⟨?_, by simp, ?_⟩
    · intro q hq hreleased
      obtain ⟨q', hq', rfl⟩ := List.mem_map.mp hq
      exact hs.released q' hq' hreleased
    · intro hf hn
      exact (hs.failed hf hn).carry (reads_detach rfl rfl)
        (carries_map rfl (fun _ => rfl) (fun _ => rfl)) hf

/-! ### Responses that arrive are delivered -/

/-- The readers are attached as long as the session is there. -/
def Attached (s : Client P) : Prop :=
  s.alive = true → s.shuttingDown = false → ∀ r ∈ s.readers, r.attached = true

theorem Attached.step (hs : Attached s) (hsend : Sending Γ s) (h : step Γ s a = some t) :
    Attached t := by
  intro halive hopen r hr
  by_cases ha : a = .shutdown
  · subst ha
    obtain ⟨_, h⟩ := Option.ite_none_right_eq_some.mp h
    rw [← Option.some.inj h, Client.shutdown] at halive hopen hr
    -- nothing is left to show if that has shut the session down
    split_ifs at halive hopen hr with hshut
    exact hs halive hopen r hr
  · obtain ⟨heffect, hsteady⟩ := step_effect hsend ha h
    have hslots : ∀ x ∈ s.readSlots, x.attached = true := by
      intro x hx
      obtain ⟨q, hq, rfl⟩ := List.mem_map.mp hx
      exact hs (hsteady.alive halive) (hsteady.shuttingDown ▸ hopen) q hq
    exact heffect.reads_attached hslots halive r.slot (List.mem_map_of_mem hr)

/-- The header of a response to a request of method `m` is in the first `n` bytes from `pos` on. -/
def Arrives (Γ : Context P) (m : Method) (pos n : Nat) : Prop :=
  Γ.headerDone (Γ.automaton.feed (Γ.init m) pos n) = true ∧
    ∀ j < n, Γ.headerDone (Γ.automaton.feed (Γ.init m) pos j) = false ∧
      (Γ.stream (pos + j)).isSome = true

/-- A reader in the middle of the header takes what arrives. -/
theorem receive_arriving {i pos n : Nat} {m : Method} (harrives : Arrives Γ m pos n) :
    ∀ {d : Nat} {s : Client P} {r : Reader P}, d ≤ n → s.readers[i]? = some r →
      r.reading = true → r.delivered = false → s.cursor = pos + (n - d) →
      r.parser = Γ.automaton.feed (Γ.init m) pos (n - d) →
      ∃ t q, run (step Γ) s (List.replicate d (.receive i)) = some t ∧
        t.readers[i]? = some q ∧ q.delivered = false ∧ Γ.headerDone q.parser = true ∧
        q.request = r.request ∧ q.start = r.start := by
  intro d
  -- on the length of what the reader is given
  induction d with
  | zero =>
    intro s r _ hr _ hdelivered _ hparser
    refine ⟨s, r, rfl, hr, hdelivered, ?_, rfl, rfl⟩
    rw [hparser]
    exact harrives.1
  | succ d ih =>
    intro s r hd hr hreading hdelivered hcursor hparser
    have hi := (List.getElem?_eq_some_iff.mp hr).1
    obtain ⟨hheader, hsome⟩ := harrives.2 (n - (d + 1)) (by omega)
    rw [← hparser] at hheader
    rw [← hcursor] at hsome
    have hdone : Γ.done r.parser = false := by
      by_contra h
      have := Γ.headerDone_of_done r.parser (by simpa using h)
      exact absurd (this.symm.trans hheader) (by decide)
    set r' : Reader P :=
      { r with parser := Γ.next r.parser (Γ.stream s.cursor), consumed := r.consumed + 1 } with hr'
    set u : Client P := { s with readers := s.readers.set i r', cursor := s.cursor + 1 } with hu
    have hstep : step Γ s (.receive i) = some u := by
      simp [step, receive, hr, hreading, hdone, hheader, hsome, hu, hr']
    have hnext : n - d = n - (d + 1) + 1 := by omega
    obtain ⟨t, q, hrun, hq⟩ := ih (s := u) (by omega) (List.getElem?_set_self hi)
      hreading hdelivered
      (by rw [hu, hnext]; simp only [hcursor, Nat.add_assoc])
      (by rw [hnext, Automaton.feed, ← hparser, ← hcursor]; rfl)
    refine ⟨t, q, ?_, hq⟩
    rw [List.replicate_succ]
    exact run_cons_eq_some.mpr ⟨u, hstep, hrun⟩

theorem deliver_success {i : Nat} {r : Reader P} (hr : s.readers[i]? = some r)
    (hdelivered : r.delivered = false) (hheader : Γ.headerDone r.parser = true) :
    ∃ t q, step Γ s (.deliver i .success) = some t ∧ t.readers[i]? = some q ∧
      q.held = true ∧ q.request = r.request ∧ q.start = r.start := by
  have hi := (List.getElem?_eq_some_iff.mp hr).1
  set r' : Reader P := { r with reading := false, delivered := true, held := true } with hr'
  have hfinish : ∃ q, (s.finishReader Γ i r').readers[i]? = some q ∧ q.held = true ∧
      q.request = r.request ∧ q.start = r.start := by
    unfold Client.finishReader
    split_ifs
    · exact ⟨_, List.getElem?_set_self hi, rfl, rfl, rfl⟩
    · exact ⟨_, List.getElem?_set_self hi, rfl, rfl, rfl⟩
    · exact ⟨_, List.getElem?_set_self hi, rfl, rfl, rfl⟩
  by_cases hdone : Γ.done r.parser = true
  · obtain ⟨q, hq⟩ := hfinish
    refine ⟨s.finishReader Γ i r', q, ?_, hq⟩
    simp [step, deliver, hr, hdelivered, hheader, hdone, hr']
  · refine ⟨{ s with readers := s.readers.set i r' }, r', ?_, List.getElem?_set_self hi,
      rfl, rfl, rfl⟩
    simp [step, deliver, hr, hdelivered, hheader, hdone, hr']

/-! ### Earlier responses -/

/-- What the failure or the release of a later request leaves to an earlier one: the request whose
turn it is gets its response when that arrives, and a response can be read on. -/
structure Unaffected (Γ : Context P) (s : Client P) : Prop where
  response : s.alive = true → s.shuttingDown = false → ∀ r, s.requests[s.responsesRead]? = some r →
    r.held = true → r.responseRequested = false →
    s.responseError s.responsesRead r = none ∧
      ∀ n, Arrives Γ r.method s.cursor n →
        ∃ t q, run (step Γ) s (.getResponse s.responsesRead ::
            (List.replicate n (.receive s.readers.length) ++
              [.deliver s.readers.length .success])) = some t ∧
          t.readers[s.readers.length]? = some q ∧ q.held = true ∧ q.request = s.responsesRead
  readable : s.alive = true → s.shuttingDown = false → ∀ (i : Nat) r, s.readers[i]? = some r →
    r.held = true → r.reading = false → Γ.done r.parser = false →
    ∃ t, step Γ s (.readSome i) = some t

/-- As long as responses can be read, and be it not for long, one whose turn it is can be. -/
theorem Fair.responseError (hs : Fair s) (hrec : Receiving Γ false s) (halive : s.alive = true)
    (hopen : s.shuttingDown = false) {r : Request} (hr : s.requests[s.responsesRead]? = some r)
    (hheld : r.held = true) (hnot : r.responseRequested = false) :
    s.responseError s.responsesRead r = none := by
  have hattached := hs.attached halive hopen r (List.mem_of_getElem? hr)
  have hfailed : s.receiveFailed = false := by
    by_contra hf
    -- the request that has failed the receiving: one that was released, or one that was asked for
    -- in vain
    rcases hs.failed (by simpa using hf) hopen with
      ⟨m, q, hq, hreleased, hunasked, hcleared⟩ | ⟨q, hq, _, _, hvoid, hcounted⟩
    · rcases Nat.lt_trichotomy s.responsesRead m with hlt | heq | hgt
      · -- the one that has gone away came after this one, which must have begun by then
        rcases hcleared _ hlt r hr with hreleased' | hbegun
        · have := (hs.released r (List.mem_of_getElem? hr) hreleased').1
          exact absurd (this.symm.trans hheld) (by decide)
        · rcases hbegun with hlt | ⟨q', hq', hrequest, hvoid, _⟩
          · exact absurd hlt (Nat.lt_irrefl _)
          · obtain ⟨r', hr', hrequested⟩ := hrec.requested q' (List.mem_of_getLast? hq') hvoid
            rw [hrequest, hr, Option.some.injEq] at hr'
            subst hr'
            exact absurd (hrequested.symm.trans hnot) (by decide)
      · rw [← heq, hr, Option.some.injEq] at hq
        subst hq
        have := (hs.released r (List.mem_of_getElem? hr) hreleased).1
        exact absurd (this.symm.trans hheld) (by decide)
      · obtain ⟨q', hq', hrequested⟩ := hrec.read m hgt
        rw [hq, Option.some.injEq] at hq'
        subst hq'
        exact absurd (hrequested.symm.trans hunasked) (by decide)
    · -- the last reader, which has not been read to its end, is that of this very request
      obtain ⟨hrequest, _⟩ := hrec.active q hq hvoid hcounted
      obtain ⟨r', hr', hrequested⟩ := hrec.requested q (List.mem_of_getLast? hq) hvoid
      rw [hrequest, hr, Option.some.injEq] at hr'
      subst hr'
      exact absurd (hrequested.symm.trans hnot) (by decide)
  simp [Client.responseError, hnot, hattached, hfailed]

theorem getResponse_arrives {k : Nat} {r : Request} (hr : s.requests[k]? = some r)
    (hheld : r.held = true) (herror : s.responseError k r = none) {n : Nat}
    (harrives : Arrives Γ r.method s.cursor n) :
    ∃ t q, run (step Γ) s (.getResponse k :: (List.replicate n (.receive s.readers.length) ++
        [.deliver s.readers.length .success])) = some t ∧
      t.readers[s.readers.length]? = some q ∧ q.held = true ∧ q.request = k ∧
      q.start = s.cursor := by
  set q₀ : Reader P := { request := k, parser := Γ.init r.method, start := s.cursor }
  set u : Client P := { s with
    requests := s.requests.set k { r with responseRequested := true }
    readers := s.readers ++ [q₀] } with hu
  have hstep : step Γ s (.getResponse k) = some u := by
    simp [step, getResponse, hr, hheld, herror, hu, q₀]
  have hq₀ : u.readers[s.readers.length]? = some q₀ := by
    rw [hu]
    exact List.getElem?_concat_length
  obtain ⟨v, q, hrun, hq, hundelivered, hheader, hrequest, hstart⟩ :=
    receive_arriving harrives (le_refl n) hq₀ rfl rfl (by simp [hu]) (by simp [Automaton.feed, q₀])
  obtain ⟨t, q', hdeliver, hq', hheld', hrequest', hstart'⟩ :=
    deliver_success hq hundelivered hheader
  refine ⟨t, q', ?_, hq', hheld', hrequest'.trans hrequest, hstart'.trans hstart⟩
  exact run_cons_eq_some.mpr ⟨u, hstep, run_snoc hrun hdeliver⟩

theorem unaffected_of_invariants (hs : Fair s) (hrec : Receiving Γ false s) (hatt : Attached s) :
    Unaffected Γ s where
  response halive hopen r hr hheld hnot := by
    have herror := hs.responseError hrec halive hopen hr hheld hnot
    refine ⟨herror, fun n hn => ?_⟩
    obtain ⟨t, q, hrun, hq, hheld', hrequest, _⟩ := getResponse_arrives hr hheld herror hn
    exact ⟨t, q, hrun, hq, hheld', hrequest⟩
  readable halive hopen i r hr hheld hreading hdone := by
    have hattached := hatt halive hopen r (List.mem_of_getElem? hr)
    refine ⟨{ s with readers := s.readers.set i { r with reading := true } }, ?_⟩
    simp [step, readSome, hr, hheld, hattached, hreading, hdone]

/-- **An earlier response is not affected by a later request**, in every run in which a request goes
away without having asked for its response only when the earlier responses have begun to arrive, or
are not wanted any more either. -/
theorem earlier_responses_unaffected {as : List Action} (hrun : run (step Γ) {} as = some t)
    (hq : Meets (step Γ) Considerate {} as) : Unaffected Γ t := by
  obtain ⟨hs, hrec, _, hatt⟩ : Fair t ∧ Receiving Γ false t ∧ Sending Γ t ∧ Attached t := by
    refine run_inv_of_meets
      (P := fun s => Fair s ∧ Receiving Γ false s ∧ Sending Γ s ∧ Attached s) ?_
      ⟨fair_init, receiving_init, sending_init, by simp [Attached]⟩ hq hrun
    rintro s a u ⟨hs, hrec, hsend, hatt⟩ hq h
    exact ⟨hs.step hrec hq h, hrec.step (by simp) h, hsend.step h, hatt.step hsend h⟩
  exact unaffected_of_invariants hs hrec hatt

instance (s : Client P) (i : Nat) : Decidable (Begun s i) :=
  inferInstanceAs (Decidable (_ ∨ ∃ r ∈ s.readers.getLast?, _))

instance (s : Client P) (j : Nat) : Decidable (Cleared s j) :=
  inferInstanceAs (Decidable (∀ i < j, ∀ q ∈ s.requests[i]?, _))

instance (s : Client P) : ∀ a, Decidable (Considerate s a)
  | .releaseRequest j =>
    inferInstanceAs (Decidable (∀ r ∈ s.requests[j]?, r.writer.writing = none →
      r.responseRequested = false → Cleared s j))
  | .finish j _ =>
    inferInstanceAs (Decidable (∀ r ∈ s.requests[j]?, r.held = false →
      (∀ p ∈ r.writer.writing, p.head = false) → r.responseRequested = false → Cleared s j))
  | .submit _ _ _ _ | .contentLength _ _ | .write _ _ _ | .emit _ _
  | .getResponse _ | .receive _ | .deliver _ _ | .readSome _ | .readDone _
  | .releaseResponse _ _ | .shutdown | .gone => inferInstanceAs (Decidable True)

/-- The second request goes away after the response to the first one. -/
def releasedAfterwards : List Action :=
  sent 0 ++ sent 1 ++ [.getResponse 0] ++ arrival 0 ++ [.deliver 0 .success, .releaseRequest 1]

theorem earlier_responses_unaffected_releasedAfterwards :
    ∃ t, run (step twoResponses) {} releasedAfterwards = some t ∧
      t.receiveFailed = true ∧ Unaffected twoResponses t := by
  have hfailed : (run (step twoResponses) {} releasedAfterwards).map
      (fun t => t.receiveFailed) = some true := by
    decide +kernel
  obtain ⟨t, hrun, hfailed⟩ := Option.map_eq_some_iff.mp hfailed
  exact ⟨t, hrun, hfailed, earlier_responses_unaffected hrun (by decide +kernel)⟩

/-- The second request goes away before the first one has asked for its response. -/
def releasedBefore : List Action := sent 0 ++ sent 1 ++ [.releaseRequest 1]

/-- **A request that goes away takes the earlier responses with it.** -/
theorem release_affects_earlier :
    ¬ ∀ as t, run (step twoResponses) {} as = some t → Unaffected twoResponses t := by
  intro h
  have hsome : (run (step twoResponses) {} releasedBefore).isSome = true := by decide +kernel
  obtain ⟨t, hrun⟩ := Option.isSome_iff_exists.mp hsome
  have hstate : (run (step twoResponses) {} releasedBefore).map
      (fun t => (t.alive, t.shuttingDown, t.responsesRead)) = some (true, false, 0) := by
    decide +kernel
  have hrequest : ((run (step twoResponses) {} releasedBefore).bind (fun t => t.requests[0]?)).map
      (fun r => (r.held, r.responseRequested)) = some (true, false) := by
    decide +kernel
  have herror : (run (step twoResponses) {} releasedBefore).bind
      (fun t => t.requests[0]?.bind (t.responseError 0)) = some .connectionAborted := by
    decide +kernel
  rw [hrun, Option.map_some, Option.some.injEq, Prod.mk.injEq, Prod.mk.injEq] at hstate
  obtain ⟨halive, hopen, hread⟩ := hstate
  rw [hrun, Option.bind_some] at hrequest herror
  obtain ⟨r, hr, hrequest⟩ := Option.map_eq_some_iff.mp hrequest
  obtain ⟨hheld, hnot⟩ := Prod.mk.inj hrequest
  rw [hr, Option.bind_some] at herror
  have hunaffected := (h _ t hrun).response halive hopen r (by rw [hread, hr]) hheld hnot
  rw [hread, herror] at hunaffected
  exact nomatch hunaffected.1

end AnyHttp.H1.Client
