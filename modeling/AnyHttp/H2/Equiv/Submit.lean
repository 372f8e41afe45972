import AnyHttp.H2.Submit
import Mathlib.Data.List.Perm.Basic

/-!
# Submitting a request is all or nothing, or not

Version 1 goes on after it has told the caller that nghttp2 does not accept the request: a stream is
added whose ID is the error code, and there is something to send.  The caller is told once even
there, since the handler is empty when it is asked to complete for the second time.

* `asyncSubmit_allOrNothing_iff`: that is the only exception, unless such a stream has been left
  behind before.
-/

namespace AnyHttp.H2.Submit

variable {κ : Type} {api : Nghttp2 κ} {s s' : NGHttp2Session κ} {method : List UInt8} {url : Url}
  {headers : Fields}

/-- Nothing has happened to the session but that nghttp2 has been asked. -/
structure Untouched (s s' : NGHttp2Session κ) : Prop where
  streams : s'.streams = s.streams
  lastId : s'.lastId = s.lastId
  sendReady : s'.sendReady = s.sendReady

/-- The handler completes exactly once: with an error, and nothing has happened and there is no
stream whose ID is negative, or with a request on the stream that has been added, and that is the
only one. -/
def AllOrNothing (s : NGHttp2Session κ) (id : Int) (s' : NGHttp2Session κ) : Prop :=
  ∃ c, s'.completions = s.completions ++ [c] ∧ s'.completedEmpty = s.completedEmpty ∧
    (c.ec ≠ .success → c.request = none ∧ Untouched s s' ∧ ∀ x ∈ s'.streams, 0 ≤ x.1) ∧
    (c.ec = .success → ∃ stream : NGHttp2Stream, c.request = some stream ∧ stream.id = id ∧
      0 ≤ id ∧ s'.lastId = id ∧ s'.streams.Perm ((id, stream) :: s.streams))

/-- The answer of nghttp2, if it is asked. -/
def assigned (api : Nghttp2 κ) (s : NGHttp2Session κ) (method : List UInt8) (url : Url)
    (headers : Fields) : Int :=
  s.session.elim 0 fun k => (api.submitRequest k (nva method url headers)).2

/-- nghttp2 does not assign the ID of a stream that there is. -/
def AssignsNew (api : Nghttp2 κ) (s : NGHttp2Session κ) : Prop :=
  ∀ k fields, s.session = some k → 0 ≤ (api.submitRequest k fields).2 →
    (api.submitRequest k fields).2 ∉ s.streams.map Prod.fst

/-- The session gets as far as asking nghttp2. -/
def Version.Asks (version : Version) (api : Nghttp2 κ) (s : NGHttp2Session κ) (k : κ) : Prop :=
  s.session = some k ∧
    match version with
    | .v1 => api.checkRequestAllowed k = true ∧ s.streams.length < api.maxConcurrentStreams k
    | .v2 => s.closing = false

/-- nghttp2 is asked, and refuses the request. -/
def Refused (version : Version) (api : Nghttp2 κ) (s : NGHttp2Session κ) (method : List UInt8)
    (url : Url) (headers : Fields) : Prop :=
  ∃ k, version.Asks api s k ∧ (api.submitRequest k (nva method url headers)).2 < 0

/-- nghttp2 is asked, and accepts the request. -/
def Accepted (version : Version) (api : Nghttp2 κ) (s : NGHttp2Session κ) (method : List UInt8)
    (url : Url) (headers : Fields) : Prop :=
  ∃ k, version.Asks api s k ∧ 0 ≤ (api.submitRequest k (nva method url headers)).2

/-- No ID is negative, unless the request is accepted, in which case it does not matter. -/
def NoneNegative (version : Version) (api : Nghttp2 κ) (s : NGHttp2Session κ) (method : List UInt8)
    (url : Url) (headers : Fields) : Prop :=
  Accepted version api s method url headers ∨ ∀ x ∈ s.streams, 0 ≤ x.1

/-! ### The three ways in which it ends -/

/-- The handler is told an error, and that is all. -/
theorem complete_allOrNothing_iff {ec : ErrorCode} (hec : ec ≠ .success) (id : Int) (k : Option κ) :
    AllOrNothing s id ({ s with session := k, handler := true }.complete { ec := ec }) ↔
      ∀ x ∈ s.streams, 0 ≤ x.1 := by
  constructor
  · rintro ⟨c, honce, -, herror, -⟩
    obtain rfl : { ec := ec } = c := List.singleton_inj.mp (List.append_cancel_left honce)
    exact (herror hec).2.2
  · intro h
    exact ⟨{ ec := ec }, rfl, rfl, fun _ => ⟨rfl, ⟨rfl, rfl, rfl⟩, h⟩, fun hok => absurd hok hec⟩

theorem mem_submitted_streams (s : NGHttp2Session κ) (id : Int) (url : Url) :
    id ∈ (s.submitted id url).streams.map Prod.fst := by
  have hstreams : (s.submitted id url).streams =
      ({ s with lastId := id }.emplace id { id := id, url := url }).streams := by
    unfold NGHttp2Session.submitted NGHttp2Session.complete NGHttp2Session.startWrite
    dsimp only
    split
    · rfl
    · rfl
  rw [hstreams]
  unfold NGHttp2Session.emplace
  split
  · assumption
  · exact List.mem_cons_self

/-- The stream is added, and the handler gets the request. -/
theorem allOrNothing_submitted {id : Int} (hid : 0 ≤ id) (hnew : id ∉ s.streams.map Prod.fst)
    (k : Option κ) :
    AllOrNothing s id ({ s with session := k, handler := true }.submitted id url) := by
  have hemplace : ({ s with session := k, handler := true, lastId := id } :
      NGHttp2Session κ).emplace id { id := id, url := url } =
        { s with session := k, handler := true, lastId := id,
                 streams := (id, { id := id, url := url }) :: s.streams } :=
    if_neg hnew
  unfold NGHttp2Session.submitted
  dsimp only
  rw [hemplace]
  refine ⟨{ ec := .success, request := some { id := id, url := url }, posted := true }, rfl, rfl,
    fun h => absurd rfl h, ?_⟩
  intro _
  exact ⟨{ id := id, url := url }, rfl, rfl, hid, rfl, List.Perm.refl _⟩

/-- The handler is told an error, and the stream is added all the same. -/
theorem submitted_not_allOrNothing {ec : ErrorCode} (hec : ec ≠ .success) {id id' : Int}
    (hid : id < 0) (k : Option κ) :
    ¬AllOrNothing s id' (({ s with session := k, handler := true }.complete
      { ec := ec }).submitted id url) := by
  have hmem := mem_submitted_streams
    ({ s with session := k, handler := true }.complete { ec := ec }) id url
  obtain ⟨x, hx, rfl⟩ := List.mem_map.mp hmem
  rintro ⟨c, honce, -, herror, -⟩
  have hcompletions : (({ s with session := k, handler := true }.complete
      { ec := ec }).submitted x.1 url).completions = s.completions ++ [{ ec := ec }] := by
    unfold NGHttp2Session.submitted NGHttp2Session.emplace
    dsimp only
    split
    · rfl
    · rfl
  rw [hcompletions] at honce
  obtain rfl : { ec := ec } = c := List.singleton_inj.mp (List.append_cancel_left honce)
  -- what has been added is a stream whose ID is negative
  have hnonneg := (herror hec).2.2 x hx
  omega

theorem submitError_ne_success (rv : Int) : V2.submitError api rv ≠ .success := by
  unfold V2.submitError invalidArgument
  split
  · exact nofun
  · split
    · exact nofun
    · exact nofun

/-! ### Both versions -/

/-- Where nghttp2 is not asked, the handler is told an error. -/
theorem exists_error_of_not_asks {version : Version} (h : ∀ k, ¬version.Asks api s k)
    (method : List UInt8) (url : Url) (headers : Fields) :
    ∃ ec, ec ≠ .success ∧ version.asyncSubmit api s method url headers =
      { s with handler := true }.complete { ec := ec } := by
  cases hsession : s.session with
  | none =>
    refine ⟨.canceled, nofun, ?_⟩
    cases version with
    | v1 => unfold Version.asyncSubmit V1.asyncSubmit; rw [hsession]
    | v2 => unfold Version.asyncSubmit V2.asyncSubmit; rw [hsession]
  | some k =>
    cases version with
    | v1 =>
      unfold Version.asyncSubmit V1.asyncSubmit
      rw [hsession]
      dsimp only
      split
      · exact ⟨.canceled, nofun, rfl⟩
      · rename_i hallowed
        rw [Bool.not_eq_true, Bool.not_eq_false'] at hallowed
        split
        · exact ⟨.wouldBlock, nofun, rfl⟩
        · rename_i hlimit
          exact absurd ⟨hsession, hallowed, Nat.not_le.mp hlimit⟩ (h k)
    | v2 =>
      unfold Version.asyncSubmit V2.asyncSubmit
      rw [hsession]
      dsimp only
      split
      · exact ⟨.canceled, nofun, rfl⟩
      · rename_i hclosing
        exact absurd ⟨hsession, Bool.eq_false_of_not_eq_true hclosing⟩ (h k)

/-- Where nghttp2 accepts the request, both versions register the stream. -/
theorem asyncSubmit_of_accepts {version : Version} {k : κ} (h : version.Asks api s k)
    (hid : 0 ≤ (api.submitRequest k (nva method url headers)).2) :
    version.asyncSubmit api s method url headers =
      { s with session := some (api.submitRequest k (nva method url headers)).1,
               handler := true }.submitted
        (api.submitRequest k (nva method url headers)).2 url := by
  obtain ⟨hsession, hversion⟩ := h
  have hnot := Int.not_lt.mpr hid
  cases version with
  | v1 =>
    unfold Version.asyncSubmit V1.asyncSubmit
    rw [hsession]
    dsimp only
    rw [hversion.1, Bool.not_true, if_neg Bool.false_ne_true, if_neg (Nat.not_le.mpr hversion.2),
      if_neg hnot]
  | v2 =>
    unfold Version.asyncSubmit V2.asyncSubmit
    rw [hsession]
    dsimp only
    rw [show s.closing = false from hversion, if_neg Bool.false_ne_true, if_neg hnot]

/-- Where nghttp2 refuses the request, version 2 is done when the handler has been told. -/
theorem v2_of_refuses {k : κ} (h : Version.v2.Asks api s k)
    (hid : (api.submitRequest k (nva method url headers)).2 < 0) :
    V2.asyncSubmit api s method url headers =
      { s with session := some (api.submitRequest k (nva method url headers)).1,
               handler := true }.complete
        { ec := V2.submitError api (api.submitRequest k (nva method url headers)).2 } := by
  obtain ⟨hsession, hclosing⟩ := h
  unfold V2.asyncSubmit
  rw [hsession]
  dsimp only
  rw [show s.closing = false from hclosing, if_neg Bool.false_ne_true, if_pos hid]

/-- Version 1 goes on. -/
theorem v1_of_refuses {k : κ} (h : Version.v1.Asks api s k)
    (hid : (api.submitRequest k (nva method url headers)).2 < 0) :
    V1.asyncSubmit api s method url headers =
      ({ s with session := some (api.submitRequest k (nva method url headers)).1,
                handler := true }.complete { ec := invalidArgument }).submitted
        (api.submitRequest k (nva method url headers)).2 url := by
  obtain ⟨hsession, hallowed, hlimit⟩ := h
  unfold V1.asyncSubmit
  rw [hsession]
  dsimp only
  rw [hallowed, Bool.not_true, if_neg Bool.false_ne_true, if_neg (Nat.not_le.mpr hlimit),
    if_pos hid]

theorem Version.Asks.unique {version : Version} {k k' : κ} (h : version.Asks api s k)
    (h' : version.Asks api s k') : k = k' :=
  Option.some.inj (h.1.symm.trans h'.1)

/-- **All or nothing**, for both versions, unless version 1 is told by nghttp2 that it does not
accept the request, or such a request has left its stream behind and another one fails. -/
theorem asyncSubmit_allOrNothing_iff (version : Version) (api : Nghttp2 κ) (s : NGHttp2Session κ)
    (method : List UInt8) (url : Url) (headers : Fields) (hnew : AssignsNew api s) :
    AllOrNothing s (assigned api s method url headers)
        (version.asyncSubmit api s method url headers) ↔
      ¬(version = .v1 ∧ Refused version api s method url headers) ∧
        NoneNegative version api s method url headers := by
  by_cases hasks : ∃ k, version.Asks api s k
  · obtain ⟨k, hasks⟩ := hasks
    have hassigned : assigned api s method url headers =
        (api.submitRequest k (nva method url headers)).2 := by
      unfold assigned
      rw [hasks.1]
      rfl
    rw [hassigned]
    by_cases hid : 0 ≤ (api.submitRequest k (nva method url headers)).2
    · rw [asyncSubmit_of_accepts hasks hid]
      constructor
      · intro _
        refine ⟨?_, .inl ⟨k, hasks, hid⟩⟩
        rintro ⟨-, k', hasks', hneg⟩
        obtain rfl := hasks.unique hasks'
        omega
      · intro _
        exact allOrNothing_submitted hid (hnew k _ hasks.1 hid) _
    · have hneg := Int.not_le.mp hid
      have hnone : NoneNegative version api s method url headers ↔ ∀ x ∈ s.streams, 0 ≤ x.1 := by
        refine or_iff_right ?_
        rintro ⟨k', hasks', hid'⟩
        obtain rfl := hasks.unique hasks'
        exact hid hid'
      cases version with
      | v1 =>
        constructor
        · intro h
          rw [show Version.v1.asyncSubmit api s method url headers = _ from
            v1_of_refuses hasks hneg] at h
          have hec : invalidArgument ≠ .success := nofun
          exact absurd h (submitted_not_allOrNothing hec hneg _)
        · rintro ⟨hrefused, -⟩
          exact absurd ⟨rfl, k, hasks, hneg⟩ hrefused
      | v2 =>
        rw [show Version.v2.asyncSubmit api s method url headers = _ from
          v2_of_refuses hasks hneg, complete_allOrNothing_iff (submitError_ne_success _), hnone]
        have hother : ¬(Version.v2 = .v1 ∧ Refused .v2 api s method url headers) :=
          fun h => absurd h.1 nofun
        exact (and_iff_right hother).symm
  · have hnot : ∀ k, ¬version.Asks api s k := fun k hk => hasks ⟨k, hk⟩
    obtain ⟨ec, hec, hresult⟩ := exists_error_of_not_asks hnot method url headers
    rw [hresult]
    have hnone : NoneNegative version api s method url headers ↔ ∀ x ∈ s.streams, 0 ≤ x.1 :=
      or_iff_right fun ⟨k, hk, _⟩ => hnot k hk
    rw [hnone, and_iff_right fun ⟨_, k, hk, _⟩ => hnot k hk]
    exact complete_allOrNothing_iff hec _ s.session

/-- A session that assigns the IDs of a client, as many as there are below `limit`. -/
def client (limit : Nat) : Nghttp2 Nat where
  checkRequestAllowed _ := true
  maxConcurrentStreams _ := 100
  submitRequest k _ :=
    if 2 * k + 1 < limit then (k + 1, 2 * k + 1)
    -- NGHTTP2_ERR_STREAM_ID_NOT_AVAILABLE
    else (k, -509)
  streamIdBlocked := -534
  refusedStream := -533

/-- The URL that is asked for in the following. -/
def root : Url := ⟨text "https", text "/", text "localhost"⟩

/-- A second request, of version 1, while there is another stream. -/
theorem asyncSubmit_allOrNothing_second :
    AllOrNothing { session := some 1, streams := [(1, ⟨1, root⟩)], lastId := 1 } 3
      (Version.v1.asyncSubmit (client (2 ^ 31))
        { session := some 1, streams := [(1, ⟨1, root⟩)], lastId := 1 } (text "GET") root []) := by
  have hnew : AssignsNew (client (2 ^ 31))
      { session := some 1, streams := [(1, ⟨1, root⟩)], lastId := 1 } := by
    intro k fields hk _
    obtain rfl : 1 = k := Option.some.inj hk
    show (3 : Int) ∉ [1]
    decide
  apply (asyncSubmit_allOrNothing_iff .v1 (client (2 ^ 31)) _ (text "GET") root [] hnew).mpr
  refine ⟨?_, .inl ⟨1, ⟨rfl, rfl, by decide⟩, by decide⟩⟩
  rintro ⟨_, k, hasks, hneg⟩
  obtain rfl : 1 = k := Option.some.inj hasks.1
  exact absurd hneg (by decide)

/-- All the IDs have been used. The caller gets an error, and there is a stream `-509`. -/
theorem v1_not_allOrNothing :
    ¬AllOrNothing { session := some (2 ^ 30), lastId := 2 ^ 31 - 1 } (-509)
      (Version.v1.asyncSubmit (client (2 ^ 31))
        { session := some (2 ^ 30), lastId := 2 ^ 31 - 1 } (text "GET") root []) := by
  rintro ⟨c, honce, -, herror, -⟩
  have hcompletions : (Version.v1.asyncSubmit (client (2 ^ 31))
      { session := some (2 ^ 30), lastId := 2 ^ 31 - 1 } (text "GET") root []).completions =
        [{ ec := invalidArgument }] := by
    decide
  have hid : -509 ∈ (Version.v1.asyncSubmit (client (2 ^ 31))
      { session := some (2 ^ 30), lastId := 2 ^ 31 - 1 } (text "GET") root []).streams.map
        Prod.fst := by
    decide
  rw [hcompletions] at honce
  obtain rfl : { ec := invalidArgument } = c := List.singleton_inj.mp honce
  obtain ⟨x, hx, hneg⟩ := List.mem_map.mp hid
  have hnonneg := (herror nofun).2.2 x hx
  omega

end AnyHttp.H2.Submit
