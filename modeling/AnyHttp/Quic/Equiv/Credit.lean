import AnyHttp.Quic.Credit

/-!
# One stream for another

The peer gets another stream for each one that is closed, as long as none of an HTTP/3 connection is
closed without data: nghttp3 has never heard of such a stream, and does not call back for it.

* `credit_iff`: throughout a run, and for both applications.
* `mayOpen_of_conserved`: how many streams the peer may have open at once.
-/

namespace AnyHttp.Quic.Credit

open Lib

variable {lib : Nghttp3} {app : Application} {s t : Connection lib} {n initial : Nat}
  {stream : PeerStream}

/-! ### Streams -/

theorem streamId_inj {n m : Nat} (h : streamId n = streamId m) : n = m := by
  unfold streamId at h
  omega

theorem open?_eq_some :
    s.open? n = some stream ↔
      s.failed = false ∧ s.streams[n]? = some stream ∧ stream.closed = false := by
  unfold Connection.open?
  by_cases hfailed : s.failed = true
  · simp [hfailed]
  · simp [hfailed, Option.filter_eq_some_iff]

/-- How the number of closed streams changes. -/
theorem countP_set (h : s.streams[n]? = some stream) (hopen : stream.closed = false)
    (new : PeerStream) :
    (s.streams.set n new).countP (·.closed) =
      s.streams.countP (·.closed) + if new.closed then 1 else 0 := by
  obtain ⟨hlt, rfl⟩ := List.getElem?_eq_some_iff.mp h
  rw [List.countP_set hlt, hopen]
  simp

/-! ### What closing a stream comes to -/

theorem perform_plain (s : Connection lib) (found : Bool) (id : Nat) (flag : Option Nat) :
    s.perform (StreamApplication.streamClose found true id flag) =
      { s with maxStreams := s.maxStreams + 1 } := by
  cases found with
  | true => rfl
  | false => rfl

theorem perform_local (s : Connection lib) (found : Bool) (id : Nat) (flag : Option Nat) :
    s.perform (StreamApplication.streamClose found false id flag) = s := by
  cases found with
  | true => rfl
  | false => rfl

theorem perform_http3 (s : Connection lib) (found : Bool) (id code : Nat) :
    s.perform (Http3Application.h3CbStreamClose found id code) =
      { s with maxStreams := s.maxStreams + 1 } := by
  cases found with
  | true => rfl
  | false => rfl

/-- A stream that nghttp3 knows is closed in its callback. -/
theorem streamClose_known {id : Nat} (h : lib.knows s.h3 id = true) (found : Bool)
    (flag : Option Nat) :
    ∃ h3, Http3Application.streamClose lib s.h3 found id flag =
        some (h3, Http3Application.h3CbStreamClose found id (flag.getD h3NoError)) ∧
      ∀ j, lib.knows h3 j = (j != id && lib.knows s.h3 j) := by
  obtain ⟨h3, hclose, hknows⟩ := lib.closeStream_known s.h3 id (flag.getD h3NoError) h
  refine ⟨h3, ?_, hknows⟩
  rw [Http3Application.streamClose, hclose]
  simp

/-- Nothing is done about one that it does not know. -/
theorem streamClose_unknown {id : Nat} (h : lib.knows s.h3 id = false) (found : Bool)
    (flag : Option Nat) :
    ∃ h3, Http3Application.streamClose lib s.h3 found id flag = some (h3, []) ∧
      ∀ j, lib.knows h3 j = lib.knows s.h3 j := by
  obtain ⟨h3, hclose, hknows⟩ := lib.closeStream_unknown s.h3 id (flag.getD h3NoError) h
  refine ⟨h3, ?_, hknows⟩
  rw [Http3Application.streamClose, hclose]
  rfl

/-! ### What is known -/

/-- nghttp3 knows the streams that it has had data of, and that have not been closed. -/
def Known (app : Application) (s : Connection lib) : Prop :=
  app = .http3 → ∀ n, lib.knows s.h3 (streamId n) = true ↔
    ∃ stream, s.streams[n]? = some stream ∧ stream.sawData = true ∧ stream.closed = false

/-- One stream has changed. -/
theorem Known.set (hk : Known .http3 s) (h3 : lib.State) (new : PeerStream)
    (h : s.streams[n]? = some stream)
    (hother : ∀ m, m ≠ n → lib.knows h3 (streamId m) = lib.knows s.h3 (streamId m))
    (hnew : lib.knows h3 (streamId n) = true ↔ new.sawData = true ∧ new.closed = false)
    (hstreams : t.streams = s.streams.set n new) (ht : t.h3 = h3) : Known .http3 t := by
  intro _ m
  rw [hstreams, ht]
  by_cases hm : m = n
  · rw [hm, hnew]
    constructor
    · exact fun hsaw => ⟨new, (getElem?_set_eq_some h).mpr (.inl ⟨rfl, rfl⟩), hsaw⟩
    · rintro ⟨other, hother, hsaw⟩
      obtain ⟨_, rfl⟩ | ⟨hne, _⟩ := (getElem?_set_eq_some h).mp hother
      · exact hsaw
      · exact absurd rfl hne
  · rw [hother m hm, hk rfl m]
    constructor
    · rintro ⟨other, hother, hsaw⟩
      exact ⟨other, (getElem?_set_eq_some h).mpr (.inr ⟨hm, hother⟩), hsaw⟩
    · rintro ⟨other, hother, hsaw⟩
      obtain ⟨heq, _⟩ | ⟨_, hother⟩ := (getElem?_set_eq_some h).mp hother
      · exact absurd heq hm
      · exact ⟨other, hother, hsaw⟩

theorem Known.of_eq (hk : Known app s) (hstreams : t.streams = s.streams)
    (hknows : ∀ j, lib.knows t.h3 j = lib.knows s.h3 j) : Known app t := by
  intro happ m
  rw [hstreams, hknows]
  exact hk happ m

theorem Known.shutdownStreamRead (hk : Known app s) (id : Nat) :
    Known app (s.shutdownStreamRead id) := by
  unfold Connection.shutdownStreamRead
  cases hread : lib.shutdownStreamRead s.h3 id with
  | none => exact hk.of_eq rfl fun _ => rfl
  | some h3 => exact hk.of_eq rfl (lib.knows_shutdownStreamRead s.h3 h3 id hread)

theorem Known.step {a : Action} (hk : Known app s) (hs : step app s a = some t) :
    Known app t := by
  cases a with
  | opens =>
    obtain ⟨_, ht⟩ := Option.ite_none_right_eq_some.mp hs
    obtain rfl := Option.some.inj ht
    intro happ m
    rw [show Connection.h3 _ = s.h3 from rfl, hk happ m]
    constructor
    · rintro ⟨other, hother, hsaw⟩
      exact ⟨other, getElem?_eq_some_mono (List.prefix_append _ _) hother, hsaw⟩
    · rintro ⟨other, hother, hsaw, hclosed⟩
      rcases getElem?_concat_eq_some hother with hother | ⟨_, rfl⟩
      · exact ⟨other, hother, hsaw, hclosed⟩
      · exact nomatch hsaw
  | recvStreamData n data fin =>
    obtain ⟨stream, hopen, ht⟩ := Option.map_eq_some_iff.mp hs
    obtain ⟨_, hstream, hclosed⟩ := open?_eq_some.mp hopen
    cases app with
    | plain => exact nofun
    | http3 =>
      dsimp only at ht
      cases hread : lib.readStream s.h3 (streamId n) data fin with
      | none =>
        rw [hread] at ht
        rw [← ht]
        exact hk.of_eq rfl fun _ => rfl
      | some h3 =>
        rw [hread] at ht
        rw [← ht]
        have hknows := lib.knows_readStream s.h3 h3 _ data fin hread
        refine hk.set h3 { stream with sawData := true } hstream ?_ ?_ rfl rfl
        · intro m hm
          rw [hknows, beq_eq_false_iff_ne.mpr fun heq => hm (streamId_inj heq), Bool.false_or]
        · rw [hknows, beq_self_eq_true, Bool.true_or]
          exact iff_of_true rfl ⟨rfl, hclosed⟩
  | streamReset n =>
    obtain ⟨_, _, rfl⟩ := Option.map_eq_some_iff.mp hs
    cases app with
    | plain => exact nofun
    | http3 => exact hk.shutdownStreamRead _
  | streamStopSending n =>
    obtain ⟨_, _, rfl⟩ := Option.map_eq_some_iff.mp hs
    cases app with
    | plain => exact nofun
    | http3 => exact hk.shutdownStreamRead _
  | recvStopSending n =>
    obtain ⟨_, _, rfl⟩ := Option.map_eq_some_iff.mp hs
    exact hk
  | streamClose n flag found =>
    obtain ⟨stream, hopen, ht⟩ := Option.map_eq_some_iff.mp hs
    obtain ⟨_, hstream, hclosed⟩ := open?_eq_some.mp hopen
    cases app with
    | plain => exact nofun
    | http3 =>
      dsimp only at ht
      cases hknown : lib.knows s.h3 (streamId n) with
      | true =>
        obtain ⟨h3, hclose, hknows⟩ := streamClose_known hknown found flag
        rw [hclose] at ht
        dsimp only at ht
        rw [perform_http3] at ht
        rw [← ht]
        refine hk.set h3 { stream with closed := true } hstream ?_ ?_ rfl rfl
        · intro m hm
          rw [hknows, bne_iff_ne.mpr fun heq => hm (streamId_inj heq), Bool.true_and]
        · rw [hknows, bne_self_eq_false, Bool.false_and]
          exact iff_of_false Bool.false_ne_true nofun
      | false =>
        obtain ⟨h3, hclose, hknows⟩ := streamClose_unknown hknown found flag
        rw [hclose] at ht
        rw [← ht]
        refine hk.set h3 { stream with closed := true } hstream ?_ ?_ rfl rfl
        · exact fun m _ => hknows _
        · rw [hknows, hknown]
          exact iff_of_false Bool.false_ne_true nofun
  | localStreamClose id flag found =>
    obtain ⟨_, ht⟩ := Option.ite_none_right_eq_some.mp hs
    rw [perform_local] at ht
    exact Option.some.inj ht ▸ hk
  | other k =>
    obtain ⟨_, ht⟩ := Option.ite_none_left_eq_some.mp hs
    obtain rfl := Option.some.inj ht
    exact hk.of_eq rfl (lib.knows_other s.h3 k)

/-! ### What is granted -/

/-- The peer has been given another stream for each one that is closed. -/
def Conserved (initial : Nat) (s : Connection lib) : Prop :=
  s.maxStreams = initial + s.streams.countP (·.closed)

instance : DecidablePred (Conserved initial : Connection lib → Prop) :=
  fun _ => inferInstanceAs (Decidable (_ = _))

/-- So many streams the peer has open, or may still open, at any time. -/
theorem mayOpen_of_conserved (h : Conserved initial s) :
    s.streams.countP (!·.closed) + s.maxStreams = initial + s.streams.length := by
  have hlength := List.length_eq_countP_add_countP (l := s.streams) (p := (·.closed))
  have hopen : s.streams.countP (fun a => decide ¬ a.closed = true) =
      s.streams.countP (!·.closed) := by
    apply List.countP_congr
    simp
  rw [hopen] at hlength
  rw [Conserved] at h
  omega

/-- A stream of HTTP/3 is closed only after data of it has been passed on to nghttp3. -/
def Heard (app : Application) (s : Connection lib) : Action → Prop
  | .streamClose n _ _ =>
    app = .http3 → ∀ stream ∈ s.streams[n]?, stream.sawData = true
  | _ => True

instance : DecidablePred (Heard app s)
  | .streamClose n _ _ =>
    inferInstanceAs (Decidable (app = .http3 → ∀ stream ∈ s.streams[n]?, stream.sawData = true))
  | .opens | .recvStreamData .. | .streamReset _ | .streamStopSending _ | .recvStopSending _
  | .localStreamClose .. | .other _ => isTrue trivial

theorem Conserved.step_iff {a : Action} (hk : Known app s) (h : Conserved initial s)
    (hs : step app s a = some t) : Conserved initial t ↔ Heard app s a := by
  cases a with
  | opens =>
    obtain ⟨_, ht⟩ := Option.ite_none_right_eq_some.mp hs
    obtain rfl := Option.some.inj ht
    refine iff_of_true ?_ trivial
    show s.maxStreams = initial + (s.streams ++ [({} : PeerStream)]).countP (·.closed)
    rw [List.countP_append]
    exact h
  | recvStreamData n data fin =>
    obtain ⟨stream, hopen, ht⟩ := Option.map_eq_some_iff.mp hs
    obtain ⟨_, hstream, hclosed⟩ := open?_eq_some.mp hopen
    refine iff_of_true ?_ trivial
    have hcount := countP_set hstream hclosed { stream with sawData := true }
    rw [hclosed] at hcount
    have hset : s.maxStreams =
        initial + (s.streams.set n { stream with sawData := true }).countP (·.closed) := by
      rw [countP_set hstream hclosed]
      show s.maxStreams = initial + (s.streams.countP (·.closed) + if stream.closed then 1 else 0)
      rw [hclosed]
      exact h
    cases app with
    | plain => exact ht ▸ hset
    | http3 =>
      dsimp only at ht
      cases hread : lib.readStream s.h3 (streamId n) data fin with
      | none =>
        rw [hread] at ht
        exact ht ▸ h
      | some h3 =>
        rw [hread] at ht
        exact ht ▸ hset
  | streamClose n flag found =>
    obtain ⟨stream, hopen, ht⟩ := Option.map_eq_some_iff.mp hs
    obtain ⟨_, hstream, hclosed⟩ := open?_eq_some.mp hopen
    have hcount := countP_set hstream hclosed { stream with closed := true }
    have hgranted : ∀ u : Connection lib, u.maxStreams = s.maxStreams + 1 →
        u.streams = s.streams.set n { stream with closed := true } → Conserved initial u := by
      intro u hmax hstreams
      rw [Conserved, hmax, hstreams, hcount, h]
      rfl
    cases app with
    | plain =>
      dsimp only at ht
      rw [perform_plain] at ht
      exact ht ▸ iff_of_true (hgranted _ rfl rfl) nofun
    | http3 =>
      dsimp only at ht
      cases hknown : lib.knows s.h3 (streamId n) with
      | true =>
        obtain ⟨h3, hclose, _⟩ := streamClose_known hknown found flag
        rw [hclose] at ht
        dsimp only at ht
        rw [perform_http3] at ht
        refine ht ▸ iff_of_true (hgranted _ rfl rfl) ?_
        intro _ other hother
        obtain ⟨stream', hstream', hsaw, _⟩ := (hk rfl n).mp hknown
        exact Option.some.inj (hstream'.symm.trans hother) ▸ hsaw
      | false =>
        -- nghttp3 has not heard of the stream, and nobody grants another one
        obtain ⟨h3, hclose, _⟩ := streamClose_unknown hknown found flag
        rw [hclose] at ht
        rw [← ht]
        apply iff_of_false
        · show ¬ s.maxStreams = initial +
            (s.streams.set n { stream with closed := true }).countP (·.closed)
          rw [hcount, h]
          simp
        · intro hheard
          have hsaw := hheard rfl stream hstream
          have htrue := (hk rfl n).mpr ⟨stream, hstream, hsaw, hclosed⟩
          exact nomatch hknown.symm.trans htrue
  | streamReset n | streamStopSending n =>
    obtain ⟨_, _, rfl⟩ := Option.map_eq_some_iff.mp hs
    refine iff_of_true ?_ trivial
    cases app with
    | plain => exact h
    | http3 =>
      unfold Connection.shutdownStreamRead
      dsimp only
      split
      · exact h
      · exact h
  | recvStopSending n =>
    obtain ⟨_, _, rfl⟩ := Option.map_eq_some_iff.mp hs
    exact iff_of_true h trivial
  | localStreamClose id flag found =>
    obtain ⟨_, ht⟩ := Option.ite_none_right_eq_some.mp hs
    rw [perform_local] at ht
    exact iff_of_true (Option.some.inj ht ▸ h) trivial
  | other k =>
    obtain ⟨_, ht⟩ := Option.ite_none_left_eq_some.mp hs
    obtain rfl := Option.some.inj ht
    exact iff_of_true h trivial

/-- **Credit is conserved**, throughout a run, exactly if no stream of HTTP/3 is closed unheard. -/
theorem credit_iff {as : List Action}
    (hrun : run (step app) (⟨[], initial, lib.init, false⟩ : Connection lib) as = some s) :
    Throughout (step app) (Conserved initial) (⟨[], initial, lib.init, false⟩ : Connection lib) as ↔
      Meets (step app) (Heard app) (⟨[], initial, lib.init, false⟩ : Connection lib) as := by
  refine throughout_iff_meets (I := Known app) (fun _ _ _ hk hs => hk.step hs)
    (fun _ _ _ hk h hs => h.step_iff hk hs) ?_ rfl hrun
  intro _ n
  show lib.knows lib.init (streamId n) = true ↔ _
  rw [lib.knows_init]
  exact iff_of_false Bool.false_ne_true nofun

/-- nghttp3, as nothing but the streams that it knows. -/
def sampleNghttp3 : Nghttp3 where
  State := List Nat
  init := []
  readStream := fun s id _ _ => some (id :: s)
  shutdownStreamRead := fun s _ => some s
  closeStream := fun s id code =>
    if s.contains id then (s.filter (· ≠ id), .ok, [(id, code)]) else (s, .streamNotFound, [])
  other := fun s _ => s
  knows := fun s id => s.contains id
  knows_init := fun _ => rfl
  knows_readStream := by
    intro s t id data fin h j
    obtain rfl := Option.some.inj h
    exact List.contains_cons
  knows_shutdownStreamRead := by
    intro s t id h j
    rw [Option.some.inj h]
  knows_other := fun _ _ _ => rfl
  closeStream_known := by
    intro s id code h
    refine ⟨s.filter (· ≠ id), if_pos h, fun j => ?_⟩
    rw [Bool.eq_iff_iff]
    simp [and_comm]
  closeStream_unknown := fun s id code h => ⟨s, if_neg (by rw [h]; exact nofun), fun _ => rfl⟩

/-- A request is answered, and another one is reset before it has been answered. -/
theorem credit_iff_requests :
    Throughout (step .http3) (Conserved 100)
      (⟨[], 100, sampleNghttp3.init, false⟩ : Connection sampleNghttp3)
      [.opens, .recvStreamData 0 [1] true, .opens, .recvStreamData 1 [1] false, .streamReset 1,
        .streamClose 0 none true, .streamClose 1 (some 0x10c) true] := by
  obtain ⟨s, hrun⟩ : ∃ s, run (step .http3)
      (⟨[], 100, sampleNghttp3.init, false⟩ : Connection sampleNghttp3)
      [.opens, .recvStreamData 0 [1] true, .opens, .recvStreamData 1 [1] false, .streamReset 1,
        .streamClose 0 none true, .streamClose 1 (some 0x10c) true] = some s := ⟨_, rfl⟩
  exact (credit_iff hrun).mpr (by decide)

/-- A request stream that is reset before anything has arrived: the peer does not get
another one. -/
theorem credit_lost :
    ¬ ∀ (lib : Nghttp3) (app : Application) (initial : Nat) (as : List Action) (s : Connection lib),
      run (step app) (⟨[], initial, lib.init, false⟩ : Connection lib) as = some s →
        Conserved initial s := by
  intro hall
  have hconserved := hall sampleNghttp3 .http3 100
    [.opens, .streamReset 0, .streamClose 0 (some 0x10c) false] _ rfl
  exact absurd hconserved (by decide)

end AnyHttp.Quic.Credit
