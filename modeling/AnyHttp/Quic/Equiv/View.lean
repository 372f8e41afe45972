import AnyHttp.Quic.Equiv.Accept

/-!
# One stream among those of a connection

What the steps of `StreamApplication` come to for one of its streams, as long as the connection is
there.  A `View` is the stream, with what decides how long it lives: whether the map of the session
and the accept queue have it, and whether ngtcp2 has closed it.  `All.run` is the rule that
everything about a single stream is proved with.
-/

namespace AnyHttp.Quic

open Lib

namespace Accept

open StreamApplication

structure View where
  o : PlainStream
  /-- It is in the map. -/
  mapped : Bool
  /-- It is in the accept queue. -/
  queued : Bool
  ended : Bool

/-- `make_handle()`. -/
def PlainStream.attach (o : PlainStream) : PlainStream :=
  { o with
    stream := { o.stream with q := { o.stream.q with reader := true, writer := true } }
    handedOut := true }

/-- What happens to a stream while the connection is there. -/
inductive View.Step : View → View → Prop
  | act {v : View} {a : Act} {m : Stream} (hkind : v.o.stream.q.kind ≠ .http3)
      (hby : a.fromUser = true ∧ v.o.handedOut = true ∨ a.fromNgtcp2 = true)
      (hm : v.o.stream.step a = some m) :
      Step v
        { v with
          o := { v.o with stream := m }
          mapped := v.mapped && decide (Call.eraseStream ∉ m.q.calls) }
  /-- ngtcp2 closes it ... -/
  | close {v : View} {ec : ErrorCode} {m : Stream} (hkind : v.o.stream.q.kind ≠ .http3)
      (hm : v.o.stream.step (.fail ec) = some m) :
      Step v
        { v with
          o := { v.o with stream := m }
          mapped := v.mapped && decide (Call.eraseStream ∉ m.q.calls)
          ended := true }
  /-- ... or has closed it, and the session does not know it any more. -/
  | forget {v : View} (hmapped : v.mapped = false) : Step v { v with ended := true }
  | destroy {v : View} {m : Stream} (hkind : v.o.stream.q.kind ≠ .http3)
      (hmapped : v.mapped = false) (hqueued : v.queued = false)
      (hm : v.o.stream.step .destroy = some m) : Step v { v with o := { v.o with stream := m } }
  | accept {v : View} (hqueued : v.queued = true) :
      Step v { v with o := v.o.attach, queued := false }

/-- A stream that the peer has opened. -/
def Setup.remoteView (c : Setup) (id : Nat) : View := ⟨c.makeStream id, true, true, false⟩

/-- A stream that we have opened. -/
def Setup.localView (c : Setup) (id : Nat) : View := ⟨(c.makeStream id).attach, true, false, false⟩

namespace StreamApplication

def view (s : StreamApplication) (k : Nat) : Option View :=
  (s.made[k]?).map fun o =>
    ⟨o, decide (k ∈ s.streams), decide (k ∈ s.acceptQueue), decide (o.id ∈ s.ended)⟩

/-- All streams are like this. -/
def All (P : Nat → View → Prop) (s : StreamApplication) : Prop := ∀ k v, s.view k = some v → P k v

variable {c : Setup} {s t : StreamApplication} {k : Nat} {o o' : PlainStream}
  {P : Nat → View → Prop}

theorem view_of_made (ho : s.made[k]? = some o) :
    s.view k = some ⟨o, decide (k ∈ s.streams), decide (k ∈ s.acceptQueue),
      decide (o.id ∈ s.ended)⟩ := by
  rw [view, ho]
  rfl

theorem All.of_made (h : s.All P) (ho : s.made[k]? = some o) :
    P k ⟨o, decide (k ∈ s.streams), decide (k ∈ s.acceptQueue), decide (o.id ∈ s.ended)⟩ :=
  h k _ (view_of_made ho)

theorem all_empty : ({} : StreamApplication).All P := by
  intro k v hv
  obtain ⟨o, ho, _⟩ := Option.map_eq_some_iff.mp hv
  exact absurd (List.mem_of_getElem? ho) List.not_mem_nil

theorem All.congr (h : s.All P) (hmade : t.made = s.made) (hstreams : t.streams = s.streams)
    (hqueue : t.acceptQueue = s.acceptQueue) (hended : t.ended = s.ended) : t.All P := by
  intro k v hv
  rw [view, hmade, hstreams, hqueue, hended] at hv
  exact h k v hv

/-- One stream changes. -/
theorem All.set (h : s.All P) (o' : PlainStream) (ho : s.made[k]? = some o)
    (hmade : t.made = s.made.set k o')
    (hstreams : ∀ j, j ≠ k → (j ∈ t.streams ↔ j ∈ s.streams))
    (hqueue : ∀ j, j ≠ k → (j ∈ t.acceptQueue ↔ j ∈ s.acceptQueue))
    (hended : ∀ (j : Nat) (x : PlainStream), j ≠ k → s.made[j]? = some x →
      (x.id ∈ t.ended ↔ x.id ∈ s.ended))
    (hk : P k ⟨o', decide (k ∈ t.streams), decide (k ∈ t.acceptQueue),
      decide (o'.id ∈ t.ended)⟩) : t.All P := by
  intro j v hv
  rw [view, hmade] at hv
  obtain ⟨x, hx, rfl⟩ := Option.map_eq_some_iff.mp hv
  -- the stream that has changed, or another one
  rcases (getElem?_set_eq_some ho).mp hx with ⟨rfl, rfl⟩ | ⟨hne, hx⟩
  · exact hk
  · simp only [hstreams j hne, hqueue j hne, hended j x hne hx]
    exact h.of_made hx

/-- A stream is added. -/
theorem All.add (h : s.All P) (hmade : t.made = s.made ++ [o])
    (hstreams : ∀ j, j ≠ s.made.length → (j ∈ t.streams ↔ j ∈ s.streams))
    (hqueue : ∀ j, j ≠ s.made.length → (j ∈ t.acceptQueue ↔ j ∈ s.acceptQueue))
    (hended : t.ended = s.ended)
    (hk : P s.made.length ⟨o, decide (s.made.length ∈ t.streams),
      decide (s.made.length ∈ t.acceptQueue), decide (o.id ∈ t.ended)⟩) : t.All P := by
  intro j v hv
  rw [view, hmade] at hv
  obtain ⟨x, hx, rfl⟩ := Option.map_eq_some_iff.mp hv
  -- a stream that was there, or the new one
  rcases getElem?_concat_eq_some hx with hx | ⟨rfl, rfl⟩
  · have hne : j ≠ s.made.length := Nat.ne_of_lt (List.getElem?_eq_some_iff.mp hx).1
    simp only [hstreams j hne, hqueue j hne, hended]
    exact h.of_made hx
  · exact hk

theorem All.completeAccept (h : s.All P) (ec : ErrorCode) : (s.completeAccept ec).All P := by
  unfold StreamApplication.completeAccept
  cases s.acceptHandler with
  | none => exact h
  | some n => exact h.congr rfl rfl rfl rfl

theorem deliverAccepted_cases (s : StreamApplication) :
    s.deliverAccepted = s ∨ ∃ n k rest, s.acceptHandler = some n ∧ s.acceptQueue = k :: rest ∧
      s.deliverAccepted = { s with acceptHandler := none }.handOut n k rest := by
  rw [deliverAccepted]
  split
  case h_1 n k rest hw hqueue => exact .inr ⟨n, k, rest, hw, hqueue, rfl⟩
  case h_2 => exact .inl rfl

/-- The call gets the stream at the front of the queue; if there is none it waits, or is completed
without one. -/
theorem asyncAcceptStream_cases (s : StreamApplication) :
    (∃ k rest, s.acceptQueue = k :: rest ∧
      s.asyncAcceptStream = { s with accepts := s.accepts + 1 }.handOut s.accepts k rest) ∨
    s.asyncAcceptStream.made = s.made ∧ s.asyncAcceptStream.streams = s.streams ∧
      s.asyncAcceptStream.acceptQueue = s.acceptQueue ∧ s.asyncAcceptStream.ended = s.ended ∧
      (s.asyncAcceptStream.completed = s.completed ∨
        ∃ ec, s.asyncAcceptStream.completed = s.completed ++ [⟨s.accepts, ec, none⟩]) := by
  unfold asyncAcceptStream
  dsimp only
  split
  · exact .inr ⟨rfl, rfl, rfl, rfl, .inr ⟨_, rfl⟩⟩
  · split
    case h_1 k rest hqueue => exact .inl ⟨k, rest, hqueue, rfl⟩
    case h_2 =>
      split
      · exact .inr ⟨rfl, rfl, rfl, rfl, .inr ⟨_, rfl⟩⟩
      · exact .inr ⟨rfl, rfl, rfl, rfl, .inl rfl⟩

/-- What `erase_stream()` does to the map. -/
theorem mem_erase (streams : List Nat) (j k : Nat) (erased : Prop) [Decidable erased] :
    j ∈ (if erased then streams.filter (· ≠ k) else streams) ↔
      j ∈ streams ∧ ¬(j = k ∧ erased) := by
  split_ifs with h
  · simp [h]
  · simp [h]

theorem mapped_erase (streams : List Nat) (k : Nat) (calls : List Call) :
    decide (k ∈ if Call.eraseStream ∈ calls then streams.filter (· ≠ k) else streams) =
      (decide (k ∈ streams) && decide (Call.eraseStream ∉ calls)) := by
  rw [← Bool.decide_and, decide_eq_decide, mem_erase, and_iff_right rfl]

theorem makeHandle_eq (ho : s.made[k]? = some o) :
    s.makeHandle k = { s with made := s.made.set k o.attach } := by
  rw [makeHandle]
  simp only [ho]
  rfl

/-- A stream is handed out: it gets its adapters, and may then have nobody that keeps it. -/
theorem handOut_eq (ho : s.made[k]? = some o) (n : Nat) (rest : List Nat) :
    ∃ u : StreamApplication, s.handOut n k rest = u.settle k ∧ u.made = s.made.set k o.attach ∧
      u.streams = s.streams ∧ u.acceptQueue = rest ∧ u.ended = s.ended := by
  refine ⟨{ s with
    made := s.made.set k o.attach
    acceptQueue := rest
    completed := s.completed ++ [⟨n, .success, some k⟩] }, ?_, rfl, rfl, rfl, rfl⟩
  rw [handOut, makeHandle_eq (s := { s with acceptQueue := rest }) ho]
  rfl

theorem settle_of_mem (h : k ∈ s.streams) : s.settle k = s := if_pos (.inl h)

theorem settle_of_gone {m : Stream} (ho : s.made[k]? = some o) (hstreams : k ∉ s.streams)
    (hqueue : k ∉ s.acceptQueue) (hlive : o.stream.destroyed = false)
    (hm : o.stream.step .destroy = some m) : s.settle k = s.put k { o with stream := m } := by
  rw [settle, if_neg (not_or_intro hstreams hqueue), ho]
  dsimp only
  rw [hlive, if_neg Bool.false_ne_true, hm]

theorem openStream_eq (c : Setup) (s : StreamApplication) (id : Nat) :
    s.openStream c id =
      { s with
        made := s.made ++ [(c.makeStream id).attach]
        streams := s.streams ++ [s.made.length] } := by
  have hlast : (s.createStream c id).made[s.made.length]? = some (c.makeStream id) :=
    List.getElem?_concat_length
  rw [StreamApplication.openStream, makeHandle_eq hlast]
  have hset := set_concat s.made (c.makeStream id) (c.makeStream id).attach
  exact congrArg (fun made => { s.createStream c id with made := made }) hset

theorem All.openStream (h : s.All P) (hs : s.Kept) {id : Nat} (hended : id ∉ s.ended)
    (hnew : P s.made.length (c.localView id)) : (s.openStream c id).All P := by
  rw [openStream_eq]
  refine h.add rfl (fun j hj => ?_) (fun _ _ => Iff.rfl) rfl ?_
  · exact List.mem_append.trans (or_iff_left fun hmem => hj (List.mem_singleton.mp hmem))
  · have hlast : decide (s.made.length ∈ s.streams ++ [s.made.length]) = true := by simp
    have hqueue : s.made.length ∉ s.acceptQueue := by
      intro hmem
      obtain ⟨_, ho, _⟩ := hs.queued _ hmem
      exact Nat.lt_irrefl _ (List.getElem?_eq_some_iff.mp ho).1
    show P s.made.length ⟨_, decide (s.made.length ∈ s.streams ++ [s.made.length]),
      decide (s.made.length ∈ s.acceptQueue), decide (id ∈ s.ended)⟩
    rw [hlast, decide_eq_false hqueue, decide_eq_false hended]
    exact hnew

/-- A stream that is new goes into the queue. -/
theorem All.push (h : s.All P) {id : Nat} (hended : id ∉ s.ended)
    (hnew : P s.made.length (c.remoteView id)) :
    { s.createStream c id with acceptQueue := s.acceptQueue ++ [s.made.length] }.All P := by
  refine h.add rfl (fun j hj => ?_) (fun j hj => ?_) rfl ?_
  · exact List.mem_append.trans (or_iff_left fun hmem => hj (List.mem_singleton.mp hmem))
  · exact List.mem_append.trans (or_iff_left fun hmem => hj (List.mem_singleton.mp hmem))
  · have hlast (l : List Nat) : decide (s.made.length ∈ l ++ [s.made.length]) = true := by simp
    show P s.made.length ⟨_, decide (s.made.length ∈ s.streams ++ [s.made.length]),
      decide (s.made.length ∈ s.acceptQueue ++ [s.made.length]), decide (id ∈ s.ended)⟩
    rw [hlast, hlast, decide_eq_false hended]
    exact hnew

section Steps

variable (hP : ∀ k v v', P k v → v.Step v' → P k v')
include hP

theorem All.settle (h : s.All P) (hkind : ∀ o : PlainStream, s.made[k]? = some o →
    o.stream.q.kind ≠ .http3) : (s.settle k).All P := by
  rcases s.settle_cases k with heq | ⟨o, m, ho, hstreams, hqueue, hm, heq⟩
  · rw [heq]
    exact h
  · rw [heq]
    have hstep : View.Step ⟨o, decide (k ∈ s.streams), decide (k ∈ s.acceptQueue),
        decide (o.id ∈ s.ended)⟩ _ :=
      .destroy (hkind o ho) (decide_eq_false hstreams) (decide_eq_false hqueue) hm
    exact h.set _ ho rfl (fun _ _ => Iff.rfl) (fun _ _ => Iff.rfl) (fun _ _ _ _ => Iff.rfl)
      (hP k _ _ (h.of_made ho) hstep)

/-- Something happens to a stream, while ngtcp2 may be closing it. -/
theorem All.act {u : StreamApplication} {a : Act} (h : s.All P) (hs : s.Kept)
    (hu : u.made = s.made ∧ u.streams = s.streams ∧ u.acceptQueue = s.acceptQueue)
    (hended : ∀ (j : Nat) (x : PlainStream), j ≠ k → s.made[j]? = some x →
      (x.id ∈ u.ended ↔ x.id ∈ s.ended))
    (hstep : ∀ (o : PlainStream) (m : Stream), s.made[k]? = some o → o.stream.step a = some m →
      View.Step ⟨o, decide (k ∈ s.streams), decide (k ∈ s.acceptQueue), decide (o.id ∈ s.ended)⟩
        ⟨{ o with stream := m }, decide (k ∈ s.streams) && decide (Call.eraseStream ∉ m.q.calls),
          decide (k ∈ s.acceptQueue), decide (o.id ∈ u.ended)⟩)
    (hact : u.act k a = some t) : t.All P := by
  obtain ⟨o, ho, hact⟩ := Option.bind_eq_some_iff.mp hact
  obtain ⟨m, hm, rfl⟩ := Option.map_eq_some_iff.mp hact
  obtain ⟨hmade, hstreams, hqueue⟩ := hu
  rw [hmade] at ho
  have hkind := hs.kind k o ho
  have hk := hP k _ _ (h.of_made ho) (hstep o m ho hm)
  refine All.settle hP (h.set { o with stream := m } ho ?_ ?_ ?_ hended ?_) ?_
  · exact congrArg (List.set · k { o with stream := m }) hmade
  · intro j hj
    rw [← hstreams]
    exact (mem_erase ..).trans (and_iff_left fun he => hj he.1)
  · intro j _
    rw [← hqueue]
    exact Iff.rfl
  · rw [mapped_erase, hstreams]
    show P k ⟨_, _, decide (k ∈ u.acceptQueue), _⟩
    rw [hqueue]
    exact hk
  · intro x hx
    have hset : (s.made.set k { o with stream := m })[k]? = some x := by
      rw [← hmade]
      exact hx
    rcases (getElem?_set_eq_some ho).mp hset with ⟨_, rfl⟩ | ⟨hne, _⟩
    · rw [(Stream.step_keeps hkind hm).kind]
      exact hkind
    · exact absurd rfl hne

/-- The stream at the front of the queue is handed out. -/
theorem All.handOut (h : s.All P) (hs : s.Kept) {rest : List Nat}
    (hqueue : s.acceptQueue = k :: rest)
    (hk : k ∉ rest) (n : Nat) : (s.handOut n k rest).All P := by
  obtain ⟨o, ho, _⟩ := hs.queued k (by rw [hqueue]; exact List.mem_cons_self)
  have hstep : View.Step ⟨o, decide (k ∈ s.streams), decide (k ∈ s.acceptQueue),
      decide (o.id ∈ s.ended)⟩ _ := .accept
        (by rw [hqueue]; exact decide_eq_true List.mem_cons_self)
  obtain ⟨u, heq, hmade, hstreams, hrest, hended⟩ := handOut_eq ho n rest
  rw [heq]
  refine All.settle hP (h.set _ ho hmade (fun j _ => by rw [hstreams]) (fun j hj => ?_)
    (fun _ _ _ _ => by rw [hended]) ?_) fun x hx => ?_
  · rw [hrest, hqueue, List.mem_cons, or_iff_right hj]
  · rw [hstreams, hrest, hended, decide_eq_false hk]
    exact hP k _ _ (h.of_made ho) hstep
  · rw [hmade] at hx
    rcases (getElem?_set_eq_some ho).mp hx with ⟨_, rfl⟩ | ⟨hne, _⟩
    · exact hs.kind k o ho
    · exact absurd rfl hne

theorem All.deliverAccepted (h : s.All P) (hs : s.Kept) {queue : List Nat}
    (hqueue : s.acceptQueue = queue ++ [k]) (hidle : s.acceptHandler ≠ none → queue = []) :
    s.deliverAccepted.All P := by
  rcases s.deliverAccepted_cases with heq | ⟨n, j, rest, hw, hfirst, heq⟩
  · rw [heq]
    exact h
  · rw [heq]
    -- it is the only one in the queue
    have hempty : queue = [] := hidle (by simp [hw])
    have hsingle : j :: rest = [k] := by
      rw [← hfirst, hqueue, hempty]
      rfl
    obtain ⟨rfl, rfl⟩ := List.cons.inj hsingle
    have htake : ({ s with acceptHandler := none }).All P := h.congr rfl rfl rfl rfl
    have hkept := (hs.leads (t := { s with acceptHandler := none }) rfl rfl rfl rfl
      fun _ hj => hj).kept
    exact All.handOut hP htake hkept hfirst List.not_mem_nil n

/-- A stream that is new goes into the queue, and may be handed out right away. -/
theorem All.arrive (h : s.All P) (hs : s.Kept) {id : Nat} (hended : id ∉ s.ended)
    (hidle : s.acceptHandler ≠ none → s.acceptQueue = [])
    (hnew : P s.made.length (c.remoteView id)) :
    { s.createStream c id with
      acceptQueue := s.acceptQueue ++ [s.made.length] }.deliverAccepted.All P :=
  All.deliverAccepted hP (h.push hended hnew) (kept_push hs c id) rfl hidle

theorem All.openRemoteStream (h : s.All P) {opened : List Nat}
    (ha : Accepting c s opened) {id : Nat}
    (hended : id ∉ s.ended) (hnew : P s.made.length (c.remoteView id)) :
    (s.openRemoteStream c id).1.All P := by
  unfold StreamApplication.openRemoteStream
  cases s.findStream id with
  | some k => exact h
  | none =>
    dsimp only
    split_ifs
    · exact h
    · exact All.arrive hP h ha.kept hended ha.idle hnew

theorem All.report (h : s.All P) {opened : List Nat} (ha : Accepting c s opened) {id : Nat}
    {a : Option Act} (hnew : P s.made.length (c.remoteView id))
    (hby : ∀ x ∈ a, x.fromNgtcp2 = true) (hreport : s.report c id a = some t) : t.All P := by
  obtain ⟨hended, hreport⟩ := Option.ite_none_left_eq_some.mp hreport
  have hopen := All.openRemoteStream hP h ha hended hnew
  have hnext := (ha.openRemoteStream hended).accepting
  generalize s.openRemoteStream c id = x at hreport hopen hnext
  obtain ⟨s₁, found⟩ := x
  cases found with
  | none =>
    obtain rfl := Option.some.inj hreport
    exact hopen
  | some k =>
    cases a with
    | none =>
      obtain rfl := Option.some.inj hreport
      exact hopen
    | some x =>
      refine All.act hP hopen hnext.kept ⟨rfl, rfl, rfl⟩ (fun _ _ _ _ => Iff.rfl) ?_ hreport
      exact fun o m ho hm => .act (hnext.kept.kind k o ho) (.inr (hby x rfl)) hm

/-- ngtcp2 closes a stream. -/
theorem All.streamClose (h : s.All P) {opened : List Nat} (ha : Accepting c s opened) {id : Nat}
    {flag : Option Nat} (ht : step c s (.streamClose id flag) = some t) : t.All P := by
  obtain ⟨_, ht⟩ := Option.ite_none_left_eq_some.mp ht
  cases hfind : ({ s with ended := id :: s.ended }).findStream id with
  | none =>
    rw [hfind] at ht
    obtain rfl := Option.some.inj ht
    intro k v hv
    obtain ⟨o, ho, rfl⟩ := Option.map_eq_some_iff.mp hv
    by_cases hid : o.id = id
    · have hnot : k ∉ s.streams := not_mem_streams hfind ho hid
      have hin : decide (o.id ∈ id :: s.ended) = true := by simp [hid]
      show P k ⟨o, decide (k ∈ s.streams), decide (k ∈ s.acceptQueue),
        decide (o.id ∈ id :: s.ended)⟩
      rw [hin]
      exact hP k _ _ (h.of_made ho) (.forget (decide_eq_false hnot))
    · have hin : (o.id ∈ id :: s.ended) ↔ o.id ∈ s.ended := List.mem_cons.trans (or_iff_right hid)
      show P k ⟨o, decide (k ∈ s.streams), decide (k ∈ s.acceptQueue),
        decide (o.id ∈ id :: s.ended)⟩
      rw [decide_eq_decide.mpr hin]
      exact h.of_made ho
  | some k =>
    rw [hfind] at ht
    obtain ⟨_, o, ho, hid⟩ := findStream_eq_some hfind
    refine All.act (u := { s with ended := id :: s.ended }) hP h ha.kept ⟨rfl, rfl, rfl⟩ ?_ ?_ ht
    · intro j x hj hx
      -- no other stream has this id
      exact List.mem_cons.trans
        (or_iff_right fun heq => hj (made_inj ha.nodup ho hx (heq.trans hid.symm)))
    · intro x m hx hm
      obtain rfl := Option.some.inj (hx.symm.trans ho)
      have hin : decide (x.id ∈ id :: s.ended) = true := by simp [hid]
      show View.Step _ ⟨_, _, _, decide (x.id ∈ id :: s.ended)⟩
      rw [hin]
      exact .close (ha.kept.kind k x hx) hm

theorem All.asyncAcceptStream (h : s.All P) {opened : List Nat} (ha : Accepting c s opened) :
    s.asyncAcceptStream.All P := by
  rcases s.asyncAcceptStream_cases with ⟨k, rest, hqueue, heq⟩ | ⟨hmade, hstreams, hsame, hended, _⟩
  · have hasked : ({ s with accepts := s.accepts + 1 }).All P := h.congr rfl rfl rfl rfl
    have hkept := (ha.kept.leads (t := { s with accepts := s.accepts + 1 }) rfl rfl rfl rfl
      fun _ hj => hj).kept
    have hnodup := ha.nodup_queue
    rw [hqueue] at hnodup
    rw [heq]
    exact All.handOut hP hasked hkept hqueue (List.nodup_cons.mp hnodup).1 _
  · exact h.congr hmade hstreams hsame hended

/-- **Step rule**, while the connection is there. -/
theorem All.step (h : s.All P) {opened : List Nat} (ha : Accepting c s opened)
    (hnew : ∀ id, P s.made.length (c.remoteView id) ∧ P s.made.length (c.localView id))
    {a : Action} (ht : step c s a = some t) (hopen : t.closedEc = .success) : t.All P := by
  cases a with
  | streamOpen id =>
    exact All.report (a := none) hP h ha (hnew id).1 (fun _ hx => nomatch hx) ht
  | recvStreamData id data fin =>
    exact All.report hP h ha (hnew id).1 (fun x hx => Option.some.inj hx ▸ rfl) ht
  | streamReset id =>
    exact All.report hP h ha (hnew id).1 (fun x hx => Option.some.inj hx ▸ rfl) ht
  | recvStopSending id =>
    exact All.report hP h ha (hnew id).1 (fun x hx => Option.some.inj hx ▸ rfl) ht
  | streamClose id flag => exact All.streamClose hP h ha ht
  | stream k a =>
    obtain ⟨o, ho, ht⟩ := Option.bind_eq_some_iff.mp ht
    obtain ⟨hby, ht⟩ := Option.ite_none_right_eq_some.mp ht
    refine All.act hP h ha.kept ⟨rfl, rfl, rfl⟩ (fun _ _ _ _ => Iff.rfl) ?_ ht
    intro x m hx hm
    obtain rfl := Option.some.inj (ho.symm.trans hx)
    refine .act (ha.kept.kind k o ho) ?_ hm
    rcases Bool.or_eq_true_iff.mp hby with hby | hby
    · exact .inl (Bool.and_eq_true_iff.mp hby)
    · have hengine := (Bool.and_eq_true_iff.mp hby).1
      cases a with
      | streamStopSending => exact .inr rfl
      | writePkt r => exact .inr rfl
      | acked stop => exact .inr rfl
      | _ => exact absurd hengine Bool.false_ne_true
  | asyncAcceptStream =>
    obtain rfl := Option.some.inj ht
    exact All.asyncAcceptStream hP h ha
  | cancelAccept =>
    obtain rfl := Option.some.inj ht
    exact h.completeAccept _
  | openStream id =>
    obtain ⟨⟨_, _, hended, _⟩, ht⟩ := Option.ite_none_right_eq_some.mp ht
    obtain rfl := Option.some.inj ht
    exact h.openStream ha.kept hended (hnew id).2
  | onClosed =>
    obtain rfl := Option.some.inj ht
    exact absurd hopen ha.onClosed.2.1
  | failStream k ec =>
    have hsame := (step_next ha ht nofun).closedEc
    obtain ⟨⟨hgone, _⟩, _⟩ := Option.ite_none_right_eq_some.mp ht
    exact absurd (hsame.symm.trans hopen) hgone
  | clearStreams =>
    have hsame := (step_next ha ht nofun).closedEc
    obtain ⟨hgone, _⟩ := Option.ite_none_right_eq_some.mp ht
    exact absurd (hsame.symm.trans hopen) hgone

end Steps

/-- No stream is forgotten altogether. -/
theorem length_made_le {opened : List Nat} (ha : Accepting c s opened) {a : Action}
    (ht : step c s a = some t) (hne : a ≠ .onClosed) : s.made.length ≤ t.made.length := by
  have hgrows := (step_next ha ht hne).grows.length_le
  simp only [ids, List.length_map] at hgrows
  exact hgrows

/-- **Run rule**, while the connection is there: what every step of a stream preserves, and is true
of the streams that are still to come. -/
theorem All.run (hP : ∀ k v v', P k v → v.Step v' → P k v') {n : Nat}
    (hnew : ∀ k id, n ≤ k → P k (c.remoteView id) ∧ P k (c.localView id)) {as : List Action}
    {opened : List Nat} (ha : Accepting c s opened) (hn : n ≤ s.made.length) (h : s.All P)
    (hrun : Lib.run (Accept.step c) s as = some t) (hopen : t.closedEc = .success) : t.All P := by
  induction as generalizing s opened with
  | nil => exact Option.some.inj hrun ▸ h
  | cons a as ih =>
    obtain ⟨u, hu, ht⟩ := run_cons_eq_some.mp hrun
    have hau := step_accepting ha hu
    have hu_open : u.closedEc = .success := ((run_open hau ht).mp hopen).1
    have hne : a ≠ .onClosed := by
      rintro rfl
      obtain rfl := Option.some.inj hu
      exact ha.onClosed.2.1 hu_open
    refine ih hau (Nat.le_trans hn (length_made_le ha hu hne)) ?_ ht
    exact All.step hP h ha (fun id => hnew _ id hn) hu hu_open

end StreamApplication

end Accept

end AnyHttp.Quic
