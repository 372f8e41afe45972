import AnyHttp.H2.Duplex
import AnyHttp.H2.Equiv.Transfer

/-!
# Both directions of an HTTP/2 connection

Either direction of a connection is a transfer of its own (`view_of_run`): what happens in the other
one are steps of the ends of the streams there, which a transfer allows for at any time.  What holds
of every transfer therefore holds of the requests and of the responses at once (`bodies_in_order`).
-/

namespace AnyHttp.H2

open Lib

variable {maxStreamData maxData : Nat}

theorem Action.not_arrives_of_takes {a : Action} (h : a.takes = true) : a.arrives = false := by
  cases a with
  | producer | dataReader | writeOffset => rfl
  | _ => exact absurd h (by simp [takes])

theorem Action.not_takes_of_arrives {a : Action} (h : a.arrives = true) : a.takes = false := by
  cases a with
  | onData | onEof => rfl
  | _ => exact absurd h (by simp [arrives])

/-! ### One stream -/

namespace Line

variable (l : Line maxStreamData) (requests : Bool) (k : Lane maxStreamData)

theorem lane_withLane : (l.withLane requests k).lane requests = k := by
  cases requests <;> rfl

/-- The ends are shared with the other direction. -/
theorem lane_withLane_not : (l.withLane requests k).lane (!requests) =
    { l.lane (!requests) with sender := k.receiver, receiver := k.sender } := by
  cases requests <;> rfl

theorem withLane_lane : l.withLane requests (l.lane requests) = l := by
  cases requests <;> rfl

theorem lane_withSide (m : Stream) : (l.withSide requests m).lane requests =
    { l.lane requests with sender := m } := by
  cases requests <;> rfl

theorem lane_withSide_not (m : Stream) : (l.withSide (!requests) m).lane requests =
    { l.lane requests with receiver := m } := by
  cases requests <;> rfl

end Line

/-! ### What the transport does to the ends -/

namespace Transfer

variable {s t : Transfer maxStreamData maxData}

/-- At most one of the two ends does something. -/
inductive Moves (l l' : Lane maxStreamData) : Prop
  | still : l'.sender = l.sender → l'.receiver = l.receiver → Moves l l'
  | sends {a : H2.Action} : a.takes = true → l.sender.step a = some l'.sender →
    l'.receiver = l.receiver → Moves l l'
  | receives {a : H2.Action} : a.arrives = true → l.receiver.step a = some l'.receiver →
    l'.sender = l.sender → Moves l l'

/-- What becomes of a connection where at most one stream is involved. -/
structure Carried (s t : Transfer maxStreamData maxData) : Prop where
  same : t = { s with lanes := t.lanes, wire := t.wire, window := t.window, extended := t.extended }
  lanes : t.lanes = s.lanes ∨
    ∃ i l l', s.lanes[i]? = some l ∧ t.lanes = s.lanes.set i l' ∧ Moves l l'

theorem Carried.length (h : Carried s t) : t.lanes.length = s.lanes.length := by
  rcases h.lanes with heq | ⟨i, l, l', _, heq, _⟩
  · rw [heq]
  · rw [heq, List.length_set]

theorem carried_send {i : Nat} {l l' : Lane maxStreamData} {data : List UInt8}
    (hl : s.lanes[i]? = some l) (hmoves : ∀ window, Moves l { l' with window := window })
    (h : s.send i l' data = some t) : Carried s t := by
  unfold send at h
  split at h
  · rw [← Option.some.inj h]
    exact ⟨rfl, .inr ⟨i, l, _, hl, rfl, hmoves _⟩⟩
  · exact absurd h (by simp)

theorem carried_deliver (h : s.deliver = some t) : Carried s t := by
  obtain ⟨requests, client, server, maxClient, maxServer, lanes, wire, window, extended⟩ := s
  cases wire with
  | nil => exact absurd h (by simp [deliver])
  | cons frame wire =>
    obtain ⟨i, payload⟩ := frame
    obtain ⟨l, hl, h⟩ := Option.bind_eq_some_iff.mp h
    split at h
    · rw [← Option.some.inj h]
      exact ⟨rfl, .inl rfl⟩
    · obtain ⟨m, hm, rfl⟩ := Option.map_eq_some_iff.mp h
      have harrives : payload.event.arrives = true := by cases payload <;> rfl
      exact ⟨rfl, .inr ⟨i, l, _, hl, rfl, .receives harrives hm rfl⟩⟩

theorem carried_step {a : Action} (ha : Duplex.isTransport a = true) (h : step s a = some t) :
    Carried s t := by
  cases a with
  | streamOpen | sender | receiver => exact absurd ha (by simp [Duplex.isTransport])
  | produce i length =>
    obtain ⟨l, hl, h⟩ := Option.bind_eq_some_iff.mp h
    obtain ⟨m, hm, h⟩ := Option.bind_eq_some_iff.mp h
    refine carried_send hl ?_ h
    exact fun _ => .sends rfl hm rfl
  | ask i veccnt =>
    obtain ⟨l, hl, h⟩ := Option.bind_eq_some_iff.mp h
    obtain ⟨m, hm, rfl⟩ := Option.map_eq_some_iff.mp h
    exact ⟨rfl, .inr ⟨i, l, _, hl, rfl, .sends rfl hm rfl⟩⟩
  | transmit i len =>
    obtain ⟨l, hl, h⟩ := Option.bind_eq_some_iff.mp h
    obtain ⟨m, hm, h⟩ := Option.bind_eq_some_iff.mp h
    refine carried_send hl ?_ h
    exact fun _ => .sends rfl hm rfl
  | endStream i =>
    obtain ⟨l, hl, h⟩ := Option.bind_eq_some_iff.mp h
    obtain ⟨_, h⟩ := Option.ite_none_right_eq_some.mp h
    rw [← Option.some.inj h]
    exact ⟨rfl, .inr ⟨i, l, _, hl, rfl, .still rfl rfl⟩⟩
  | deliver => exact carried_deliver h
  | windowUpdate i n =>
    obtain ⟨l, hl, h⟩ := Option.bind_eq_some_iff.mp h
    obtain ⟨_, h⟩ := Option.ite_none_right_eq_some.mp h
    rw [← Option.some.inj h]
    exact ⟨rfl, .inr ⟨i, l, _, hl, rfl, .still rfl rfl⟩⟩
  | connectionUpdate n =>
    obtain ⟨_, h⟩ := Option.ite_none_right_eq_some.mp h
    rw [← Option.some.inj h]
    exact ⟨rfl, .inl rfl⟩

end Transfer

/-! ### Either direction -/

namespace Duplex

variable {s t : Duplex maxStreamData maxData} {requests : Bool}

theorem zipWith_self (ls : List (Line maxStreamData)) :
    List.zipWith (fun l k => l.withLane requests k) ls (ls.map fun l => l.lane requests) = ls := by
  rw [List.zipWith_map_right]
  simp only [Line.withLane_lane, List.zipWith_self]
  exact List.map_id' ls

/-- One stream moves in the one direction. -/
theorem zipWith_set {ls : List (Line maxStreamData)} {i : Nat} {l : Line maxStreamData}
    (hl : ls[i]? = some l) (k : Lane maxStreamData) :
    List.zipWith (fun l k => l.withLane requests k) ls
      ((ls.map fun l => l.lane requests).set i k) = ls.set i (l.withLane requests k) := by
  induction ls generalizing i with
  | nil => exact absurd hl (by simp)
  | cons first ls ih =>
    cases i with
    | zero =>
      obtain rfl : first = l := Option.some.inj hl
      exact congrArg (first.withLane requests k :: ·) (zipWith_self ls)
    | succ i =>
      show first.withLane requests (first.lane requests) :: _ = first :: _
      rw [Line.withLane_lane]
      exact congrArg (first :: ·) (ih hl)

theorem zipWith_lane (ls : List (Line maxStreamData)) (ks : List (Lane maxStreamData))
    (hlength : ks.length = ls.length) :
    (List.zipWith (fun l k => l.withLane requests k) ls ks).map (fun l => l.lane requests) =
      ks := by
  rw [List.map_zipWith]
  simp only [Line.lane_withLane]
  induction ks generalizing ls with
  | nil => rw [List.length_eq_zero_iff.mp hlength.symm]; rfl
  | cons k ks ih =>
    cases ls with
    | nil => exact absurd hlength (by simp)
    | cons l ls => exact congrArg (k :: ·) (ih ls (Nat.succ.inj hlength))

/-- The direction that has been stepped is where the step has led. -/
theorem view_withView {v : Transfer maxStreamData maxData}
    (h : (s.view requests).Carried v) : (s.withView requests v).view requests = v := by
  have hlength : v.lanes.length = s.lines.length := by
    rw [h.length]
    exact List.length_map ..
  calc
    (s.withView requests v).view requests = { s.view requests with
      lanes := (List.zipWith (fun l k => l.withLane requests k) s.lines v.lanes).map
        fun l => l.lane requests
      wire := v.wire
      window := v.window
      extended := v.extended } := by cases requests <;> rfl
    _ = { s.view requests with
      lanes := v.lanes
      wire := v.wire
      window := v.window
      extended := v.extended } := by rw [zipWith_lane s.lines v.lanes hlength]
    _ = v := h.same.symm

theorem lanes_view {i : Nat} {l : Line maxStreamData} (hl : s.lines[i]? = some l)
    (requests : Bool) : (s.view requests).lanes[i]? = some (l.lane requests) := by
  show (s.lines.map _)[i]? = _
  rw [List.getElem?_map, hl]
  rfl

/-- A step of one direction changes one stream at most, and that as a step of its `Lane` does. -/
theorem withView_lines {v : Transfer maxStreamData maxData} (h : (s.view requests).Carried v) :
    (s.withView requests v).lines = s.lines ∨
      ∃ i l k, s.lines[i]? = some l ∧ Transfer.Moves (l.lane requests) k ∧
        (s.withView requests v).lines = s.lines.set i (l.withLane requests k) := by
  have hlines : (s.withView requests v).lines =
      List.zipWith (fun l k => l.withLane requests k) s.lines v.lanes := by
    cases requests <;> rfl
  rw [hlines]
  rcases h.lanes with hlanes | ⟨i, k, k', hk, hlanes, hmoves⟩
  · left
    rw [hlanes]
    exact zipWith_self s.lines
  · right
    obtain ⟨l, hl, rfl⟩ : ∃ l, s.lines[i]? = some l ∧ l.lane requests = k := by
      have hk : (s.lines.map fun l => l.lane requests)[i]? = some k := hk
      rw [List.getElem?_map] at hk
      exact Option.map_eq_some_iff.mp hk
    refine ⟨i, l, k', hl, hmoves, ?_⟩
    rw [hlanes]
    exact zipWith_set hl k'

/-- The other one is where it was, but that the end of a stream may have done something. -/
theorem view_withView_not {v : Transfer maxStreamData maxData}
    (h : (s.view requests).Carried v) :
    ∃ bs, run Transfer.step (s.view (!requests)) bs =
      some ((s.withView requests v).view !requests) := by
  have hview : ∀ ls, (s.withView requests v).lines = ls →
      (s.withView requests v).view (!requests) =
        { s.view (!requests) with lanes := ls.map fun l => l.lane !requests } := by
    rintro ls rfl
    cases requests <;> rfl
  rcases withView_lines h with hlines | ⟨i, l, k, hl, hmoves, hlines⟩
  · refine ⟨[], ?_⟩
    rw [hview _ hlines]
    rfl
  · have hother := lanes_view hl (!requests)
    have hsender : (l.lane requests).sender = (l.lane !requests).receiver := by
      cases requests <;> rfl
    have hreceiver : (l.lane requests).receiver = (l.lane !requests).sender := by
      cases requests <;> rfl
    have hafter : (s.withView requests v).view (!requests) = (s.view !requests).setLane i
        { l.lane (!requests) with sender := k.receiver, receiver := k.sender } := by
      rw [hview _ hlines, List.map_set, Line.lane_withLane_not]
      rfl
    rw [hafter]
    cases hmoves with
    | still hs hr =>
      refine ⟨[], ?_⟩
      rw [hs, hr, hsender, hreceiver]
      show some _ = some (Transfer.setLane _ i (l.lane !requests))
      rw [Transfer.setLane, set_eq_self hother]
    | @sends a htakes hs hr =>
      -- nghttp2 asks for data, and that is all that happens here
      have harrives := Action.not_arrives_of_takes htakes
      refine ⟨[.receiver i a], run_cons_eq_some.mpr ⟨_, ?_, run_nil _⟩⟩
      rw [hsender] at hs
      rw [hr, hreceiver, Transfer.step, if_neg (by simp [harrives]), hother, Option.bind_some, hs]
      rfl
    | @receives a harrives hr hs =>
      have htakes := Action.not_takes_of_arrives harrives
      refine ⟨[.sender i a], run_cons_eq_some.mpr ⟨_, ?_, run_nil _⟩⟩
      rw [hreceiver] at hr
      rw [hs, hsender, Transfer.step, if_neg (by simp [htakes]), hother, Option.bind_some, hr]
      rfl

/-- **Simulation**, a step: in either direction, it is a step of a transfer, or none. -/
theorem view_of_step {a : Action} (h : step s a = some t) (requests : Bool) :
    ∃ bs, run Transfer.step (s.view requests) bs = some (t.view requests) := by
  cases a with
  | streamOpen =>
    rw [← Option.some.inj h]
    refine ⟨[.streamOpen], run_cons_eq_some.mpr ⟨_, ?_, run_nil _⟩⟩
    show some ({ s.view requests with lanes := _ } : Transfer maxStreamData maxData) = some
      { s.view requests with lanes := (s.lines ++ [s.newLine]).map fun l => l.lane requests }
    rw [List.map_append]
    cases requests <;> rfl
  | side client i a =>
    obtain ⟨hown, h⟩ := Option.ite_none_left_eq_some.mp h
    obtain ⟨l, hl, h⟩ := Option.bind_eq_some_iff.mp h
    obtain ⟨m, hm, rfl⟩ := Option.map_eq_some_iff.mp h
    obtain ⟨htakes, harrives⟩ := Bool.or_eq_false_iff.mp (Bool.eq_false_of_not_eq_true hown)
    have hlane := lanes_view hl requests
    have hafter : ∀ k, (l.withSide client m).lane requests = k →
        (s.setLine i (l.withSide client m)).view requests = (s.view requests).setLane i k := by
      rintro k rfl
      show ({ s.view requests with lanes := (s.lines.set i _).map _ } :
        Transfer maxStreamData maxData) = _
      rw [List.map_set]
      rfl
    by_cases hclient : client = requests
    · -- the sender
      subst hclient
      refine ⟨[.sender i a], run_cons_eq_some.mpr ⟨_, ?_, run_nil _⟩⟩
      have hm : (l.lane client).sender.step a = some m := hm
      rw [hafter _ (l.lane_withSide client m), Transfer.step, if_neg (by simp [htakes]), hlane,
        Option.bind_some, hm]
      rfl
    · -- the receiver
      obtain rfl := Bool.eq_not_iff.mpr hclient
      refine ⟨[.receiver i a], run_cons_eq_some.mpr ⟨_, ?_, run_nil _⟩⟩
      have hm : (l.lane requests).receiver.step a = some m := hm
      rw [hafter _ (l.lane_withSide_not requests m), Transfer.step, if_neg (by simp [harrives]),
        hlane, Option.bind_some, hm]
      rfl
  | transport direction a =>
    obtain ⟨ha, h⟩ := Option.ite_none_right_eq_some.mp h
    obtain ⟨v, hv, rfl⟩ := Option.map_eq_some_iff.mp h
    have hcarried := Transfer.carried_step ha hv
    by_cases hdirection : requests = direction
    · -- the direction that is looked at
      subst hdirection
      refine ⟨[a], run_cons_eq_some.mpr ⟨_, hv, ?_⟩⟩
      rw [view_withView hcarried, run_nil]
    · obtain rfl := Bool.eq_not_iff.mpr hdirection
      exact view_withView_not hcarried

/-- **Simulation**: either direction of a run is a run of a transfer. -/
theorem view_of_run {client server : Backend} {clientMaxHeaderSize serverMaxHeaderSize : Nat}
    {as : List Action}
    (hrun : run step (init client server clientMaxHeaderSize serverMaxHeaderSize :
      Duplex maxStreamData maxData) as = some s) (requests : Bool) :
    ∃ bs, run Transfer.step (Transfer.init requests client server clientMaxHeaderSize
      serverMaxHeaderSize : Transfer maxStreamData maxData) bs = some (s.view requests) := by
  refine run_inv (P := fun s : Duplex maxStreamData maxData => ∃ bs, run Transfer.step
    (Transfer.init requests client server clientMaxHeaderSize serverMaxHeaderSize :
      Transfer maxStreamData maxData) bs = some (s.view requests)) ?_ ⟨[], ?_⟩ hrun
  · rintro s a t ⟨bs, hbs⟩ hs
    obtain ⟨cs, hcs⟩ := view_of_step hs requests
    exact ⟨bs ++ cs, run_trans hbs hcs⟩
  · cases requests <;> rfl

theorem sound_view {client server : Backend} {clientMaxHeaderSize serverMaxHeaderSize : Nat}
    {as : List Action}
    (hrun : run step (init client server clientMaxHeaderSize serverMaxHeaderSize :
      Duplex maxStreamData maxData) as = some s) (requests : Bool) :
    Transfer.Sound (s.view requests) := by
  obtain ⟨bs, hbs⟩ := view_of_run hrun requests
  exact Transfer.sound_of_run hbs

/-- **Both bodies arrive as they were sent**: at every point of every run of a connection, each end
of each stream has got a part of what has been written at the other one, from the beginning and
without a gap, and is told about the end only after everything. -/
theorem bodies_in_order {client server : Backend} {clientMaxHeaderSize serverMaxHeaderSize : Nat}
    {as : List Action}
    (hrun : run step (init client server clientMaxHeaderSize serverMaxHeaderSize :
      Duplex maxStreamData maxData) as = some s) {i : Nat} {l : Line maxStreamData}
    (hl : s.lines[i]? = some l) (requests : Bool) : Transfer.InOrder (l.lane requests) :=
  (sound_view hrun requests).inOrder (lanes_view hl requests)

end Duplex

end AnyHttp.H2
