import Mathlib.Data.List.Nodup
import AnyHttp.Lib.Dispenser
import AnyHttp.Lib.Run
import AnyHttp.Lib.Update
import AnyHttp.Quic.Accept
import AnyHttp.Quic.Equiv.Owners

/-!
# Accepting streams

The streams of the peer are handed out by a `Dispenser`: `accept_queue_` is its queue, and
`accept_handler_` the call that waits.  What this takes of the rest is that the session knows every
stream that ngtcp2 still reports about, so that none is taken for a new one (`Kept.known`).  A
stream that is not known any more has been erased by itself, after ngtcp2 has closed it.

`accept_in_order` is about whole runs.
-/

namespace AnyHttp.Quic.Accept

open Lib

namespace StreamApplication

variable {c : Setup} {s t : StreamApplication} {k : Nat} {o o' : PlainStream}

/-- The ids of the streams that have been made. -/
def ids (s : StreamApplication) : List Nat := s.made.map PlainStream.id

def dispenser (s : StreamApplication) : Dispenser Nat where
  queue := s.acceptQueue
  waiting := s.acceptHandler
  closed := decide (s.closedEc ≠ .success)
  asked := s.accepts
  answers := s.completed.map fun c => (c.accept, c.stream)

theorem getElem?_ids (s : StreamApplication) (k : Nat) :
    s.ids[k]? = (s.made[k]?).map PlainStream.id := List.getElem?_map ..

/-- What is known of the streams, in particular as long as the connection is there. -/
structure Kept (s : StreamApplication) : Prop where
  kind : ∀ (k : Nat) (o : PlainStream), s.made[k]? = some o → o.stream.q.kind ≠ .http3
  closed : s.closedEc = .success → ∀ (k : Nat) (o : PlainStream), s.made[k]? = some o →
    o.stream.q.closed = true → o.id ∈ s.ended
  known : s.closedEc = .success → ∀ (k : Nat) (o : PlainStream), s.made[k]? = some o →
    o.id ∉ s.ended → k ∈ s.streams
  queued : ∀ k ∈ s.acceptQueue, ∃ o : PlainStream,
    s.made[k]? = some o ∧ o.stream.destroyed = false

/-- Something happens that leaves the streams with their ids, and the dispenser like this. -/
structure Leads (s t : StreamApplication) (d : Dispenser Nat) : Prop where
  kept : t.Kept
  ids : t.ids = s.ids
  closedEc : t.closedEc = s.closedEc
  ended : t.ended = s.ended
  dispenser : t.dispenser = d

theorem Leads.refl (hs : s.Kept) : Leads s s s.dispenser := ⟨hs, rfl, rfl, rfl, rfl⟩

/-- What the dispenser does in one function and then in another one, it does in both. -/
theorem Leads.trans {u : StreamApplication} {d d' : Dispenser Nat} (h₁ : Leads s t d)
    (h₂ : Leads t u d') : Leads s u d' where
  kept := h₂.kept
  ids := h₂.ids.trans h₁.ids
  closedEc := h₂.closedEc.trans h₁.closedEc
  ended := h₂.ended.trans h₁.ended
  dispenser := h₂.dispenser

/-! ### Streams that change -/

/-- A stream changes, and may be erased from the map if ngtcp2 has closed it. -/
theorem leads_put (hs : s.Kept) (h : s.made[k]? = some o) (o' : PlainStream)
    (streams : List Nat) (hid : o'.id = o.id) (hkind : o'.stream.q.kind = o.stream.q.kind)
    (hclosed : s.closedEc = .success → o'.stream.q.closed = true → o.id ∈ s.ended)
    (hstreams : s.closedEc = .success → ∀ j ∈ s.streams, j ∈ streams ∨ j = k ∧ o.id ∈ s.ended)
    (hdestroyed : k ∈ s.acceptQueue → o'.stream.destroyed = o.stream.destroyed) :
    Leads s { s.put k o' with streams := streams } s.dispenser where
  kept := by
    have hold (j : Nat) (x : PlainStream) (hx : (s.made.set k o')[j]? = some x) :
        j = k ∧ o' = x ∨ s.made[j]? = some x := by
      rcases (getElem?_set_eq_some h).mp hx with hx | ⟨_, hx⟩
      · exact .inl hx
      · exact .inr hx
    constructor
    · intro j x hx
      rcases hold j x hx with ⟨_, rfl⟩ | hx
      · rw [hkind]
        exact hs.kind k o h
      · exact hs.kind j x hx
    · intro hopen j x hx hc
      rcases hold j x hx with ⟨_, rfl⟩ | hx
      · rw [hid]
        exact hclosed hopen hc
      · exact hs.closed hopen j x hx hc
    · intro hopen j x hx he
      rcases (getElem?_set_eq_some h).mp hx with ⟨rfl, rfl⟩ | ⟨hne, hx⟩
      · have hmem := hs.known hopen j o h (hid ▸ he)
        exact (hstreams hopen j hmem).resolve_right fun hend => he (hid ▸ hend.2)
      · have hmem := hs.known hopen j x hx he
        exact (hstreams hopen j hmem).resolve_right fun hend => hne hend.1
    · intro j hj
      obtain ⟨x, hx, hd⟩ := hs.queued j hj
      by_cases hjk : j = k
      · subst hjk
        obtain rfl := Option.some.inj (h.symm.trans hx)
        exact ⟨o', (getElem?_set_eq_some h).mpr (.inl ⟨rfl, rfl⟩), (hdestroyed hj).trans hd⟩
      · exact ⟨x, (getElem?_set_eq_some h).mpr (.inr ⟨hjk, hx⟩), hd⟩
  ids := map_set_of_eq h hid
  closedEc := rfl
  ended := rfl
  dispenser := rfl

/-- A stream is settled if nothing refers to it any more: it is destroyed then. -/
theorem settle_cases (s : StreamApplication) (k : Nat) :
    s.settle k = s ∨ ∃ o m, s.made[k]? = some o ∧ k ∉ s.streams ∧ k ∉ s.acceptQueue ∧
      o.stream.step .destroy = some m ∧ s.settle k = s.put k { o with stream := m } := by
  rw [settle]
  split_ifs with hkept
  · exact .inl rfl
  · obtain ⟨hstreams, hqueue⟩ := not_or.mp hkept
    cases hk : s.made[k]? with
    | none => exact .inl rfl
    | some o =>
      dsimp only
      split_ifs
      · exact .inl rfl
      · cases hm : o.stream.step .destroy with
        | none => exact .inl rfl
        | some m => exact .inr ⟨o, m, rfl, hstreams, hqueue, hm, rfl⟩

/-- A stream may be destroyed, but not one that waits in the queue. -/
theorem leads_settle (hs : s.Kept) (k : Nat) : Leads s (s.settle k) s.dispenser := by
  rcases s.settle_cases k with h | ⟨o, m, ho, _, hq, hm, h⟩
  · rw [h]
    exact .refl hs
  · rw [h]
    have hkeeps := Stream.step_keeps (hs.kind k o ho) hm
    refine leads_put hs ho _ _ rfl hkeeps.kind ?_ (fun _ j hj => .inl hj) fun hmem => absurd hmem hq
    intro hopen hc
    exact hs.closed hopen k o ho ((hkeeps.closed nofun).symm.trans hc)

/-- Streams that are settled were neither in the map nor in the queue, so the dispenser has not had
them. -/
theorem leads_foldl_settle (ks : List Nat) (hs : s.Kept) :
    Leads s (ks.foldl settle s) s.dispenser := by
  induction ks generalizing s with
  | nil => exact .refl hs
  | cons k ks ih =>
    have hk := leads_settle hs k
    have hrest := ih hk.kept
    rw [hk.dispenser] at hrest
    exact hk.trans hrest

/-- Something happens to a stream that ngtcp2 has not closed, or has told us that it has. -/
theorem leads_act (hs : s.Kept) {a : Act} (h : s.act k a = some t) (ha : a ≠ .destroy)
    (hfail : ∀ ec, a = .fail ec → s.closedEc = .success →
      ∀ o : PlainStream, s.made[k]? = some o → o.id ∈ s.ended) : Leads s t s.dispenser := by
  obtain ⟨o, ho, h⟩ := Option.bind_eq_some_iff.mp h
  obtain ⟨m, hm, rfl⟩ := Option.map_eq_some_iff.mp h
  have hkeeps := Stream.step_keeps (hs.kind k o ho) hm
  have hclosed (hopen : s.closedEc = .success) (hc : m.q.closed = true) : o.id ∈ s.ended := by
    by_cases hf : ∃ ec, a = .fail ec
    · obtain ⟨ec, rfl⟩ := hf
      exact hfail ec rfl hopen o ho
    · rw [hkeeps.closed fun ec he => hf ⟨ec, he⟩] at hc
      exact hs.closed hopen k o ho hc
  have hput := leads_put hs ho { o with stream := m }
    (if Call.eraseStream ∈ m.q.calls then s.streams.filter (· ≠ k) else s.streams)
    rfl hkeeps.kind hclosed ?_ fun _ => hkeeps.destroyed ha
  · have hsettle := leads_settle hput.kept k
    rw [hput.dispenser] at hsettle
    exact hput.trans hsettle
  · intro hopen j hj
    split_ifs with herased
    · by_cases hjk : j = k
      · -- it does not erase itself before ngtcp2 has closed it
        exact .inr ⟨hjk, hclosed hopen (hkeeps.sound (decide_eq_true herased)).2.2⟩
      · exact .inl (List.mem_filter.mpr ⟨hj, decide_eq_true hjk⟩)
    · exact .inl hj

/-! ### Handing out -/

/-- A stream that gets its handles stays where it is. -/
theorem leads_makeHandle (hs : s.Kept) (k : Nat) : Leads s (s.makeHandle k) s.dispenser := by
  unfold makeHandle
  cases hk : s.made[k]? with
  | none => exact .refl hs
  | some o =>
    exact leads_put hs hk _ _ rfl rfl (fun hopen => hs.closed hopen k o hk) (fun _ j hj => .inl hj)
      fun _ => rfl

/-- The dispenser changes, and streams may leave the queue. -/
theorem Kept.leads (hs : s.Kept) (hmade : t.made = s.made) (hended : t.ended = s.ended)
    (hstreams : t.streams = s.streams) (hclosedEc : t.closedEc = s.closedEc)
    (hqueue : ∀ k ∈ t.acceptQueue, k ∈ s.acceptQueue) : Leads s t t.dispenser where
  kept := by
    constructor
    · rw [hmade]
      exact hs.kind
    · rw [hmade, hended, hclosedEc]
      exact hs.closed
    · rw [hmade, hended, hstreams, hclosedEc]
      exact hs.known
    · rw [hmade]
      exact fun k hk => hs.queued k (hqueue k hk)
  ids := congrArg (List.map PlainStream.id) hmade
  closedEc := hclosedEc
  ended := hended
  dispenser := rfl

/-- A call that completes is an answer. -/
theorem dispenser_complete (s : StreamApplication) (x : Completion) :
    (s.complete x).dispenser = s.dispenser.answer x.accept x.stream := by
  unfold complete dispenser Dispenser.answer
  rw [List.map_append]
  rfl

theorem leads_complete (hs : s.Kept) (x : Completion) :
    Leads s (s.complete x) (s.dispenser.answer x.accept x.stream) := by
  rw [← dispenser_complete]
  exact hs.leads rfl rfl rfl rfl fun _ hj => hj

/-- A stream is handed out from the front of the queue. -/
theorem leads_handOut (hs : s.Kept) (h k : Nat) (rest : List Nat)
    (hrest : ∀ j ∈ rest, j ∈ s.acceptQueue) :
    Leads s (s.handOut h k rest) ({ s.dispenser with queue := rest }.answer h (some k)) := by
  have hqueue : Leads s { s with acceptQueue := rest } { s.dispenser with queue := rest } :=
    hs.leads rfl rfl rfl rfl hrest
  have hhandle := leads_makeHandle hqueue.kept k
  have hcomplete := leads_complete hhandle.kept ⟨h, .success, some k⟩
  have hsettle := leads_settle hcomplete.kept k
  rw [hcomplete.dispenser, hhandle.dispenser] at hsettle
  exact ((hqueue.trans hhandle).trans hcomplete).trans hsettle

/-- **`async_accept_stream()`** asks the dispenser. -/
theorem leads_asyncAcceptStream (hs : s.Kept) : Leads s s.asyncAcceptStream s.dispenser.ask := by
  have hasked : Leads s { s with accepts := s.accepts + 1 }
      { s.dispenser with asked := s.accepts + 1 } := hs.leads rfl rfl rfl rfl fun _ hj => hj
  obtain ⟨made, streams, queue, handler, closedEc, ended, accepts, completed⟩ := s
  cases handler with
  | some w => exact hasked.trans (leads_complete hasked.kept ⟨accepts, .alreadyStarted, none⟩)
  | none =>
    cases queue with
    | cons k rest =>
      have hhand := leads_handOut hasked.kept accepts k rest
        fun j hj => List.mem_cons_of_mem k hj
      rw [hasked.dispenser] at hhand
      exact hasked.trans hhand
    | nil =>
      unfold asyncAcceptStream Dispenser.ask dispenser
      dsimp only [Option.isSome_none]
      by_cases hc : closedEc = .success
      · simp only [hc, ne_eq, not_true_eq_false, decide_false, if_false, Bool.false_eq_true]
        subst hc
        exact hs.leads rfl rfl rfl rfl fun _ hj => hj
      · simp only [hc, ne_eq, not_false_eq_true, decide_true, if_true, if_false, Bool.false_eq_true]
        have hrefuse := leads_complete hasked.kept ⟨accepts, closedEc, none⟩
        rw [hasked.dispenser] at hrefuse
        have hall := hasked.trans hrefuse
        unfold dispenser at hall
        simp only [hc, ne_eq, not_false_eq_true, decide_true] at hall
        exact hall

/-- A call that is cancelled, or ended by `close()`, gets nothing. -/
theorem leads_completeAccept (hs : s.Kept) (ec : ErrorCode) :
    Leads s (s.completeAccept ec) s.dispenser.cancel := by
  have hcancel : Leads s { s with acceptHandler := none } { s.dispenser with waiting := none } :=
    hs.leads rfl rfl rfl rfl fun _ hj => hj
  obtain ⟨made, streams, queue, handler, closedEc, ended, accepts, completed⟩ := s
  cases handler with
  | none => exact .refl hs
  | some h =>
    have hcomplete := leads_complete hcancel.kept ⟨h, ec, none⟩
    rw [hcancel.dispenser] at hcomplete
    exact hcancel.trans hcomplete

/-- The streams of the map may be forgotten once the connection is gone. -/
theorem leads_clearStreams (hs : s.Kept) (hgone : s.closedEc ≠ .success) :
    Leads s s.clearStreams s.dispenser := by
  have hforget : Leads s { s with streams := [] } s.dispenser :=
    { kept :=
        { kind := hs.kind
          closed := hs.closed
          known := fun hopen => absurd hopen hgone
          queued := hs.queued }
      ids := rfl
      closedEc := rfl
      ended := rfl
      dispenser := rfl }
  exact hforget.trans (leads_foldl_settle s.streams hforget.kept)

/-- The dispenser is closed as soon as there is a reason for it. -/
theorem dispenser_closed (s : StreamApplication) :
    s.dispenser.closed = true ↔ s.closedEc ≠ .success := decide_eq_true_iff

/-- When `on_closed()` is called the first time, the queue is emptied, and who waits
gets nothing. -/
theorem onClosed_of_open (hs : s.Kept) (hopen : s.closedEc = .success) :
    s.onClosed.Kept ∧ s.onClosed.ids = s.ids ∧ s.onClosed.ended = s.ended ∧
      s.onClosed.closedEc = .connectionAborted ∧ s.onClosed.dispenser =
        s.dispenser.next .close := by
  have hclose : ({ s with closedEc := .connectionAborted, acceptQueue := [] }).Kept :=
    { kind := hs.kind
      closed := fun h => nomatch h
      known := fun h => nomatch h
      queued := fun _ hj => absurd hj List.not_mem_nil }
  have hsettle := leads_foldl_settle s.acceptQueue hclose
  have hall := leads_completeAccept hsettle.kept .connectionAborted
  rw [hsettle.dispenser] at hall
  rw [onClosed, if_neg (not_not.mpr hopen)]
  refine ⟨hall.kept, hall.ids.trans hsettle.ids, hall.ended.trans hsettle.ended,
    hall.closedEc.trans hsettle.closedEc, hall.dispenser.trans ?_⟩
  unfold Dispenser.next Dispenser.cancel dispenser
  cases s.acceptHandler with
  | none => rfl
  | some h => rfl

/-! ### Streams that are new -/

theorem kept_createStream (hs : s.Kept) (c : Setup) (id : Nat) : (s.createStream c id).Kept where
  kind j x hx := by
    rcases getElem?_concat_eq_some hx with hx | ⟨_, rfl⟩
    · exact hs.kind j x hx
    · exact nofun
  closed hopen j x hx hc := by
    rcases getElem?_concat_eq_some hx with hx | ⟨_, rfl⟩
    · exact hs.closed hopen j x hx hc
    · exact nomatch hc
  known hopen j x hx he := by
    rcases getElem?_concat_eq_some hx with hx | ⟨rfl, _⟩
    · exact List.mem_append_left _ (hs.known hopen j x hx he)
    · exact List.mem_append_right _ (List.mem_singleton.mpr rfl)
  queued j hj := by
    obtain ⟨x, hx, hd⟩ := hs.queued j hj
    exact ⟨x, getElem?_eq_some_mono (List.prefix_append _ _) hx, hd⟩

/-- The stream that is new goes into the queue first. -/
theorem kept_push (hs : s.Kept) (c : Setup) (id : Nat) :
    ({ s.createStream c id with acceptQueue := s.acceptQueue ++ [s.made.length] }).Kept where
  kind := (kept_createStream hs c id).kind
  closed := (kept_createStream hs c id).closed
  known := (kept_createStream hs c id).known
  queued k hk := by
    rcases List.mem_append.mp hk with hk | hk
    · exact (kept_createStream hs c id).queued k hk
    · rw [List.mem_singleton.mp hk]
      exact ⟨c.makeStream id, List.getElem?_concat_length, rfl⟩

theorem ids_createStream (s : StreamApplication) (c : Setup) (id : Nat) :
    (s.createStream c id).ids = s.ids ++ [id] := List.map_append ..

/-- `find_stream()` finds streams that there are ... -/
theorem findStream_eq_some {id : Nat} (h : s.findStream id = some k) :
    k ∈ s.streams ∧ ∃ o : PlainStream, s.made[k]? = some o ∧ o.id = id := by
  refine ⟨List.mem_of_find?_eq_some h, ?_⟩
  have hid := List.find?_some h
  cases ho : s.made[k]? with
  | none =>
    rw [ho] at hid
    contradiction
  | some o =>
    rw [ho] at hid
    exact ⟨o, rfl, eq_of_beq hid⟩

/-- ... and all that are in the map ... -/
theorem not_mem_streams {id : Nat} (h : s.findStream id = none) (ho : s.made[k]? = some o)
    (hid : o.id = id) : k ∉ s.streams := by
  intro hmem
  have hnot := List.find?_eq_none.mp h k hmem
  rw [ho] at hnot
  exact hnot (beq_iff_eq.mpr hid)

/-- ... among them every one that ngtcp2 has not closed. -/
theorem findStream_ne_none {id : Nat} (hs : s.Kept) (hopen : s.closedEc = .success)
    (hended : id ∉ s.ended) (hmem : id ∈ s.ids) : s.findStream id ≠ none := by
  obtain ⟨o, ho, rfl⟩ := List.mem_map.mp hmem
  obtain ⟨k, hk⟩ := List.mem_iff_getElem?.mp ho
  intro hnone
  exact not_mem_streams hnone hk rfl (hs.known hopen k o hk hended)

/-- Streams are told apart by their ids. -/
theorem made_inj (h : s.ids.Nodup) {j : Nat} (ho : s.made[k]? = some o) (ho' : s.made[j]? = some o')
    (hid : o'.id = o.id) : j = k := by
  have hk : s.ids[k]? = some o.id := (s.getElem?_ids k).trans (congrArg _ ho)
  have hj : s.ids[j]? = some o'.id := (s.getElem?_ids j).trans (congrArg _ ho')
  refine (List.getElem?_inj (List.getElem?_eq_some_iff.mp hj).1 h).mp ?_
  rw [hj, hk, hid]

/-- The stream at the end of the queue goes to the call that waits, if there is one. -/
theorem leads_deliverAccepted (hs : s.Kept) {queue : List Nat}
    (hqueue : s.acceptQueue = queue ++ [k])
    (hidle : s.acceptHandler ≠ none → queue = []) :
    Leads s s.deliverAccepted ({ s.dispenser with queue := queue }.next (.arrive k)) := by
  have htake : Leads s { s with acceptHandler := none } { s.dispenser with waiting := none } :=
    hs.leads rfl rfl rfl rfl fun _ hj => hj
  obtain ⟨made, streams, acceptQueue, handler, closedEc, ended, accepts, completed⟩ := s
  obtain rfl := hqueue
  cases handler with
  | none => exact .refl hs
  | some h =>
    obtain rfl := hidle (Option.some_ne_none h)
    have hhand := leads_handOut htake.kept h k [] nofun
    exact htake.trans hhand

end StreamApplication

open StreamApplication

/-! ### Runs -/

/-- The stream that ngtcp2 reports something about that it need not have reported before. -/
def Action.reported : Action → Option Nat
  | .streamOpen id => some id
  | .recvStreamData id _ _ => some id
  | .streamReset id => some id
  | .recvStopSending id => some id
  | _ => none

/-- The streams that the peer has opened, in order: those of its streams that are reported for the
first time while the connection is there. -/
def noteOpened (c : Setup) (s : StreamApplication) (id : Nat) (opened : List Nat) : List Nat :=
  if c.remoteStream id = true ∧ s.closedEc = .success ∧ id ∉ opened then opened ++ [id] else opened

def note (c : Setup) (s : StreamApplication) (a : Action) (opened : List Nat) : List Nat :=
  match a.reported with
  | some id => noteOpened c s id opened
  | none => opened

/-- The streams of the peer are accounted for. -/
structure Accepting (c : Setup) (s : StreamApplication) (opened : List Nat) : Prop where
  kept : s.Kept
  nodup : s.ids.Nodup
  peers : s.ids.filter c.remoteStream = opened
  arrived : ∃ arrived, s.dispenser.Valid arrived ∧ arrived.map (s.ids[·]?) = opened.map some

variable {c : Setup} {s t : StreamApplication} {k id : Nat} {opened : List Nat}

/-- What a step leads to that does not end the connection; nor does it make streams after that. -/
structure Next (c : Setup) (s t : StreamApplication) (opened : List Nat) : Prop where
  accepting : Accepting c t opened
  closedEc : t.closedEc = s.closedEc
  ids : s.closedEc ≠ .success → t.ids = s.ids
  grows : s.ids <+: t.ids

/-- Streams that are opened in two functions are opened in both, in this order. -/
theorem Next.trans {u : StreamApplication} {opened' : List Nat} (h₁ : Next c s t opened)
    (h₂ : Next c t u opened') : Next c s u opened' where
  accepting := h₂.accepting
  closedEc := h₂.closedEc.trans h₁.closedEc
  ids hgone := (h₂.ids (h₁.closedEc.symm ▸ hgone)).trans (h₁.ids hgone)
  grows := h₁.grows.trans h₂.grows

theorem Accepting.refl (h : Accepting c s opened) : Next c s s opened :=
  ⟨h, rfl, fun _ => rfl, List.prefix_refl _⟩

/-- What the dispenser allows for is accepted in order. -/
theorem Accepting.leads (h : Accepting c s opened) {d : Dispenser Nat} (ht : Leads s t d)
    (hd : ∀ arrived, s.dispenser.Valid arrived → d.Valid arrived) : Next c s t opened := by
  obtain ⟨arrived, hvalid, hids⟩ := h.arrived
  refine ⟨⟨ht.kept, ?_, ?_, arrived, ?_, ?_⟩, ht.closedEc, fun _ => ht.ids,
    ht.ids ▸ List.prefix_refl _⟩
  · rw [ht.ids]
    exact h.nodup
  · rw [ht.ids]
    exact h.peers
  · rw [ht.dispenser]
    exact hd arrived hvalid
  · rw [ht.ids]
    exact hids

/-- Nothing but a stream changes. -/
theorem Accepting.same (h : Accepting c s opened) (ht : Leads s t s.dispenser) :
    Next c s t opened := h.leads ht fun _ hd => hd

/-- Nobody waits while there is a stream in the queue. -/
theorem Accepting.idle (h : Accepting c s opened) (hw : s.acceptHandler ≠ none) :
    s.acceptQueue = [] := by
  obtain ⟨_, hvalid, _⟩ := h.arrived
  exact hvalid.idle hw

/-- No stream is opened twice. -/
theorem Accepting.nodup_opened (h : Accepting c s opened) : opened.Nodup :=
  h.peers ▸ h.nodup.filter _

/-- No stream is in the queue twice. -/
theorem Accepting.nodup_queue (h : Accepting c s opened) : s.acceptQueue.Nodup := by
  obtain ⟨arrived, hvalid, hlisted⟩ := h.arrived
  -- the queue of a connection that is closed is empty
  cases hclosed : s.dispenser.closed with
  | true =>
    rw [show s.acceptQueue = [] from (hvalid.emptied hclosed).1]
    exact List.nodup_nil
  | false =>
    have hnodup : arrived.Nodup := by
      refine List.Nodup.of_map (s.ids[·]?) ?_
      rw [hlisted]
      exact h.nodup_opened.map (Option.some_injective _)
    rw [← hvalid.given_queue hclosed] at hnodup
    exact (List.nodup_append.mp hnodup).2.1

/-- What is handed out has been made. -/
theorem Accepting.lt_of_completed (h : Accepting c s opened) {x : Completion}
    (hx : x ∈ s.completed) (hk : x.stream = some k) : k < s.made.length := by
  obtain ⟨arrived, hvalid, hlisted⟩ := h.arrived
  have hanswer : (x.accept, x.stream) ∈ s.dispenser.answers := List.mem_map_of_mem hx
  have hgiven : k ∈ s.dispenser.given := List.mem_filterMap.mpr ⟨_, hanswer, hk⟩
  have hmem : s.ids[k]? ∈ opened.map some := by
    rw [← hlisted]
    exact List.mem_map_of_mem (hvalid.given_prefix.subset hgiven)
  obtain ⟨id, _, hid⟩ := List.mem_map.mp hmem
  have hlt := (List.getElem?_eq_some_iff.mp hid.symm).1
  rwa [StreamApplication.ids, List.length_map] at hlt

/-- The streams of the peer have been opened. -/
theorem Accepting.mem_opened (h : Accepting c s opened) (hremote : c.remoteStream id = true) :
    id ∈ opened ↔ id ∈ s.ids := by
  rw [← h.peers, List.mem_filter, and_iff_left hremote]

/-- A stream that is not closed is taken for a new one exactly if it is. -/
theorem Accepting.findStream_eq_none (h : Accepting c s opened) (hopen : s.closedEc = .success)
    (hended : id ∉ s.ended) : s.findStream id = none ↔ id ∉ s.ids := by
  constructor
  · intro hnone hmem
    exact findStream_ne_none h.kept hopen hended hmem hnone
  · intro hnot
    by_contra hsome
    obtain ⟨k, hk⟩ := Option.ne_none_iff_exists'.mp hsome
    obtain ⟨_, o, ho, rfl⟩ := findStream_eq_some hk
    exact hnot (List.mem_map_of_mem (List.mem_of_getElem? ho))

theorem nodup_createStream (h : s.ids.Nodup) (hnew : id ∉ s.ids) :
    (s.createStream c id).ids.Nodup := by
  rw [ids_createStream]
  refine List.nodup_append.mpr ⟨h, List.pairwise_singleton _ id, ?_⟩
  rintro a ha b hb rfl
  rw [List.mem_singleton.mp hb] at ha
  exact hnew ha

/-- A new stream of the peer is handed out, or queued. -/
theorem Accepting.arrive (h : Accepting c s opened) (hopen : s.closedEc = .success)
    (hremote : c.remoteStream id = true) (hnew : id ∉ s.ids) :
    Next c s { s.createStream c id with
      acceptQueue := s.acceptQueue ++ [s.made.length] }.deliverAccepted (opened ++ [id]) := by
  have hlead := leads_deliverAccepted (kept_push h.kept c id) rfl h.idle
  have hids := hlead.ids.trans (s.ids_createStream c id)
  obtain ⟨arrived, hvalid, hlisted⟩ := h.arrived
  refine ⟨⟨hlead.kept, ?_, ?_, arrived ++ [s.made.length], ?_, ?_⟩, hlead.closedEc,
    fun hgone => absurd hopen hgone, hids ▸ List.prefix_append _ _⟩
  · rw [hlead.ids]
    exact nodup_createStream h.nodup hnew
  · rw [hids, List.filter_append, h.peers, List.filter_singleton, hremote]
    rfl
  · rw [hlead.dispenser]
    exact hvalid.arrive (by simp [dispenser, hopen]) s.made.length
  · have hlast : (s.ids ++ [id])[s.made.length]? = some id := by
      have hlen : s.ids.length = s.made.length := List.length_map ..
      rw [← hlen]
      exact List.getElem?_concat_length
    rw [hids, List.map_append, map_getElem?_append hlisted, List.map_append, List.map_singleton,
      hlast]
    rfl

/-- **ngtcp2 reports a stream of the peer**: it arrives if it is a new one. -/
theorem Accepting.openRemoteStream (h : Accepting c s opened) (hended : id ∉ s.ended) :
    Next c s (s.openRemoteStream c id).1 (noteOpened c s id opened) := by
  unfold StreamApplication.openRemoteStream noteOpened
  -- ngtcp2 may report a stream more than once
  cases hfind : s.findStream id with
  | some k =>
    have hknown : ¬(c.remoteStream id = true ∧ s.closedEc = .success ∧ id ∉ opened) := by
      rintro ⟨hremote, hopen, hnew⟩
      have hnone := (h.findStream_eq_none hopen hended).mpr ((h.mem_opened hremote).not.mp hnew)
      rw [hfind] at hnone
      contradiction
    rw [if_neg hknown]
    exact h.refl
  | none =>
    dsimp only
    split_ifs with hignore hnew hnew
    · exact absurd hnew.2.1 (hignore.resolve_left fun hlocal => by simp [hlocal] at hnew)
    · exact h.refl
    · obtain ⟨hremote, hopen, hnew⟩ := hnew
      exact h.arrive hopen hremote ((h.mem_opened hremote).not.mp hnew)
    · obtain ⟨hremote, hopen⟩ := not_or.mp hignore
      have hremote : c.remoteStream id = true := by simpa using hremote
      have hopen := not_not.mp hopen
      have hfresh := (h.findStream_eq_none hopen hended).mp hfind
      exact absurd ⟨hremote, hopen, (h.mem_opened hremote).not.mpr hfresh⟩ hnew

/-- What happens on a stream does not move it in the queue. -/
theorem Accepting.act (h : Accepting c s opened) {a : Act} (hact : s.act k a = some t)
    (ha : a ≠ .destroy) (hfail : ∀ ec, a = .fail ec → s.closedEc = .success →
      ∀ o : PlainStream, s.made[k]? = some o → o.id ∈ s.ended) : Next c s t opened :=
  h.same (leads_act h.kept hact ha hfail)

/-- A report that makes a stream known opens it first. -/
theorem Accepting.report (h : Accepting c s opened) {a : Option Act}
    (hreport : s.report c id a = some t)
    (ha : ∀ x ∈ a, x ≠ .destroy ∧ ∀ ec, x ≠ .fail ec) : Next c s t (noteOpened c s id opened) := by
  obtain ⟨hended, hreport⟩ := Option.ite_none_left_eq_some.mp hreport
  have hopen := h.openRemoteStream hended
  generalize s.openRemoteStream c id = x at hreport hopen
  obtain ⟨s₁, found⟩ := x
  cases found with
  | none =>
    obtain rfl := Option.some.inj hreport
    exact hopen
  | some k =>
    cases a with
    | none =>
      obtain rfl := Option.some.inj hreport
      exact hopen
    | some x =>
      obtain ⟨hdestroy, hfail⟩ := ha x rfl
      exact hopen.trans (hopen.accepting.act hreport hdestroy fun ec he => absurd he (hfail ec))

/-- ngtcp2 closes a stream. -/
theorem Accepting.streamClose (h : Accepting c s opened) (id : Nat) :
    Next c s { s with ended := id :: s.ended } opened where
  accepting :=
    { kept :=
        { kind := h.kept.kind
          closed := fun ho k o hk hc => List.mem_cons_of_mem id (h.kept.closed ho k o hk hc)
          known := fun ho k o hk he =>
            h.kept.known ho k o hk fun hmem => he (List.mem_cons_of_mem id hmem)
          queued := h.kept.queued }
      nodup := h.nodup
      peers := h.peers
      arrived := h.arrived }
  closedEc := rfl
  ids _ := rfl
  grows := List.prefix_refl _

/-- A stream of ours is not accepted. -/
theorem Accepting.openStream (h : Accepting c s opened) (hopen : s.closedEc = .success)
    (hlocal : c.remoteStream id = false) (hnew : id ∉ s.ids) :
    Next c s (s.openStream c id) opened := by
  have hlead := leads_makeHandle (kept_createStream h.kept c id) s.made.length
  have hids := hlead.ids.trans (s.ids_createStream c id)
  obtain ⟨arrived, hvalid, hlisted⟩ := h.arrived
  refine ⟨⟨hlead.kept, ?_, ?_, arrived, ?_, ?_⟩, hlead.closedEc,
    fun hgone => absurd hopen hgone, hids ▸ List.prefix_append _ _⟩
  · rw [StreamApplication.openStream, hlead.ids]
    exact nodup_createStream h.nodup hnew
  · rw [StreamApplication.openStream, hids, List.filter_append, h.peers, List.filter_singleton,
      hlocal]
    exact List.append_nil _
  · rw [StreamApplication.openStream, hlead.dispenser]
    exact hvalid
  · rw [StreamApplication.openStream, hids]
    exact map_getElem?_append hlisted

/-- **What every step preserves**, other than `on_closed()`. -/
theorem step_next (h : Accepting c s opened) {a : Action} (ht : step c s a = some t)
    (ha : a ≠ .onClosed) : Next c s t (note c s a opened) := by
  cases a with
  | streamOpen id => exact h.report ht nofun
  | recvStreamData id data fin =>
    exact h.report ht fun x hx => by
      obtain rfl := Option.some.inj hx
      exact ⟨nofun, nofun⟩
  | streamReset id =>
    exact h.report ht fun x hx => by
      obtain rfl := Option.some.inj hx
      exact ⟨nofun, nofun⟩
  | recvStopSending id =>
    exact h.report ht fun x hx => by
      obtain rfl := Option.some.inj hx
      exact ⟨nofun, nofun⟩
  | streamClose id flag =>
    obtain ⟨_, ht⟩ := Option.ite_none_left_eq_some.mp ht
    have hend := h.streamClose id
    cases hfind : ({ s with ended := id :: s.ended }).findStream id with
    | none =>
      rw [hfind] at ht
      obtain rfl := Option.some.inj ht
      exact hend
    | some k =>
      rw [hfind] at ht
      refine hend.trans (hend.accepting.act ht nofun fun _ _ _ o ho => ?_)
      -- it is this stream that fails
      obtain ⟨_, x, hx, hid⟩ := findStream_eq_some hfind
      obtain rfl := Option.some.inj (hx.symm.trans ho)
      rw [hid]
      exact List.mem_cons_self
  | stream k a =>
    obtain ⟨o, _, ht⟩ := Option.bind_eq_some_iff.mp ht
    obtain ⟨hby, ht⟩ := Option.ite_none_right_eq_some.mp ht
    refine h.act ht ?_ ?_
    · rintro rfl
      exact Bool.false_ne_true hby
    · rintro ec rfl
      exact absurd hby Bool.false_ne_true
  | asyncAcceptStream =>
    obtain rfl := Option.some.inj ht
    exact h.leads (leads_asyncAcceptStream h.kept) fun _ hd => hd.ask
  | cancelAccept =>
    obtain rfl := Option.some.inj ht
    exact h.leads (leads_completeAccept h.kept _) fun _ hd => hd.cancel
  | openStream id =>
    obtain ⟨⟨hopen, hlocal, _, hnew⟩, ht⟩ := Option.ite_none_right_eq_some.mp ht
    obtain rfl := Option.some.inj ht
    exact h.openStream hopen hlocal hnew
  | onClosed => exact absurd rfl ha
  | failStream k ec =>
    obtain ⟨⟨hgone, _⟩, ht⟩ := Option.ite_none_right_eq_some.mp ht
    exact h.act ht nofun fun _ _ hopen => absurd hopen hgone
  | clearStreams =>
    obtain ⟨hgone, ht⟩ := Option.ite_none_right_eq_some.mp ht
    obtain rfl := Option.some.inj ht
    exact h.same (leads_clearStreams h.kept hgone)

/-- The connection is gone after `on_closed()`. -/
theorem Accepting.onClosed (h : Accepting c s opened) :
    Accepting c s.onClosed opened ∧ s.onClosed.closedEc ≠ .success ∧ s.onClosed.ids = s.ids := by
  -- a connection is closed once
  by_cases hopen : s.closedEc = .success
  · obtain ⟨hkept, hids, _, hclosedEc, hdispenser⟩ := onClosed_of_open h.kept hopen
    obtain ⟨arrived, hvalid, hlisted⟩ := h.arrived
    refine ⟨⟨hkept, ?_, ?_, arrived, ?_, ?_⟩, ?_, hids⟩
    · rw [hids]
      exact h.nodup
    · rw [hids]
      exact h.peers
    · rw [hdispenser]
      exact hvalid.close
    · rw [hids]
      exact hlisted
    · rw [hclosedEc]
      exact nofun
  · rw [StreamApplication.onClosed, if_pos hopen]
    exact ⟨h, hopen, rfl⟩

/-- **What every step preserves**: `Accepting`, of the streams that have been opened so far. -/
theorem step_accepting (h : Accepting c s opened) {a : Action} (ht : step c s a = some t) :
    Accepting c t (note c s a opened) := by
  by_cases ha : a = .onClosed
  · subst ha
    obtain rfl := Option.some.inj ht
    exact h.onClosed.1
  · exact (step_next h ht ha).accepting

theorem accepting_init (c : Setup) : Accepting c {} [] where
  kept :=
    { kind := fun _ _ hk => absurd (List.mem_of_getElem? hk) List.not_mem_nil
      closed := fun _ _ _ hk => absurd (List.mem_of_getElem? hk) List.not_mem_nil
      known := fun _ _ _ hk => absurd (List.mem_of_getElem? hk) List.not_mem_nil
      queued := fun _ hk => absurd hk List.not_mem_nil }
  nodup := List.nodup_nil
  peers := rfl
  arrived := ⟨[], Dispenser.valid_empty, rfl⟩

/-- **Run lemma**: every state of a run is `Accepting`. -/
theorem run_accepting {as : List Action} {opened' : List Nat} (h : Accepting c s opened)
    (hrun : run (noting (note c) (step c)) (s, opened) as = some (t, opened')) :
    Accepting c t opened' :=
  noting_inv (note c) (P := Accepting c) (fun _ _ _ _ hs ht => step_accepting hs ht) h hrun

/-! ### The end of the connection -/

/-- The connection is there as long as `on_closed()` has not been called ... -/
theorem run_open {as : List Action} (h : Accepting c s opened)
    (hrun : run (step c) s as = some t) :
    t.closedEc = .success ↔ s.closedEc = .success ∧ .onClosed ∉ as := by
  have hmeets := run_iff_meets (I := fun x => ∃ xs, Accepting c x xs)
    (P := fun x => x.closedEc = .success) (Q := fun _ a => a ≠ .onClosed) ?_ ?_ ⟨opened, h⟩ hrun
  · rw [hmeets, meets_iff_forall hrun]
    exact and_congr_right fun _ => ⟨fun hall hmem => hall _ hmem rfl, fun hnot a ha heq =>
      hnot (heq ▸ ha)⟩
  · rintro s a t ⟨xs, hs⟩ ht
    exact ⟨_, step_accepting hs ht⟩
  · rintro s a t ⟨xs, hs⟩ ht
    -- the step that closes the connection, or any other
    by_cases ha : a = .onClosed
    · subst ha
      obtain rfl := Option.some.inj ht
      exact iff_of_false hs.onClosed.2.1 fun hx => hx.2 rfl
    · rw [(step_next hs ht ha).closedEc, and_iff_left ha]

/-- ... and no stream is made any more after that. -/
theorem run_gone {as : List Action} (h : Accepting c s opened) (hgone : s.closedEc ≠ .success)
    (hrun : run (step c) s as = some t) : t.ids = s.ids := by
  have hinv := run_inv (P := fun x => (∃ xs, Accepting c x xs) ∧ x.ids = s.ids ∧
    x.closedEc ≠ .success) ?_ ⟨⟨opened, h⟩, rfl, hgone⟩ hrun
  · exact hinv.2.1
  · rintro s₁ a t₁ ⟨⟨xs, hs⟩, hids, hgone⟩ ht
    refine ⟨⟨_, step_accepting hs ht⟩, ?_⟩
    by_cases ha : a = .onClosed
    · subst ha
      obtain rfl := Option.some.inj ht
      exact ⟨hs.onClosed.2.2.trans hids, hs.onClosed.2.1⟩
    · have hnext := step_next hs ht ha
      exact ⟨(hnext.ids hgone).trans hids, hnext.closedEc ▸ hgone⟩

/-! ### Accepting in order -/

namespace StreamApplication

/-- The ids of the streams that have been handed out to calls of `async_accept_stream()`. -/
def handed (s : StreamApplication) : List Nat :=
  s.completed.filterMap fun x => x.stream.bind (s.ids[·]?)

/-- The ids of the streams that wait to be accepted. -/
def queued (s : StreamApplication) : List Nat := s.acceptQueue.filterMap (s.ids[·]?)

/-- The calls of `async_accept_stream()` that got a stream. -/
def served (s : StreamApplication) : List Nat :=
  (s.completed.filter (·.stream.isSome)).map Completion.accept

theorem handed_eq (s : StreamApplication) :
    s.handed = s.dispenser.given.filterMap (s.ids[·]?) := by
  unfold handed Dispenser.given dispenser
  rw [List.filterMap_map, List.filterMap_filterMap]
  rfl

theorem served_eq (s : StreamApplication) : s.served = s.dispenser.served := by
  unfold served Dispenser.served dispenser
  rw [List.filter_map, List.map_map]
  rfl

end StreamApplication

/-- **Streams are accepted in order.** -/
theorem accept_in_order {as : List Action}
    (hrun : run (noting (note c) (step c)) ({}, []) as = some (s, opened)) :
    -- each stream is handed out once, in the order in which the peer has opened them
    opened.Nodup ∧ s.handed <+: opened ∧ s.served.Pairwise (· < ·) ∧
    -- before `on_closed()`, the others are there, and wait
    (.onClosed ∉ as → s.handed ++ s.queued = opened) ∧
    (∀ k ∈ s.acceptQueue, ∃ o, s.made[k]? = some o ∧ o.stream.destroyed = false) ∧
    (s.acceptHandler ≠ none → s.acceptQueue = []) ∧
    -- every call is completed once, if it is not the one that waits
    (s.completed.map Completion.accept ++ s.acceptHandler.toList).Perm (List.range s.accepts) ∧
    -- after `on_closed()`, nothing waits and no stream is made
    (.onClosed ∈ as → s.acceptHandler = none ∧
      ∀ bs t opened', run (noting (note c) (step c)) (s, opened) bs = some (t, opened') →
        t.ids = s.ids ∧ t.acceptQueue = []) := by
  have h := run_accepting (accepting_init c) hrun
  have hopen := run_open (accepting_init c) (run_of_noting (note c) hrun)
  obtain ⟨arrived, hvalid, hlisted⟩ := h.arrived
  have hall : arrived.filterMap (s.ids[·]?) = opened := filterMap_getElem? hlisted
  refine ⟨h.nodup_opened, ?_, ?_, ?_, h.kept.queued, h.idle, ?_, ?_⟩
  · rw [handed_eq, ← hall]
    exact hvalid.given_prefix.filterMap _
  · rw [served_eq]
    exact hvalid.served_sorted
  · intro hnot
    have hclosed : s.dispenser.closed = false := by
      rw [dispenser, hopen.mpr ⟨rfl, hnot⟩]
      rfl
    rw [handed_eq, queued, ← List.filterMap_append, ← hall]
    exact congrArg _ (hvalid.given_queue hclosed)
  · have htickets := hvalid.tickets
    rw [dispenser, List.map_map] at htickets
    exact htickets
  · intro hmem
    have hgone : s.closedEc ≠ .success := fun heq => (hopen.mp heq).2 hmem
    refine ⟨(hvalid.emptied (s.dispenser_closed.mpr hgone)).2, ?_⟩
    intro bs t opened' hmore
    have hplain := run_of_noting (note c) hmore
    have hstill : t.closedEc ≠ .success := fun heq => hgone ((run_open h hplain).mp heq).1
    obtain ⟨_, hvalid', _⟩ := (run_accepting h hmore).arrived
    exact ⟨run_gone h hgone hplain, (hvalid'.emptied (t.dispenser_closed.mpr hstill)).1⟩

def serverSetup : Setup := ⟨true, ⟨0, 0⟩, .staged⟩

/-- A call waits, so that another one is refused; two streams arrive, and ngtcp2 closes the second
one before the connection ends. -/
def acceptsOne : List Action :=
  [.asyncAcceptStream, .asyncAcceptStream, .recvStreamData 0 [1] false, .streamReset 4,
    .cancelAccept, .streamClose 4 none, .onClosed, .asyncAcceptStream]

theorem accept_in_order_acceptsOne :
    (run (noting (note serverSetup) (step serverSetup)) ({}, []) acceptsOne).map
      (fun x => (x.2, x.1.handed, x.1.completed.map Completion.accept)) =
        some ([0, 4], [0], [1, 0, 2]) ∧
    ∃ s opened, run (noting (note serverSetup) (step serverSetup)) ({}, []) acceptsOne =
      some (s, opened) ∧ s.handed <+: opened := by
  refine ⟨by decide, ?_⟩
  obtain ⟨⟨s, opened⟩, hrun⟩ : ∃ x, run (noting (note serverSetup) (step serverSetup)) ({}, [])
    acceptsOne = some x := ⟨_, rfl⟩
  exact ⟨s, opened, hrun, (accept_in_order hrun).2.1⟩

end AnyHttp.Quic.Accept
