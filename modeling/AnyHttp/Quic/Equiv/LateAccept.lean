import AnyHttp.Quic.Equiv.Ended
import AnyHttp.Quic.Equiv.View

/-!
# A late accept

A stream that waits in the accept queue keeps what has arrived, also if ngtcp2 closes it meanwhile:
the queue owns it.  What is handed out of the queue does not own anything, though.  A stream that
ngtcp2 has closed before that is in no map any more, and is destroyed as soon as the queue lets go
of it, with what nobody has read.

`delivers_iff` says for which streams that is so.
-/

namespace AnyHttp.Quic

open Lib Receiver

namespace Accept

open StreamApplication

namespace View

variable {v v' : View}

/-! ### In the queue -/

/-- A stream that nobody has had a handle of.  The map has it until ngtcp2 closes it. -/
structure Untouched (v : View) : Prop where
  handedOut : v.o.handedOut = false
  reader : v.o.stream.q.reader = false
  writer : v.o.stream.q.writer = false
  handle : v.o.stream.reader = .attached
  live : v.o.stream.destroyed = false
  handler : v.o.stream.q.rx.readHandler = none
  frames : v.o.stream.frames = []
  silent : delivered v.o.stream.trace = []
  closed : v.o.stream.q.closed = v.ended
  mapped : v.mapped = !v.ended

/-- What is true of all streams. -/
structure Sound (v : View) : Prop where
  rep : v.o.stream.past.Rep .rest
  flow : v.o.stream.past.Flow
  untouched : v.queued = true → v.Untouched

/-- Something that is not up to the user happens to a stream that is in the queue. -/
theorem Untouched.act (h : v.Untouched) (hrep : v.o.stream.past.Rep .rest)
    (hkind : v.o.stream.q.kind ≠ .http3) {a : Act} {m : Stream} (hby : a.fromNgtcp2 = true)
    (hm : v.o.stream.step a = some m) :
    Untouched { v with
      o := { v.o with stream := m }
      mapped := v.mapped && decide (Call.eraseStream ∉ m.q.calls) } := by
  have hkeeps := Stream.step_keeps hkind hm
  have hdestroy : a ≠ .destroy := ne_of_fromNgtcp2 hby rfl
  have hread : a ≠ .dropReader := ne_of_fromNgtcp2 hby rfl
  have hquiet := (Stream.reception (c := .any) hrep trivial hm).silent h.handler
    fun _ _ => ne_of_fromNgtcp2 hby rfl
  have hclosed : m.q.closed = v.ended :=
    (hkeeps.closed fun _ => ne_of_fromNgtcp2 hby rfl).trans h.closed
  have hmapped : (v.mapped && decide (Call.eraseStream ∉ m.q.calls)) = !v.ended := by
    rw [h.mapped]
    cases hended : v.ended with
    | true => rfl
    | false =>
      -- what has not been closed has not been erased
      have hkept : Call.eraseStream ∉ m.q.calls := by
        intro he
        obtain ⟨_, _, hc⟩ := hkeeps.sound (decide_eq_true he)
        exact absurd ((hclosed.trans hended).symm.trans hc) Bool.false_ne_true
      rw [decide_eq_true hkept]
      rfl
  exact
    { handedOut := h.handedOut
      reader := (hkeeps.reader hread hdestroy).trans h.reader
      writer := (hkeeps.writer (ne_of_fromNgtcp2 hby rfl) hdestroy).trans h.writer
      handle := (hkeeps.handle hread hdestroy).trans h.handle
      live := (hkeeps.destroyed hdestroy).trans h.live
      handler := hquiet.1
      frames := (Stream.step_frames hkind h.handler (.inl hby) hm).trans h.frames
      silent := hquiet.2.trans h.silent
      closed := hclosed
      mapped := hmapped }

/-- ngtcp2 closes it. -/
theorem Untouched.close (h : v.Untouched) (hrep : v.o.stream.past.Rep .rest)
    (hkind : v.o.stream.q.kind ≠ .http3) {ec : ErrorCode} {m : Stream}
    (hm : v.o.stream.step (.fail ec) = some m) :
    Untouched { v with
      o := { v.o with stream := m }
      mapped := v.mapped && decide (Call.eraseStream ∉ m.q.calls)
      ended := true } := by
  have hkeeps := Stream.step_keeps hkind hm
  have hquiet := (Stream.reception (c := .any) hrep trivial hm).silent h.handler nofun
  obtain ⟨hclosed, herased⟩ := Stream.step_fail_erases h.live h.handler hkind h.reader h.writer hm
  exact
    { handedOut := h.handedOut
      reader := (hkeeps.reader nofun nofun).trans h.reader
      writer := (hkeeps.writer nofun nofun).trans h.writer
      handle := (hkeeps.handle nofun nofun).trans h.handle
      live := (hkeeps.destroyed nofun).trans h.live
      handler := hquiet.1
      frames := (Stream.step_frames hkind h.handler (.inr ⟨ec, rfl⟩) hm).trans h.frames
      silent := hquiet.2.trans h.silent
      closed := hclosed
      mapped := by
        show (v.mapped && decide (Call.eraseStream ∉ m.q.calls)) = false
        rw [decide_eq_false (not_not_intro herased), Bool.and_false] }

theorem Step.sound (hstep : v.Step v') (h : v.Sound) : v'.Sound := by
  cases hstep with
  | act hkind hby hm =>
    refine ⟨Stream.step_rep h.rep hm,
      (Stream.reception (c := .any) h.rep trivial hm).flow h.rep h.flow,
      fun hqueued => ?_⟩
    have huntouched := h.untouched hqueued
    rcases hby with ⟨_, hhanded⟩ | hby
    · exact absurd (huntouched.handedOut.symm.trans hhanded) Bool.false_ne_true
    · exact huntouched.act h.rep hkind hby hm
  | close hkind hm =>
    exact ⟨Stream.step_rep h.rep hm,
      (Stream.reception (c := .any) h.rep trivial hm).flow h.rep h.flow,
      fun hqueued => (h.untouched hqueued).close h.rep hkind hm⟩
  | forget hmapped =>
    refine ⟨h.rep, h.flow, fun hqueued => ?_⟩
    have huntouched := h.untouched hqueued
    have hended : v.ended = true := Bool.not_eq_false' .. ▸ (huntouched.mapped.symm.trans hmapped)
    obtain ⟨o, mapped, queued, ended⟩ := v
    obtain rfl := hended
    exact huntouched
  | destroy hkind hmapped hqueued hm =>
    exact ⟨Stream.step_rep h.rep hm,
      (Stream.reception (c := .any) h.rep trivial hm).flow h.rep h.flow,
      fun hq => absurd (hqueued.symm.trans hq) Bool.false_ne_true⟩
  | accept hqueued => exact ⟨h.rep, h.flow, fun hq => absurd hq Bool.false_ne_true⟩

theorem sound_remoteView (c : Setup) (id : Nat) : (c.remoteView id).Sound where
  rep := Stream.rep_init (.plain c.config) c.mode true
  flow := fun _ _ => rfl
  untouched := fun _ => ⟨rfl, rfl, rfl, rfl, rfl, rfl, rfl, rfl, rfl, rfl⟩

theorem sound_localView (c : Setup) (id : Nat) : (c.localView id).Sound where
  rep := Stream.rep_init (.plain c.config) c.mode true
  flow := fun _ _ => rfl
  untouched := fun hq => absurd hq Bool.false_ne_true

/-! ### Handed out -/

/-- A stream whose reader, if it has not been let go of, keeps the stream in the map. -/
def Owned (v : View) : Prop :=
  v.o.stream.reader ≠ .released →
    v.mapped = true ∧ v.o.stream.reader = .attached ∧ v.o.stream.q.reader = true ∧
      v.o.stream.destroyed = false

/-- The adapter is there, or the handle has let go of it. -/
theorem Owned.act (h : v.Owned) (hkind : v.o.stream.q.kind ≠ .http3) {a : Act} {m : Stream}
    (ha : a ≠ .destroy) (hm : v.o.stream.step a = some m) (ended : Bool) :
    Owned { v with
      o := { v.o with stream := m }
      mapped := v.mapped && decide (Call.eraseStream ∉ m.q.calls)
      ended := ended } := by
  intro hne
  by_cases hdrop : a = .dropReader
  · subst hdrop
    exact absurd (Stream.reader_of_dropReader hm) hne
  have hkeeps := Stream.step_keeps hkind hm
  have hhandle := hkeeps.handle hdrop ha
  obtain ⟨hmapped, hattached, hreader, hlive⟩ := h fun heq => hne (hhandle.trans heq)
  have hreader' : m.q.reader = true := (hkeeps.reader hdrop ha).trans hreader
  refine ⟨?_, hhandle.trans hattached, hreader', (hkeeps.destroyed ha).trans hlive⟩
  have hkept : Call.eraseStream ∉ m.q.calls := by
    intro he
    obtain ⟨hgone, _⟩ := hkeeps.sound (decide_eq_true he)
    exact absurd (hgone.symm.trans hreader') Bool.false_ne_true
  show (v.mapped && decide (Call.eraseStream ∉ m.q.calls)) = true
  rw [hmapped, decide_eq_true hkept]
  rfl

theorem Step.owned (hstep : v.Step v') (h : v.Owned) : v'.Owned := by
  cases hstep with
  | act hkind hby hm =>
    refine h.act hkind ?_ hm v.ended
    rintro rfl
    rcases hby with ⟨hby, _⟩ | hby
    · exact absurd hby Bool.false_ne_true
    · exact absurd hby Bool.false_ne_true
  | close hkind hm => exact h.act (a := .fail _) hkind nofun hm true
  | forget hmapped => exact h
  | destroy hkind hmapped hqueued hm =>
    -- only what the map has lost is destroyed
    intro hne
    have hheld : v.o.stream.reader ≠ .released :=
      fun heq => hne (Stream.released_of_destroy heq hm)
    exact absurd (hmapped.symm.trans (h hheld).1) Bool.false_ne_true
  | accept hqueued =>
    intro hne
    obtain ⟨hmapped, hattached, _, hlive⟩ := h hne
    exact ⟨hmapped, hattached, rfl, hlive⟩

theorem Step.gone (hstep : v.Step v') (h : v.o.stream.Gone) : v'.o.stream.Gone := by
  cases hstep with
  | act hkind hby hm => exact h.step hm
  | close hkind hm => exact h.step hm
  | forget hmapped => exact h
  | destroy hkind hmapped hqueued hm => exact h.step hm
  | accept hqueued => exact ⟨h.destroyed, h.frames, h.silent, h.reader, h.told⟩

theorem Step.id (hstep : v.Step v') : v'.o.id = v.o.id := by
  cases hstep with
  | act hkind hby hm => rfl
  | close hkind hm => rfl
  | forget hmapped => rfl
  | destroy hkind hmapped hqueued hm => rfl
  | accept hqueued => rfl

/-- What becomes of a stream that is handed out, when ngtcp2 has closed these. -/
structure Fate (ended : List Nat) (v : View) : Prop where
  owned : v.o.id ∉ ended → v.Owned
  gone : v.o.id ∈ ended → v.o.stream.Gone

theorem Step.fate {ended : List Nat} (hstep : v.Step v') (h : v.Fate ended) : v'.Fate ended where
  owned hnot := hstep.owned (h.owned fun hmem => hnot (hstep.id.symm ▸ hmem))
  gone hmem := hstep.gone (h.gone (hstep.id ▸ hmem))

end View

namespace StreamApplication

variable {c : Setup} {s t : StreamApplication} {k : Nat}

/-- The stream at the front of the queue is handed out: if the map does not have it any more, it
is destroyed. -/
theorem fate_handOut (h : s.All fun _ v => v.Sound) (hs : s.Kept) {rest : List Nat}
    (hqueue : s.acceptQueue = k :: rest) (hk : k ∉ rest) (n : Nat) :
    (s.handOut n k rest).All fun j v => j = k → v.Fate s.ended := by
  rintro j v hv rfl
  have hmem : j ∈ s.acceptQueue := by
    rw [hqueue]
    exact List.mem_cons_self
  obtain ⟨o, ho, _⟩ := hs.queued j hmem
  have hsound := h.of_made ho
  have huntouched := hsound.untouched (decide_eq_true hmem)
  obtain ⟨u, heq, hmade, hkept, hrest, hended⟩ := handOut_eq ho n rest
  have hattached : u.made[j]? = some o.attach := by
    rw [hmade]
    exact (getElem?_set_eq_some ho).mpr (.inl ⟨rfl, rfl⟩)
  rw [heq] at hv
  by_cases hstreams : j ∈ s.streams
  · rw [settle_of_mem (by rw [hkept]; exact hstreams), view_of_made hattached] at hv
    obtain rfl := Option.some.inj hv
    have hmapped : decide (j ∈ s.streams) = !decide (o.id ∈ s.ended) := huntouched.mapped
    refine ⟨fun _ _ => ⟨?_, huntouched.handle, rfl, huntouched.live⟩, fun hmem => ?_⟩
    · rw [hkept]
      exact decide_eq_true hstreams
    · rw [decide_eq_true hstreams, decide_eq_true (p := o.id ∈ s.ended) hmem] at hmapped
      exact nomatch hmapped
  · obtain ⟨m, hm⟩ := Stream.exists_step_destroy (m := o.attach.stream) huntouched.frames
      huntouched.live
    have hgone := Stream.step_destroy_gone (m := o.attach.stream) huntouched.frames
      huntouched.handler huntouched.silent hsound.rep huntouched.live hm
    have hdestroyed : (u.put j { o.attach with stream := m }).made[j]? =
        some { o.attach with stream := m } :=
      (getElem?_set_eq_some hattached).mpr (.inl ⟨rfl, rfl⟩)
    rw [settle_of_gone hattached (by rw [hkept]; exact hstreams) (by rw [hrest]; exact hk)
      huntouched.live hm, view_of_made hdestroyed] at hv
    obtain rfl := Option.some.inj hv
    have hmapped : decide (j ∈ s.streams) = !decide (o.id ∈ s.ended) := huntouched.mapped
    refine ⟨fun hnot => ?_, fun _ => hgone⟩
    rw [decide_eq_false hstreams, decide_eq_false (p := o.id ∈ s.ended) hnot] at hmapped
    exact nomatch hmapped

/-! ### When streams are handed out -/

theorem completed_settle (s : StreamApplication) (k : Nat) :
    (s.settle k).completed = s.completed := by
  rcases s.settle_cases k with heq | ⟨o, m, _, _, _, _, heq⟩
  · rw [heq]
  · rw [heq]
    rfl

theorem completed_act {a : Act} (h : s.act k a = some t) : t.completed = s.completed := by
  obtain ⟨o, _, h⟩ := Option.bind_eq_some_iff.mp h
  obtain ⟨m, _, rfl⟩ := Option.map_eq_some_iff.mp h
  exact completed_settle ..

theorem completed_handOut (s : StreamApplication) (n k : Nat) (rest : List Nat) :
    (s.handOut n k rest).completed = s.completed ++ [⟨n, .success, some k⟩] := by
  refine (completed_settle ..).trans ?_
  unfold makeHandle
  split
  · rfl
  · rfl

/-- The call that is completed with a stream by a step. -/
def Completes (s t : StreamApplication) (n k : Nat) : Prop :=
  t.completed = s.completed ++ [⟨n, .success, some k⟩]

variable {n : Nat}

theorem not_completes (h : t.completed = s.completed) : ¬s.Completes t n k := by
  intro hc
  have hlength := congrArg List.length (h.symm.trans hc)
  simp at hlength

/-- A call is completed with another stream, or without one. -/
theorem Completes.inj {x : Completion} (h : s.Completes t n k)
    (ht : t.completed = s.completed ++ [x]) : x = ⟨n, .success, some k⟩ :=
  (List.cons.inj (List.append_cancel_left (ht.symm.trans h))).1

theorem fate_deliverAccepted (h : s.All fun _ v => v.Sound) (hs : s.Kept)
    {queue : List Nat} {j : Nat}
    (hqueue : s.acceptQueue = queue ++ [j]) (hidle : s.acceptHandler ≠ none → queue = [])
    (hc : s.Completes s.deliverAccepted n k) :
    s.deliverAccepted.All fun j v => j = k → v.Fate s.ended := by
  rcases s.deliverAccepted_cases with heq | ⟨n', k', rest, hw, hfirst, heq⟩
  · rw [heq] at hc
    exact absurd hc (not_completes rfl)
  · rw [heq] at hc ⊢
    obtain ⟨_, _, hk⟩ := Completion.mk.inj (hc.inj (completed_handOut ..))
    obtain rfl := Option.some.inj hk
    -- it is the only one in the queue
    have hempty : queue = [] := hidle (by simp [hw])
    have hsingle : k' :: rest = [j] := by
      rw [← hfirst, hqueue, hempty]
      rfl
    obtain ⟨rfl, rfl⟩ := List.cons.inj hsingle
    have hkept := (hs.leads (t := { s with acceptHandler := none }) rfl rfl rfl rfl
      fun _ hj => hj).kept
    exact fate_handOut (s := { s with acceptHandler := none }) (h.congr rfl rfl rfl rfl)
      hkept hfirst
      List.not_mem_nil n'

theorem fate_openRemoteStream (h : s.All fun _ v => v.Sound) {opened : List Nat}
    (ha : Accepting c s opened) {id : Nat} (hended : id ∉ s.ended)
    (hc : s.Completes (s.openRemoteStream c id).1 n k) :
    (s.openRemoteStream c id).1.All fun j v => j = k → v.Fate s.ended := by
  unfold StreamApplication.openRemoteStream at hc ⊢
  cases hfind : s.findStream id with
  | some j =>
    rw [hfind] at hc
    exact absurd hc (not_completes rfl)
  | none =>
    rw [hfind] at hc
    dsimp only at hc ⊢
    split_ifs at hc ⊢
    · exact absurd hc (not_completes rfl)
    · exact fate_deliverAccepted (h.push hended (View.sound_remoteView c id))
        (kept_push ha.kept c id)
        rfl ha.idle hc

theorem fate_report (h : s.All fun _ v => v.Sound) {opened : List Nat} (ha : Accepting c s opened)
    {id : Nat} {a : Option Act} (hby : ∀ x ∈ a, x.fromNgtcp2 = true)
    (hreport : s.report c id a = some t) (hc : s.Completes t n k) :
    t.All fun j v => j = k → v.Fate s.ended := by
  obtain ⟨hended, hreport⟩ := Option.ite_none_left_eq_some.mp hreport
  have hfate := fate_openRemoteStream (n := n) (k := k) h ha hended
  have hnext := (ha.openRemoteStream hended).accepting
  generalize s.openRemoteStream c id = x at hreport hfate hnext
  obtain ⟨s₁, found⟩ := x
  cases found with
  | none =>
    obtain rfl := Option.some.inj hreport
    exact hfate hc
  | some j =>
    cases a with
    | none =>
      obtain rfl := Option.some.inj hreport
      exact hfate hc
    | some x =>
      have hopen : s.Completes s₁ n k := (completed_act hreport).symm.trans hc
      refine All.act (fun j v v' hv hstep hj => hstep.fate (hv hj)) (hfate hopen) hnext.kept
        ⟨rfl, rfl, rfl⟩ (fun _ _ _ _ => Iff.rfl) ?_ hreport
      exact fun o m ho hm => .act (hnext.kept.kind j o ho) (.inr (hby x rfl)) hm

theorem fate_asyncAcceptStream (h : s.All fun _ v => v.Sound) {opened : List Nat}
    (ha : Accepting c s opened) (hc : s.Completes s.asyncAcceptStream n k) :
    s.asyncAcceptStream.All fun j v => j = k → v.Fate s.ended := by
  rcases s.asyncAcceptStream_cases with ⟨j, rest, hqueue, heq⟩ | ⟨_, _, _, _, hsame | ⟨ec, hnone⟩⟩
  · have hasked : ({ s with accepts := s.accepts + 1 }).All fun _ v => v.Sound :=
      h.congr rfl rfl rfl rfl
    have hkept := (ha.kept.leads (t := { s with accepts := s.accepts + 1 }) rfl rfl rfl rfl
      fun _ hj => hj).kept
    have hnodup := ha.nodup_queue
    rw [hqueue] at hnodup
    rw [heq] at hc ⊢
    obtain ⟨_, _, hk⟩ := Completion.mk.inj (hc.inj (completed_handOut ..))
    obtain rfl := Option.some.inj hk
    exact fate_handOut hasked hkept hqueue (List.nodup_cons.mp hnodup).1 _
  · exact absurd hc (not_completes hsame)
  · exact nomatch hc.inj hnone

/-- What becomes of a stream is decided when it is handed out. -/
theorem fate_step (h : s.All fun _ v => v.Sound) {opened : List Nat} (ha : Accepting c s opened)
    {a : Action} (ht : step c s a = some t) (hopen : t.closedEc = .success)
    (hc : s.Completes t n k) : t.All fun j v => j = k → v.Fate s.ended := by
  cases a with
  | streamOpen id => exact fate_report (a := none) h ha (fun _ hx => nomatch hx) ht hc
  | recvStreamData id data fin =>
    exact fate_report h ha (fun x hx => Option.some.inj hx ▸ rfl) ht hc
  | streamReset id => exact fate_report h ha (fun x hx => Option.some.inj hx ▸ rfl) ht hc
  | recvStopSending id => exact fate_report h ha (fun x hx => Option.some.inj hx ▸ rfl) ht hc
  | streamClose id flag =>
    obtain ⟨_, ht⟩ := Option.ite_none_left_eq_some.mp ht
    cases hfind : ({ s with ended := id :: s.ended }).findStream id with
    | none =>
      rw [hfind] at ht
      obtain rfl := Option.some.inj ht
      exact absurd hc (not_completes rfl)
    | some j =>
      rw [hfind] at ht
      exact absurd hc (not_completes (completed_act (s := { s with ended := id :: s.ended }) ht))
  | stream j a =>
    obtain ⟨_, _, ht⟩ := Option.bind_eq_some_iff.mp ht
    obtain ⟨_, ht⟩ := Option.ite_none_right_eq_some.mp ht
    exact absurd hc (not_completes (completed_act ht))
  | asyncAcceptStream =>
    obtain rfl := Option.some.inj ht
    exact fate_asyncAcceptStream h ha hc
  | cancelAccept =>
    obtain rfl := Option.some.inj ht
    unfold completeAccept at hc
    cases hw : s.acceptHandler with
    | none =>
      rw [hw] at hc
      exact absurd hc (not_completes rfl)
    | some w =>
      rw [hw] at hc
      exact nomatch hc.inj rfl
  | openStream id =>
    obtain ⟨_, ht⟩ := Option.ite_none_right_eq_some.mp ht
    obtain rfl := Option.some.inj ht
    rw [openStream_eq] at hc
    exact absurd hc (not_completes rfl)
  | onClosed =>
    obtain rfl := Option.some.inj ht
    exact absurd hopen ha.onClosed.2.1
  | failStream j ec =>
    have hsame := (step_next ha ht nofun).closedEc
    obtain ⟨⟨hgone, _⟩, _⟩ := Option.ite_none_right_eq_some.mp ht
    exact absurd (hsame.symm.trans hopen) hgone
  | clearStreams =>
    have hsame := (step_next ha ht nofun).closedEc
    obtain ⟨hgone, _⟩ := Option.ite_none_right_eq_some.mp ht
    exact absurd (hsame.symm.trans hopen) hgone

end StreamApplication

/-! ### What the reads get -/

theorem View.Owned.ready {v : View} (h : v.Owned) (hrep : v.o.stream.past.Rep .rest)
    (hheld : v.o.stream.reader ≠ .released) (hidle : v.o.stream.frames = [])
    (heof : v.o.stream.q.rx.eofReceived = true) : v.o.stream.Ready := by
  obtain ⟨_, hattached, _, hlive⟩ := h hheld
  have hinactive := hrep.inactive hidle
  have hhandler : v.o.stream.q.rx.readHandler = none := by
    by_contra hne
    have hpending := hrep.pending nofun hinactive hne
    exact absurd (hpending.2.1.symm.trans heof) Bool.false_ne_true
  exact
    { live := hlive
      reader := hattached
      frames := hidle
      handler := hhandler
      active := hinactive
      eof := heof
      incoming := hrep.no_incoming hidle
      parked := hrep.parked }

/-- **Which streams deliver what has arrived**: those that are handed out before ngtcp2 closes them,
and those that have nothing to deliver. -/
theorem delivers_iff {c : Setup} {as bs : List Action} {a : Action} {s t u : StreamApplication}
    {n k : Nat} {o : PlainStream} (hrun : run (step c) {} as = some s)
    (hstep : step c s a = some t) (hc : s.Completes t n k) (hafter : run (step c) t bs = some u)
    (hopen : u.closedEc = .success) (ho : u.made[k]? = some o)
    (heof : o.stream.q.rx.eofReceived = true) (haborted : o.stream.q.readAborted = false)
    (hidle : o.stream.frames = []) (hheld : o.stream.reader ≠ .released) :
    o.stream.Delivers ↔ o.id ∉ s.ended ∨ o.stream.received = [] := by
  -- the connection is there all the time
  obtain ⟨opened, hs⟩ : ∃ opened, Accepting c s opened :=
    run_inv (P := fun s => ∃ opened, Accepting c s opened)
      (fun s a t ⟨_, hs⟩ ht => ⟨_, step_accepting hs ht⟩) ⟨_, accepting_init c⟩ hrun
  have ht := step_accepting hs hstep
  have hopen_t : t.closedEc = .success := ((run_open ht hafter).mp hopen).1
  have hone : run (step c) s [a] = some t := run_cons_eq_some.mpr ⟨t, hstep, rfl⟩
  have hopen_s : s.closedEc = .success := ((run_open hs hone).mp hopen_t).1
  -- all streams are sound, and this one's fate is decided when it is handed out
  have hP (_ : Nat) (v v' : View) (hv : v.Sound) (hvs : v.Step v') : v'.Sound := hvs.sound hv
  have hnew (k id : Nat) (_ : 0 ≤ k) : (c.remoteView id).Sound ∧ (c.localView id).Sound :=
    ⟨View.sound_remoteView c id, View.sound_localView c id⟩
  have hsound : s.All fun _ v => v.Sound :=
    All.run hP hnew (accepting_init c) (Nat.le_refl _) all_empty hrun hopen_s
  have hsound_t : t.All fun _ v => v.Sound :=
    All.run hP hnew hs (Nat.zero_le _) hsound hone hopen_t
  have hsound_u : u.All fun _ v => v.Sound :=
    All.run hP hnew ht (Nat.zero_le _) hsound_t hafter hopen
  have hmade : k + 1 ≤ t.made.length := ht.lt_of_completed (x := ⟨n, .success, some k⟩) (by
    rw [hc]
    exact List.mem_concat_self) rfl
  have hfate : u.All fun j v => j = k → v.Fate s.ended :=
    All.run (fun j v v' hv hvs hj => hvs.fate (hv hj))
      (fun j id hj => ⟨fun heq => absurd heq (Nat.ne_of_gt hj),
        fun heq => absurd heq (Nat.ne_of_gt hj)⟩)
      ht hmade (fate_step hsound hs hstep hopen_t hc) hafter hopen
  have hk := hsound_u.of_made ho
  have hkfate := hfate.of_made ho rfl
  by_cases hended : o.id ∈ s.ended
  · rw [or_iff_right (not_not_intro hended)]
    exact (hkfate.gone hended).delivers hk.rep hk.flow heof haborted hheld
  · have hready := (hkfate.owned hended).ready hk.rep hheld hidle heof
    exact iff_of_true (hready.delivers (hk.flow haborted hheld)) (.inl hended)

/-- The body of a stream arrives, and it is closed. -/
def arrives : List Action := [.recvStreamData 0 [1, 2] true]

def closes : List Action := [.recvStopSending 0, .streamClose 0 (some 0)]

/-- What these come to, and the stream that has been opened first. -/
def after (as : List Action) : StreamApplication := (run (step serverSetup) {} as).getD {}

def firstOf (s : StreamApplication) : PlainStream := (s.made[0]?).getD (serverSetup.makeStream 0)

/-- A stream that is accepted before ngtcp2 closes it. -/
theorem delivers_iff_closes :
    (firstOf (after (arrives ++ .asyncAcceptStream :: closes))).stream.received = [1, 2] ∧
      (firstOf (after (arrives ++ .asyncAcceptStream :: closes))).stream.Delivers := by
  refine ⟨by decide, ?_⟩
  have hrun : run (step serverSetup) {} arrives = some (after arrives) := by decide
  have hiff := delivers_iff (a := .asyncAcceptStream) (t := after (arrives ++ [.asyncAcceptStream]))
    (u := after (arrives ++ .asyncAcceptStream :: closes)) (n := 0) (k := 0)
    (o := firstOf (after (arrives ++ .asyncAcceptStream :: closes))) hrun (by decide)
    (by unfold StreamApplication.Completes; decide)
    (show run (step serverSetup) _ closes = _ by decide) (by decide) (by decide) (by decide)
    (by decide) (by decide) (by decide)
  exact hiff.mpr (.inl (by decide))

/-- ... and one that is accepted after that: its body is lost. -/
theorem closes_not_delivers :
    ∃ s t o, run (step serverSetup) {} (arrives ++ closes) = some s ∧
      step serverSetup s .asyncAcceptStream = some t ∧ s.Completes t 0 0 ∧
      t.closedEc = .success ∧ t.made[0]? = some o ∧ o.stream.q.rx.eofReceived = true ∧
      o.stream.q.readAborted = false ∧ o.stream.frames = [] ∧ o.stream.reader ≠ .released ∧
      o.stream.received = [1, 2] ∧
      o.stream.reads ⟨0, none⟩ [2, 2] = some [(.partialMessage, []), (.partialMessage, [])] ∧
      ¬o.stream.Delivers := by
  refine ⟨after (arrives ++ closes), after (arrives ++ closes ++ [.asyncAcceptStream]),
    firstOf (after (arrives ++ closes ++ [.asyncAcceptStream])), by decide, by decide,
    by unfold StreamApplication.Completes; decide, by decide, by decide, by decide, by decide,
    by decide, by decide, by decide, by decide, ?_⟩
  rintro ⟨_, hreads⟩
  exact absurd (hreads ⟨0, none⟩ [2] (by decide)) (by decide)

end Accept

end AnyHttp.Quic
