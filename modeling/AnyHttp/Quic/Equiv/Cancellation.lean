import AnyHttp.Quic.Equiv.Connection

/-!
# Cancellation reaches the operation it is meant for

A signal is meant for what was started with the slot, as long as that is waiting: it should complete
it with `canceled`, and touch nothing else (`Delivers`).  The function in the slot knows neither the
slot nor the operation.  That of a read completes whatever read is waiting on its stream, that of
`async_accept_stream()` whatever is waiting for a stream, and that of a write whatever is waiting
under its token, which is another write once the end of the body has been adopted.  So what matters
is whether the function in the slot is the one of the place where the operation waits (`Matched`):

* `delivers_iff_matched`: an emission does what it should exactly if the slot matches;
* `step_routed`: slots keep matching as long as they are used with care (`Careful`), so that no
  operation is started on a slot with the function of another one in it, or while another slot
  still has its own;
* `isolated`: the same for runs, in which every handler is completed at most once in any case;
* `signal_astray`: three runs whose last emission goes wrong.
-/

namespace AnyHttp.Quic

open Lib

namespace Connection

variable {w w' : Connection} {m m' : Stream} {id s : Nat} {a : Act}

/-! ### What an emission should do -/

/-- The emission of `s` completes what was started with `s`, and does nothing else: not to what
waits elsewhere, and not to a direction of a stream that nothing was started on with `s`. -/
structure Delivers (w w' : Connection) (s : Nat) : Prop where
  completed : ∃ ds, w'.completed = w.completed ++ ds ∧ ∀ d, d ∈ ds ↔
    ∃ l h, w.pending l = some h ∧ h.slot = some s ∧ d = (h.id, ErrorCode.canceled)
  gone : ∀ l h, w.pending l = some h → h.slot = some s → w'.pending l = none
  spares : ∀ l, (∀ h, w.pending l = some h → h.slot ≠ some s) → w.Same w' l
  reads : ∀ id h, w.pending (.read id) = some h → w'.closedAt id = w.closedAt id
  fault : w'.fault = false

/-- The slot holds the function of what was started with it, if that is waiting, and otherwise
none that could hit anything. -/
structure Matched (w : Connection) (s : Nat) : Prop where
  routed : ∀ l h, w.pending l = some h → (h.slot = some s ↔ w.slots s = some (w.fnAt l))
  alive : ∀ fn, w.slots s = some fn → w.alive fn = true
  /-- No one is reading from a stream of HTTP/3 that has to be reset. -/
  alone : ∀ id m, w.streams id = some m → w.slots s = some (w.fnAt (.write id)) →
    m.q.tx.writeHandler ≠ none → m.CancelCloses → m.q.rx.readHandler = none

theorem fnAt_inj {l k : Place} (h : w.fnAt l = w.fnAt k) : l = k := by
  cases l <;> cases k <;> simp_all [fnAt]

theorem delivers_iff_matched (h : w.Inv) (hfault : w.fault = false) (hemit : w.Emission s w') :
    w.Delivers w' s ↔ w.Matched s := by
  cases hemit with
  | fault fn hfn hdead =>
    refine iff_of_false (fun hd => absurd hd.fault (by simp)) fun hm => ?_
    exact absurd ((hm.alive fn hfn).symm.trans hdead) (by simp)
  | miss _ halive hmiss hcompleted hfault' hsame hclosed =>
    -- nothing waits where the function looks, so nothing may wait for this slot
    constructor
    · intro hd
      refine ⟨fun l x hx => ?_, halive, fun id m hm hfn hne _ => ?_⟩
      · refine iff_of_false (fun hslot => ?_) (hmiss l x hx)
        have hgone := hd.gone l x hx hslot
        rw [(hsame l).pending, hx] at hgone
        exact absurd hgone (by simp)
      · obtain ⟨x, hx⟩ := Option.ne_none_iff_exists'.mp hne
        exact absurd hfn (hmiss (.write id) x (by simp [pending, hm, hx]))
    · intro hm
      have hunused (l : Place) (x : Handler) (hx : w.pending l = some x) : x.slot ≠ some s :=
        fun hslot => hmiss l x hx ((hm.routed l x hx).mp hslot)
      refine ⟨⟨[], by rw [hcompleted, List.append_nil], fun d => ?_⟩, ?_, fun l _ => hsame l,
        fun id _ _ => hclosed id, hfault'.trans hfault⟩
      · refine iff_of_false List.not_mem_nil ?_
        rintro ⟨l, x, hx, hslot, _⟩
        exact hunused l x hx hslot
      · exact fun l x hx hslot => absurd hslot (hunused l x hx)
  | hit _ l x hx hfn halive hcompleted hfault' hgone hsame hclosed =>
    have honly (hslot : ∀ k y, w.pending k = some y → k ≠ l → y.slot ≠ some s)
        (hx' : x.slot = some s) (k : Place) (y : Handler) (hy : w.pending k = some y) :
        y.slot = some s ↔ w.slots s = some (w.fnAt k) := by
      -- what waits elsewhere has not been started with this slot
      by_cases hk : k = l
      · subst hk
        exact iff_of_true (Option.some.inj (hx.symm.trans hy) ▸ hx') hfn
      · refine iff_of_false (hslot k y hy hk) fun heq => hk ?_
        exact (fnAt_inj (Option.some.inj (hfn.symm.trans heq))).symm
    constructor
    · intro hd
      have hx' : x.slot = some s := by
        obtain ⟨ds, hds, hmem⟩ := hd.completed
        have hone : ds = [(x.id, .canceled)] := List.append_cancel_left (hds.symm.trans hcompleted)
        obtain ⟨k, y, hy, hslot, heq⟩ := (hmem (x.id, .canceled)).mp (by simp [hone])
        have hk : l = k := h.once.unique l k x y hx hy (congrArg Prod.fst heq)
        subst hk
        exact Option.some.inj (hx.symm.trans hy) ▸ hslot
      have hslot (k : Place) (y : Handler) (hy : w.pending k = some y) (hk : k ≠ l) :
          y.slot ≠ some s := by
        intro heq
        have hnone := hd.gone k y hy heq
        rw [(hsame k hk).pending, hy] at hnone
        exact absurd hnone (by simp)
      refine ⟨honly hslot hx', fun fn hf => ?_, fun id m hm hf _ hcloses => ?_⟩
      · exact Option.some.inj (hfn.symm.trans hf) ▸ halive
      · have hl : l = .write id := fnAt_inj (Option.some.inj (hfn.symm.trans hf))
        by_contra hne
        obtain ⟨y, hy⟩ := Option.ne_none_iff_exists'.mp hne
        have hopen := hd.reads id y (by simp [pending, hm, hy])
        exact (hclosed id).mp hopen ⟨m, hl, hm, hcloses⟩
    · intro hm
      have hx' : x.slot = some s := (hm.routed l x hx).mpr hfn
      have hslot (k : Place) (y : Handler) (hy : w.pending k = some y) (heq : y.slot = some s) :
          k = l :=
        (fnAt_inj (Option.some.inj (hfn.symm.trans ((hm.routed k y hy).mp heq)))).symm
      refine ⟨⟨_, hcompleted, fun d => ?_⟩, fun k y hy heq => ?_, fun k hk => ?_, fun id y hy => ?_,
        hfault'.trans hfault⟩
      · constructor
        · intro hd
          exact ⟨l, x, hx, hx', List.mem_singleton.mp hd⟩
        · rintro ⟨k, y, hy, heq, rfl⟩
          obtain rfl := hslot k y hy heq
          rw [Option.some.inj (hy.symm.trans hx)]
          exact List.mem_singleton.mpr rfl
      · rw [hslot k y hy heq]
        exact hgone
      · exact hsame k fun hkl => hk x (hkl ▸ hx) hx'
      · refine (hclosed id).mpr ?_
        rintro ⟨m, hl, hstream, hcloses⟩
        have hhandler : m.q.tx.writeHandler = some x := by
          rw [hl] at hx
          simpa [pending, hstream] using hx
        have hnone := hm.alone id m hstream (hl ▸ hfn) (by simp [hhandler]) hcloses
        simp [pending, hstream, hnone] at hy

/-! ### Using slots with care -/

/-- The slot of the operation that is started. -/
def slotOf : Event → Option Nat
  | .startWrite _ slot _ _ => slot
  | .asyncReadSome _ slot _ => slot
  | .asyncAcceptStream slot => slot
  | _ => none

/-- The function that it binds to its slot, if it gets to that. -/
def binds (w : Connection) : Event → Option SlotFn
  | .startWrite id _ buffer eof =>
    (w.streams id).bind fun m => (m.q.boundToken buffer eof).map (.write id)
  | .asyncReadSome id _ size =>
    if size ≠ 0 ∧ ((w.streams id).any fun m => m.reader == .attached) then some (.read id) else none
  | .asyncAcceptStream _ =>
    if w.acceptHandler = none ∧ w.acceptQueue = [] ∧ w.closedEc = .success then some .accept
    else none
  | _ => none

/-- An operation is started with a slot that is empty, or holds the function for it already, and no
other slot does; a slot is not taken from an operation that is waiting; and when it is emitted,
the object that the function in it was made in is still there, and no one is reading from a stream
of HTTP/3 that would have to be reset. -/
def Careful (w : Connection) : Event → Prop
  | .emit s => (∀ fn, w.slots s = some fn → w.alive fn = true) ∧
      ∀ id m, w.streams id = some m → w.slots s = some (w.fnAt (.write id)) →
        m.q.tx.writeHandler ≠ none → m.CancelCloses → m.q.rx.readHandler = none
  | .clear s => ∀ l h, w.pending l = some h → h.slot ≠ some s
  | .assign s => ∀ l h, w.pending l = some h → h.slot ≠ some s
  | e => ∀ fn, w.binds e = some fn → Free w.slots (slotOf e) fn

/-- Every operation that waits can be cancelled through its slot, and through no other. -/
def AllRouted (w : Connection) : Prop := Routed Handler.slot w.slots w.pending w.fnAt

theorem bound_read {m : Stream} (h : m.bound a = some .read) : a.newRead ≠ none := by
  cases a with
  | asyncReadSome x size => simp [Act.newRead]
  | startWrite x buffer eof => simp [Stream.bound] at h
  | _ => exact absurd h (by simp [Stream.bound])

theorem bound_write {m : Stream} {token : Nat} (h : m.bound a = some (.write token)) :
    a.newRead = none := by
  cases a with
  | asyncReadSome x size => simp [Stream.bound] at h
  | _ => rfl

/-- Where an operation that waits after a step of a stream comes from. -/
theorem pending_after (hm : w.streams id = some m) (hc : m.Conserves a m') {l : Place}
    {y : Handler} (hy : (w.after id m').pending l = some y) :
    w.pending l = some y ∧ (w.after id m').fnAt l = w.fnAt l ∨
      w.pending l = none ∧ (a.newRead = some y ∨ a.newWrite = some y) ∧
        ∃ fn, m.bound a = some fn ∧ (w.after id m').fnAt l = fn.at id := by
  -- the action is on one stream
  by_cases hl : l ∈ placesOf id
  · have hstream := after_streams w id m'
    simp only [placesOf, List.mem_cons, List.not_mem_nil, or_false] at hl
    rcases hl with rfl | rfl
    · have hread : m'.q.rx.readHandler = some y := by simpa [pending, hstream] using hy
      -- the read has waited before, or has just been begun
      rcases hc.read_cases hread with hold | ⟨hnone, hnew, hbound⟩
      · exact Or.inl ⟨by simp [pending, hm, hold], rfl⟩
      · exact Or.inr ⟨by simp [pending, hm, hnone], Or.inl hnew, _, hbound, rfl⟩
    · have hwrite : m'.q.tx.writeHandler = some y := by simpa [pending, hstream] using hy
      have hfn : (w.after id m').fnAt (.write id) = .write id m'.q.tx.writeToken := by
        simp [fnAt, hstream]
      -- so has the write
      rcases hc.write_cases hwrite with ⟨hold, htoken⟩ | ⟨hnone, hnew, hbound⟩
      · refine Or.inl ⟨by simp [pending, hm, hold], ?_⟩
        rw [hfn, htoken]
        simp [fnAt, hm]
      · exact Or.inr ⟨by simp [pending, hm, hnone], Or.inr hnew, _, hbound, hfn⟩
  · obtain ⟨hpending, hfn⟩ := after_pending_other (w := w) m' hl
    exact Or.inl ⟨hpending ▸ hy, hfn⟩

/-- What waits elsewhere has another function. -/
theorem fnAt_ne_bound (hm : w.streams id = some m) (hc : m.Conserves a m') {fn : CancelFn}
    (hbound : m.bound a = some fn) (hnew : a.newRead ≠ none ∨ a.newWrite ≠ none) {l : Place}
    {y : Handler} (hy : w.pending l = some y) : w.fnAt l ≠ fn.at id := by
  intro heq
  cases fn with
  | read =>
    obtain rfl : l = .read id := by
      cases l <;> simp_all [fnAt, CancelFn.at]
    have hnone := hc.idle_read (bound_read hbound)
    simp [pending, hm, hnone] at hy
  | write token =>
    obtain rfl : l = .write id := by
      cases l <;> simp_all [fnAt, CancelFn.at]
    have hnone := hc.idle_write (hnew.resolve_left fun hne => hne (bound_write hbound))
    simp [pending, hm, hnone] at hy

/-- What happens to a stream keeps every operation within reach. -/
theorem routed_after (hr : w.AllRouted) (hm : w.streams id = some m) (hc : m.Conserves a m')
    {x : Option Handler} (hx : ∀ y, a.newRead = some y ∨ a.newWrite = some y ↔ x = some y)
    (hfree : ∀ fn y, m.bound a = some fn → x = some y → Free w.slots y.slot (fn.at id)) :
    (w.after id m').AllRouted := by
  have hnew : (a.newRead.orElse fun _ => a.newWrite) = x := by
    cases hr : a.newRead with
    | some y => exact ((hx y).mp (Or.inl hr)).symm
    | none =>
      cases hw : a.newWrite with
      | some y => exact ((hx y).mp (Or.inr hw)).symm
      | none =>
        cases x with
        | none => rfl
        | some y => simpa [hr, hw] using hx y
  have hbindings := hc.bindings
  rw [hnew] at hbindings
  have hslots : (w.after id m').slots = (bindings m'.q.calls).foldl
      (fun slots b => Lib.assign slots b.1.slot (b.2.at id)) w.slots := rfl
  rw [hbindings] at hslots
  show Routed Handler.slot (w.after id m').slots _ _
  -- a slot is assigned only if something has begun and waits
  by_cases hstart : ∃ fn y, m.bound a = some fn ∧ x = some y
  · obtain ⟨fn, y, hbound, rfl⟩ := hstart
    have hstarted := (hx y).mpr rfl
    rw [hslots, hbound]
    refine hr.start (hfree fn y hbound rfl) fun l z hz => ?_
    rcases pending_after hm hc hz with ⟨hold, hfn⟩ | ⟨_, hnew, fn', hbound', hfn⟩
    · refine Or.inr ⟨hold, hfn, fnAt_ne_bound hm hc hbound ?_ hold⟩
      exact hstarted.imp (fun h => by simp [h]) fun h => by simp [h]
    · have hz' : y = z := Option.some.inj ((hx z).mp hnew)
      have hfn' : fn = fn' := Option.some.inj (hbound.symm.trans hbound')
      exact Or.inl ⟨hz'.symm, hfn' ▸ hfn⟩
  · have hsame : (w.after id m').slots = w.slots := by
      rw [hslots]
      cases hb : m.bound a with
      | none => rfl
      | some fn =>
        cases x with
        | none => rfl
        | some y => exact absurd ⟨fn, y, hb, rfl⟩ hstart
    rw [hsame]
    refine hr.keep fun l z hz => ?_
    rcases pending_after hm hc hz with hold | ⟨_, hnew, fn, hbound, _⟩
    · exact hold
    · exact absurd ⟨fn, z, hbound, (hx z).mp hnew⟩ hstart

theorem routed_act
    (h : ∀ id m, w.streams id = some m → m.Sound ∧ m.past.Rep .rest) (hr : w.AllRouted)
    {x : Option Handler}
    (hx : ∀ y, a.newRead = some y ∨ a.newWrite = some y ↔ x = some y)
    (hfree : ∀ m fn y, w.streams id = some m → m.bound a = some fn → x = some y →
      Free w.slots y.slot (fn.at id))
    (hact : w.act id a = some w') : w'.AllRouted := by
  obtain ⟨m, m', hm, hm', rfl⟩ := act_eq_some.mp hact
  exact routed_after hr hm (Stream.step_conserves (h id m hm).1 (h id m hm).2 hm') hx
    fun fn y => hfree m fn y hm

/-- An action that starts nothing. -/
theorem routed_other (h : w.Inv) (hr : w.AllRouted) (ha : a.newRead = none ∧ a.newWrite = none)
    (hact : w.act id a = some w') : w'.AllRouted :=
  routed_act (fun k m hm => ⟨h.sound k m hm, h.rep k m hm⟩) hr (x := none) (by simp [ha.1, ha.2])
    (fun _ _ _ _ _ hy => absurd hy (by simp)) hact

/-- Nothing but the waiting `async_accept_stream()` is concerned. -/
theorem routed_accept (hr : w.AllRouted) (hstreams : w'.streams = w.streams)
    (hslots : w'.slots = w.slots)
    (haccept : ∀ x, w'.acceptHandler = some x → w.acceptHandler = some x) : w'.AllRouted := by
  show Routed Handler.slot w'.slots _ _
  rw [hslots]
  refine hr.keep fun l x hx => ?_
  cases l with
  | accept => exact ⟨haccept x hx, rfl⟩
  | read id => exact ⟨by simpa [pending, hstreams] using hx, rfl⟩
  | write id => exact ⟨by simpa [pending, hstreams] using hx, by simp [fnAt, hstreams]⟩

theorem routed_cancelAccept (hr : w.AllRouted) : w.cancelAccept.AllRouted := by
  unfold cancelAccept
  split
  · exact hr
  · exact routed_accept hr rfl rfl fun x hx => absurd hx (by simp [Connection.complete])

theorem routed_onClosed (hr : w.AllRouted) : w.onClosed.AllRouted := by
  unfold Connection.onClosed
  split
  · exact hr
  · dsimp only
    split
    · exact routed_accept hr rfl rfl fun x hx => hx
    · exact routed_accept hr rfl rfl fun x hx => absurd hx (by simp [Connection.complete])

theorem routed_createStream (hr : w.AllRouted) (hnone : w.streams id = none) (headers : Bool) :
    (w.createStream id headers).AllRouted := by
  refine Routed.keep hr fun l x hx => ?_
  obtain ⟨hpending, hfn⟩ := pending_createStream hnone headers l
  exact ⟨hpending ▸ hx, hfn⟩

theorem routed_openRemoteStream (hr : w.AllRouted) (hnone : w.streams id = none) (headers : Bool) :
    (w.openRemoteStream id headers).AllRouted := by
  have hcreate := routed_createStream hr hnone headers
  unfold Connection.openRemoteStream
  split
  · exact hr
  · dsimp only
    split
    · exact hcreate
    · unfold Connection.deliverAccepted
      split
      · exact routed_accept hcreate rfl rfl fun x hx => absurd hx (by simp [Connection.complete])
      · exact routed_accept hcreate rfl rfl fun x hx => hx

theorem routed_asyncAcceptStream (hr : w.AllRouted) {x : Handler}
    (hfree : w.acceptHandler = none ∧ w.acceptQueue = [] ∧ w.closedEc = .success →
      Free w.slots x.slot .accept) : (w.next.asyncAcceptStream x).AllRouted := by
  unfold Connection.asyncAcceptStream
  split
  · exact routed_accept hr rfl rfl fun y hy => hy
  case isFalse hwaiting =>
    have hnone : w.acceptHandler = none := by simpa [Connection.next] using hwaiting
    split
    · exact routed_accept hr rfl rfl fun y hy => hy
    case h_2 hqueue =>
      split
      · exact routed_accept hr rfl rfl fun y hy => hy
      case isFalse hopen =>
        have hfree' := hfree ⟨hnone, hqueue, not_not.mp hopen⟩
        show Routed Handler.slot (Lib.assign w.slots x.slot .accept) _ _
        refine hr.start hfree' fun l y hy => ?_
        cases l with
        | accept => exact Or.inl ⟨(Option.some.inj hy).symm, rfl⟩
        | read k => exact Or.inr ⟨hy, rfl, by simp [fnAt]⟩
        | write k => exact Or.inr ⟨hy, rfl, by simp [fnAt]⟩

theorem routed_emit (h : w.Inv) (hr : w.AllRouted) (hemit : w.emit s = some w') :
    w'.AllRouted := by
  unfold Connection.emit at hemit
  split at hemit
  · exact Option.some.inj hemit ▸ hr
  case h_2 fn _ =>
    split at hemit
    · cases fn with
      | write id token => exact routed_other h hr ⟨rfl, rfl⟩ hemit
      | read id =>
        simp only [Connection.runFn] at hemit
        split at hemit
        · exact routed_other h hr ⟨rfl, rfl⟩ hemit
        · exact Option.some.inj hemit ▸ hr
      | accept => exact Option.some.inj hemit ▸ routed_cancelAccept hr
      | foreign => exact Option.some.inj hemit ▸ hr
    · rw [← Option.some.inj hemit]
      exact hr

/-- **Step lemma**: with care, every operation stays within reach. -/
theorem step_routed (h : w.Inv) (hr : w.AllRouted) {e : Event} (hcareful : w.Careful e)
    (hstep : w.step e = some w') : w'.AllRouted := by
  obtain ⟨_, hstep⟩ := Option.ite_none_left_eq_some.mp hstep
  have hstreams (k : Nat) (m : Stream) (hm : w.streams k = some m) : m.Sound ∧ m.past.Rep .rest :=
    ⟨h.sound k m hm, h.rep k m hm⟩
  cases e with
  | startWrite id slot buffer eof =>
    refine routed_act (w := w.next) (x := some (w.handler slot)) hstreams hr ?_ ?_ hstep
    · simp [Act.newRead, Act.newWrite, eq_comm]
    · rintro m fn y hm hbound hy
      rw [← Option.some.inj hy]
      obtain ⟨token, htoken, rfl⟩ := Option.map_eq_some_iff.mp hbound
      have hm' : w.streams id = some m := hm
      exact hcareful _ (by simp [binds, hm', htoken, CancelFn.at])
  | asyncReadSome id slot size =>
    refine routed_act (w := w.next) (x := some (w.handler slot)) hstreams hr ?_ ?_ hstep
    · simp [Act.newRead, Act.newWrite, eq_comm]
    · rintro m fn y hm hbound hy
      rw [← Option.some.inj hy]
      obtain ⟨⟨hsize, hreader⟩, hfn⟩ := Option.ite_none_right_eq_some.mp hbound
      have hm' : w.streams id = some m := hm
      rw [← Option.some.inj hfn]
      exact hcareful _ (by simp [binds, hm', hsize, hreader, CancelFn.at])
  | asyncAcceptStream slot =>
    obtain ⟨_, heq⟩ := Option.ite_none_right_eq_some.mp hstep
    rw [← Option.some.inj heq]
    exact routed_asyncAcceptStream hr fun hwaits => hcareful _ (if_pos hwaits)
  | stream id a =>
    obtain ⟨ha, heq⟩ := Option.ite_none_right_eq_some.mp hstep
    refine routed_other h hr ?_ heq
    cases a with
    | startWrite x buffer eof => exact ⟨rfl, Option.isNone_iff_eq_none.mp ha⟩
    | asyncReadSome x size => exact absurd ha Bool.false_ne_true
    | _ => exact ⟨rfl, rfl⟩
  | emit s => exact routed_emit h hr hstep
  | clear s =>
    rw [← Option.some.inj hstep]
    exact hr.replace hcareful fun l => by simp
  | assign s =>
    rw [← Option.some.inj hstep]
    exact hr.replace hcareful fun l => by cases l <;> simp [fnAt]
  | openStream id headers =>
    obtain ⟨⟨hnone, _⟩, heq⟩ := Option.ite_none_right_eq_some.mp hstep
    exact Option.some.inj heq ▸ routed_createStream hr (Option.isNone_iff_eq_none.mp hnone) headers
  | openRemoteStream id headers =>
    obtain ⟨⟨hnone, _⟩, heq⟩ := Option.ite_none_right_eq_some.mp hstep
    exact Option.some.inj heq ▸
      routed_openRemoteStream hr (Option.isNone_iff_eq_none.mp hnone) headers
  | onClosed =>
    obtain ⟨_, heq⟩ := Option.ite_none_right_eq_some.mp hstep
    exact Option.some.inj heq ▸ routed_onClosed hr
  | destroy =>
    obtain ⟨_, heq⟩ := Option.ite_none_right_eq_some.mp hstep
    rw [← Option.some.inj heq]
    exact routed_accept (routed_onClosed hr) rfl rfl fun x hx => hx

/-! ### Runs -/

/-- Emissions do what they should. -/
def Delivered (w : Connection) : Event → Prop
  | .emit s => ∃ w', w.step (.emit s) = some w' ∧ w.Delivers w' s
  | _ => True

/-- Slots are emitted only while they match. -/
def EmitsMatched (w : Connection) : Event → Prop
  | .emit s => w.Matched s
  | _ => True

theorem delivered_iff (h : w.Inv) {e : Event} (hstep : w.step e = some w') :
    w.Delivered e ↔ w.EmitsMatched e := by
  obtain ⟨hfault, hevent⟩ := Option.ite_none_left_eq_some.mp hstep
  cases e with
  | emit s =>
    obtain ⟨u, hu, hemission⟩ := emit_emission h s
    have huw : u = w' := Option.some.inj (hu.symm.trans hevent)
    subst huw
    have hiff := delivers_iff_matched h (Bool.not_eq_true _ ▸ hfault) hemission
    constructor
    · rintro ⟨v, hv, hd⟩
      rw [Option.some.inj (hv.symm.trans hstep)] at hd
      exact hiff.mp hd
    · exact fun hm => ⟨u, hstep, hiff.mpr hm⟩
  | _ => exact Iff.rfl

/-- Slots that are used with care match at any time. -/
theorem emitsMatched_of_careful (hr : w.AllRouted) {e : Event} (hcareful : w.Careful e) :
    w.EmitsMatched e := by
  cases e with
  | emit s => exact ⟨fun l x hx => hr l x hx s, hcareful.1, hcareful.2⟩
  | _ => trivial

theorem routed_init (kind : Kind) (mode : WriteMode) : (init kind mode).AllRouted := by
  intro l x hx
  cases l <;> simp [init, pending] at hx

/-- **Every handler is completed once, and a signal cancels what it was bound to**: in every run of
a connection, no handler is completed twice.  Its emissions do what they should exactly if every
slot, whenever it is emitted, matches what was started with it; and this they do if the callers use
their slots with care. -/
theorem isolated {kind : Kind} {mode : WriteMode} {events : List Event}
    (h : run step (init kind mode) events = some w) :
    (w.completed.map Prod.fst).Nodup ∧
    (Meets step Delivered (init kind mode) events ↔
      Meets step EmitsMatched (init kind mode) events) ∧
    (Meets step Careful (init kind mode) events →
      Meets step Delivered (init kind mode) events) := by
  have hinv : w.Inv := run_inv (fun _ _ _ hs ht => step_inv hs ht) (inv_init kind mode) h
  have hiff : Meets step Delivered (init kind mode) events ↔
      Meets step EmitsMatched (init kind mode) events :=
    meets_iff_meets (I := Inv) (fun _ _ _ hs ht => step_inv hs ht)
      (fun _ _ _ hs ht => delivered_iff hs ht) (inv_init kind mode) h
  refine ⟨hinv.once.nodup, hiff, fun hcareful => hiff.mpr ?_⟩
  refine meets_of_meets (I := fun w => w.Inv ∧ w.AllRouted) (fun _ _ _ hs hq ht => ?_)
    ⟨inv_init kind mode, routed_init kind mode⟩ h hcareful
  exact ⟨emitsMatched_of_careful hs.2 hq, step_inv hs.1 ht, step_routed hs.1 hs.2 hq ht⟩

/-- One slot for reading and one for writing, emitted twice and once. -/
def twoSlots : List Event :=
  [.openStream 0 true, .asyncReadSome 0 (some 1) 4, .emit 1, .startWrite 0 (some 2) [7] false,
    .emit 1, .emit 2]

/-- A run whose steps are all given. -/
theorem meets_cons {Q : Connection → Event → Prop} {w t : Connection} {e : Event}
    {es : List Event} (hq : Q w e) (ht : w.step e = some t) (h : Meets step Q t es) :
    Meets step Q w (e :: es) :=
  ⟨hq, fun _ hu => Option.some.inj (ht.symm.trans hu) ▸ h⟩

theorem careful_twoSlots : Meets step Careful (init (.plain ⟨0, 0⟩) .staged) twoSlots := by
  refine meets_cons ?_ rfl (meets_cons ?_ rfl (meets_cons ?_ rfl (meets_cons ?_ rfl
    (meets_cons ?_ rfl (meets_cons ?_ rfl trivial)))))
  · intro fn hfn
    exact absurd hfn (by simp [binds])
  · intro fn hfn
    obtain rfl : SlotFn.read 0 = fn := Option.some.inj hfn
    exact ⟨fun s hs => absurd hs (by simp [createStream, init]), fun s _ => Or.inl rfl⟩
  · refine ⟨fun fn hfn => ?_, fun id m _ hfn => ?_⟩
    · obtain rfl : SlotFn.read 0 = fn := Option.some.inj hfn
      rfl
    · exact absurd (Option.some.inj hfn : SlotFn.read 0 = _) (by simp [fnAt])
  · intro fn hfn
    obtain rfl : SlotFn.write 0 1 = fn := Option.some.inj hfn
    refine ⟨fun s hs => ?_, fun s hs => ?_⟩
    · -- slot 1 holds the function of the read, slot 2 that of the write
      by_cases h1 : s = 1
      · subst h1
        exact absurd (Option.some.inj hs : SlotFn.read 0 = _) (by simp)
      · have hnone : Function.update (fun _ => none) 1 (some (SlotFn.read 0)) s = none :=
          Function.update_of_ne h1 ..
        exact absurd (hs.symm.trans hnone) (by simp)
    · obtain rfl : 2 = s := Option.some.inj hs
      exact Or.inl rfl
  · refine ⟨fun fn hfn => ?_, fun id m _ hfn => ?_⟩
    · obtain rfl : SlotFn.read 0 = fn := Option.some.inj hfn
      rfl
    · exact absurd (Option.some.inj hfn : SlotFn.read 0 = _) (by simp [fnAt])
  · refine ⟨fun fn hfn => ?_, fun id m hm hfn hne hcloses => ?_⟩
    · obtain rfl : SlotFn.write 0 1 = fn := Option.some.inj hfn
      rfl
    · have hid : SlotFn.write 0 1 = .write id _ := Option.some.inj hfn
      obtain ⟨rfl, _⟩ := SlotFn.write.inj hid
      obtain rfl := Option.some.inj hm
      exact absurd (show Kind.plain ⟨0, 0⟩ = .http3 from hcloses.kind) (by simp)

theorem isolated_twoSlots : ∃ w, run step (init (.plain ⟨0, 0⟩) .staged) twoSlots = some w ∧
    w.completed = [(0, .canceled), (1, .canceled)] ∧
    Meets step Delivered (init (.plain ⟨0, 0⟩) .staged) twoSlots := by
  refine ⟨_, rfl, rfl, ?_⟩
  exact (isolated (w := _) rfl).2.2 careful_twoSlots

/-- An operation that waits out of reach of its slot, or within that of another. -/
theorem not_delivered {kind : Kind} {mode : WriteMode} {events : List Event}
    (h : run step (init kind mode) events = some w) {l : Place} {x : Handler}
    (hx : w.pending l = some x) (hnot : ¬(x.slot = some s ↔ w.slots s = some (w.fnAt l))) :
    ¬Meets step Delivered (init kind mode) (events ++ [.emit s]) := by
  intro hmeets
  have hinv : w.Inv := run_inv (fun _ _ _ hs ht => step_inv hs ht) (inv_init kind mode) h
  obtain ⟨w', hw', hd⟩ := hmeets.last h
  have hmatched := (delivered_iff hinv hw').mp ⟨w', hw', hd⟩
  exact hnot (hmatched.routed l x hx)

/-- The end of the body is detached, and a further `write_eof()` adopts it, on another slot: the
signal of the first one cancels the second. -/
def adopted : List Event :=
  [.openStream 0 true, .startWrite 0 (some 1) [] true, .emit 1, .startWrite 0 (some 2) [] true]

/-- A read is cancelled, and the next one is started on another slot: so does its signal. -/
def readAgain : List Event :=
  [.openStream 0 true, .asyncReadSome 0 (some 1) 4, .emit 1, .asyncReadSome 0 (some 2) 4]

/-- A stream is accepted, and the next one is waited for on another slot. -/
def acceptAgain : List Event :=
  [.asyncAcceptStream (some 1), .openRemoteStream 0 true, .asyncAcceptStream (some 2)]

/-- Each time, the signal of the first operation cancels the second one. -/
theorem signal_astray :
    let start := init (.plain ⟨0, 0⟩) .staged
    ¬Meets step Delivered start (adopted ++ [.emit 1]) ∧
    ¬Meets step Delivered start (readAgain ++ [.emit 1]) ∧
    ¬Meets step Delivered start (acceptAgain ++ [.emit 1]) := by
  refine ⟨?_, ?_, ?_⟩
  · refine not_delivered (w := _) (l := .write 0) (x := ⟨1, some 2⟩) rfl rfl fun h => ?_
    exact absurd (h.mpr rfl) (by simp)
  · refine not_delivered (w := _) (l := .read 0) (x := ⟨1, some 2⟩) rfl rfl fun h => ?_
    exact absurd (h.mpr rfl) (by simp)
  · refine not_delivered (w := _) (l := .accept) (x := ⟨1, some 2⟩) rfl rfl fun h => ?_
    exact absurd (h.mpr rfl) (by simp)

end Connection

end AnyHttp.Quic
