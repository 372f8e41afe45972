import AnyHttp.Quic.Equiv.Handlers

/-!
# Every handler once, and what an emission hits

A step of a connection is one of a stream, or one of `async_accept_stream()`.  Either way, it
completes some of what waits at two places, or at one, and may let something else wait there: the
step rule of `Lib/Slots.lean` makes of this that no handler is ever completed twice.  `Inv` is what
holds of every connection, and `step_inv` its step lemma.

Nor does the emission of a slot do more than one thing.  `Emission` lists what there is: the object
that the function in the slot was made in is gone; there is nothing for it to hit; or it completes
what waits at one place, and leaves everything else alone.  `emit_emission` says that the list is
complete.  Whether what was hit is what should have been is the matter of
`Quic/Equiv/Cancellation.lean`.
-/

namespace AnyHttp.Quic

open Lib

/-! ### Every handler once -/

@[simp] theorem completions_append (cs ds : List Call) :
    completions (cs ++ ds) = completions cs ++ completions ds :=
  List.filterMap_append

/-- What completes is reads and writes. -/
theorem completions_perm (cs : List Call) :
    ((completions cs).map Prod.fst).Perm ((readsDone cs ++ writesDone cs).map Handler.id) := by
  induction cs with
  | nil => exact List.Perm.refl _
  | cons c cs ih =>
    cases c with
    | completeRead h size ec bytes => exact ih.cons h.id
    | completeWrite h ec =>
      refine (ih.cons h.id).trans ?_
      simp only [readsDone, writesDone, List.filterMap_cons, List.map_append, List.map_cons]
      exact List.perm_middle.symm
    | _ => exact ih

namespace Stream

variable {m m' : Stream} {a : Act}

/-- The handlers that are waiting, by number. -/
def waiting (m : Stream) : List Nat :=
  (m.q.rx.readHandler.toList ++ m.q.tx.writeHandler.toList).map Handler.id

/-- **No handler is lost, and none is called twice**: those that wait or begin complete, or
wait on. -/
theorem Conserves.perm (h : m.Conserves a m') :
    ((completions m'.q.calls).map Prod.fst ++ m'.waiting).Perm
      (m.waiting ++ (a.newRead.toList ++ a.newWrite.toList).map Handler.id) := by
  refine ((completions_perm m'.q.calls).append_right _).trans ?_
  simp only [waiting, ← List.map_append]
  refine List.Perm.map _ ?_
  have hboth := h.reads.append h.writes
  refine List.Perm.trans ?_ (hboth.trans ?_)
  · simp only [List.append_assoc]
    refine List.Perm.append_left _ ?_
    simp only [← List.append_assoc]
    exact List.Perm.append_right _ List.perm_append_comm
  · simp only [List.append_assoc]
    refine List.Perm.append_left _ ?_
    simp only [← List.append_assoc]
    exact List.Perm.append_right _ List.perm_append_comm

end Stream

namespace Connection

variable {w w' : Connection} {m m' : Stream} {id : Nat} {a : Act}

/-- The places of one stream. -/
def placesOf (id : Nat) : List Place := [.read id, .write id]

theorem waiting_placesOf (h : w.streams id = some m) :
    Lib.waiting Handler.id w.pending (placesOf id) = m.waiting := by
  have hr : w.pending (.read id) = m.q.rx.readHandler := by simp [pending, h]
  have hw : w.pending (.write id) = m.q.tx.writeHandler := by simp [pending, h]
  unfold placesOf Lib.waiting Stream.waiting
  simp only [List.filterMap_cons, List.filterMap_nil, hr, hw]
  cases m.q.rx.readHandler <;> cases m.q.tx.writeHandler <;> rfl

theorem after_streams (w : Connection) (id : Nat) (m : Stream) :
    (w.after id m).streams id = some m :=
  Function.update_self ..

theorem after_pending_other {l : Place} (m' : Stream) (hl : l ∉ placesOf id) :
    (w.after id m').pending l = w.pending l ∧ (w.after id m').fnAt l = w.fnAt l := by
  cases l with
  | accept => exact ⟨rfl, rfl⟩
  | read k =>
    have hne : k ≠ id := by
      rintro rfl
      exact hl (by simp [placesOf])
    simp [pending, fnAt, Connection.after, Function.update_of_ne hne]
  | write k =>
    have hne : k ≠ id := by
      rintro rfl
      exact hl (by simp [placesOf])
    simp [pending, fnAt, Connection.after, Function.update_of_ne hne]

/-- What a step of a stream does to the tickets. -/
theorem once_after {n n' : Nat} (honce : Once Handler.id w.pending (w.completed.map Prod.fst) n)
    (hm : w.streams id = some m) (h : m.Conserves a m')
    (hnew : (a.newRead.toList ++ a.newWrite.toList).map Handler.id = [] ∧ n' = n ∨
      (a.newRead.toList ++ a.newWrite.toList).map Handler.id = [n] ∧ n' = n + 1) :
    Once Handler.id (w.after id m').pending ((w.after id m').completed.map Prod.fst) n' := by
  have hcompleted : (w.after id m').completed.map Prod.fst =
      w.completed.map Prod.fst ++ (completions m'.q.calls).map Prod.fst := List.map_append
  rw [hcompleted]
  refine honce.conserve (placesOf id) (by simp [placesOf])
    (fun l hl => (after_pending_other m' hl).1) hnew ?_
  rw [waiting_placesOf hm, waiting_placesOf (after_streams w id m')]
  exact h.perm

/-- The same for what is done about `async_accept_stream()`. -/
theorem once_accept {n n' : Nat} (honce : Once Handler.id w.pending (w.completed.map Prod.fst) n)
    (hstreams : w'.streams = w.streams) {ds : List (Nat × ErrorCode)}
    (hcompleted : w'.completed = w.completed ++ ds) {new : List Nat}
    (hnew : new = [] ∧ n' = n ∨ new = [n] ∧ n' = n + 1)
    (hperm : (ds.map Prod.fst ++ w'.acceptHandler.toList.map Handler.id).Perm
      (w.acceptHandler.toList.map Handler.id ++ new)) :
    Once Handler.id w'.pending (w'.completed.map Prod.fst) n' := by
  have hwaiting (v : Connection) : Lib.waiting Handler.id v.pending [.accept] =
      v.acceptHandler.toList.map Handler.id := by
    have hp : v.pending .accept = v.acceptHandler := rfl
    unfold Lib.waiting
    simp only [List.filterMap_cons, List.filterMap_nil, hp]
    cases v.acceptHandler <;> rfl
  rw [hcompleted, List.map_append]
  refine honce.conserve [.accept] (by simp) ?_ hnew ?_
  · intro l hl
    cases l with
    | accept => exact absurd (List.mem_singleton.mpr rfl) hl
    | read id => simp [pending, hstreams]
    | write id => simp [pending, hstreams]
  · rw [hwaiting, hwaiting]
    exact hperm

/-- A stream that has just been made waits for nothing. -/
theorem pending_createStream (hnone : w.streams id = none) (headers : Bool) (l : Place) :
    (w.createStream id headers).pending l = w.pending l ∧
      (w.createStream id headers).fnAt l = w.fnAt l := by
  cases l with
  | accept => exact ⟨rfl, rfl⟩
  | read k =>
    by_cases hk : k = id
    · subst hk
      simp [pending, fnAt, createStream, hnone, Stream.init]
    · simp [pending, fnAt, createStream, Function.update_of_ne hk]
  | write k =>
    by_cases hk : k = id
    · subst hk
      simp [pending, fnAt, createStream, hnone, Stream.init]
    · simp [pending, fnAt, createStream, Function.update_of_ne hk]

/-! ### Steps -/

/-- What holds of every connection. -/
structure Inv (w : Connection) : Prop where
  sound : ∀ id m, w.streams id = some m → m.Sound
  rep : ∀ id m, w.streams id = some m → m.past.Rep .rest
  once : Once Handler.id w.pending (w.completed.map Prod.fst) w.started

/-- One stream may change, if each of its handlers is still called once. -/
theorem Inv.setStream (h : w.Inv) (hm : m.Sound) (hrep : m.past.Rep .rest)
    (hstreams : w'.streams = Function.update w.streams id (some m))
    (honce : Once Handler.id w'.pending (w'.completed.map Prod.fst) w'.started) : w'.Inv where
  sound := fun k v hv => by
    by_cases hk : k = id
    · rw [hstreams, hk, Function.update_self] at hv
      exact Option.some.inj hv ▸ hm
    · rw [hstreams, Function.update_of_ne hk] at hv
      exact h.sound k v hv
  rep := fun k v hv => by
    by_cases hk : k = id
    · rw [hstreams, hk, Function.update_self] at hv
      exact Option.some.inj hv ▸ hrep
    · rw [hstreams, Function.update_of_ne hk] at hv
      exact h.rep k v hv
  once := honce

/-- An action happens on a stream that is there. -/
theorem act_eq_some : w.act id a = some w' ↔
    ∃ m m', w.streams id = some m ∧ m.step a = some m' ∧ w' = w.after id m' := by
  unfold Connection.act
  rw [Option.bind_eq_some_iff]
  constructor
  · rintro ⟨m, hm, h⟩
    obtain ⟨m', hm', rfl⟩ := Option.map_eq_some_iff.mp h
    exact ⟨m, m', hm, hm', rfl⟩
  · rintro ⟨m, m', hm, hm', rfl⟩
    exact ⟨m, hm, by rw [hm']; rfl⟩

/-- An action that does not start an operation. -/
theorem Inv.act (h : w.Inv) (ha : a.newRead = none ∧ a.newWrite = none)
    (hact : w.act id a = some w') : w'.Inv := by
  obtain ⟨m, m', hm, hm', rfl⟩ := act_eq_some.mp hact
  have hsound := h.sound id m hm
  have hrep := h.rep id m hm
  refine h.setStream (Stream.step_turn hsound hm').2 (Stream.step_rep hrep hm') rfl ?_
  refine once_after h.once hm (Stream.step_conserves hsound hrep hm') (Or.inl ⟨?_, rfl⟩)
  rw [ha.1, ha.2]
  rfl

/-- One that does. -/
theorem Inv.start (h : w.Inv) {x : Handler} (hx : x.id = w.started)
    (ha : a.newRead = some x ∧ a.newWrite = none ∨ a.newRead = none ∧ a.newWrite = some x)
    (hact : w.next.act id a = some w') : w'.Inv := by
  obtain ⟨m, m', hm, hm', rfl⟩ := act_eq_some.mp hact
  have hsound := h.sound id m hm
  have hrep := h.rep id m hm
  refine h.setStream (Stream.step_turn hsound hm').2 (Stream.step_rep hrep hm') rfl ?_
  refine once_after (w := w.next) h.once hm (Stream.step_conserves hsound hrep hm')
    (Or.inr ⟨?_, rfl⟩)
  rcases ha with ⟨hr, hw⟩ | ⟨hr, hw⟩ <;> rw [hr, hw] <;> simp [hx]

theorem Inv.onClosed (h : w.Inv) : w.onClosed.Inv := by
  unfold Connection.onClosed
  split
  · exact h
  · dsimp only
    split
    · exact ⟨h.sound, h.rep, h.once⟩
    case h_2 x hh =>
      refine ⟨h.sound, h.rep, once_accept h.once rfl rfl (Or.inl ⟨rfl, rfl⟩) ?_⟩
      simp [hh, Connection.complete]

theorem Inv.cancelAccept (h : w.Inv) : w.cancelAccept.Inv := by
  unfold Connection.cancelAccept
  split
  · exact h
  case h_2 x hh =>
    refine ⟨h.sound, h.rep, once_accept h.once rfl rfl (Or.inl ⟨rfl, rfl⟩) ?_⟩
    simp [hh, Connection.complete]

theorem Inv.deliverAccepted (h : w.Inv) : w.deliverAccepted.Inv := by
  unfold Connection.deliverAccepted
  split
  case h_1 x _ rest hh hqueue =>
    refine ⟨h.sound, h.rep, once_accept h.once rfl rfl (Or.inl ⟨rfl, rfl⟩) ?_⟩
    simp [hh, Connection.complete]
  case h_2 => exact h

theorem Inv.createStream (h : w.Inv) (hnone : w.streams id = none) (headers : Bool) :
    (w.createStream id headers).Inv := by
  refine h.setStream (Stream.sound_init w.kind w.mode headers)
    (Stream.rep_init w.kind w.mode headers) rfl ?_
  have hpending : (w.createStream id headers).pending = w.pending :=
    funext fun l => (pending_createStream hnone headers l).1
  rw [hpending]
  exact h.once

theorem Inv.openRemoteStream (h : w.Inv) (hnone : w.streams id = none) (headers : Bool) :
    (w.openRemoteStream id headers).Inv := by
  have hcreate := h.createStream hnone headers
  unfold Connection.openRemoteStream
  split
  · exact h
  · dsimp only
    split
    · exact hcreate
    · exact Inv.deliverAccepted ⟨hcreate.sound, hcreate.rep, hcreate.once⟩

theorem Inv.asyncAcceptStream (h : w.Inv) {x : Handler} (hx : x.id = w.started) :
    (w.next.asyncAcceptStream x).Inv := by
  have hanswer (ec : ErrorCode) (queue : List Nat) :
      ({ w.next with acceptQueue := queue }.complete x ec).Inv := by
    refine ⟨h.sound, h.rep, once_accept h.once rfl rfl (Or.inr ⟨rfl, rfl⟩) ?_⟩
    simp only [Connection.complete, Connection.next, hx, List.map_cons, List.map_nil]
    exact List.perm_append_comm
  unfold Connection.asyncAcceptStream
  split
  · exact hanswer _ w.acceptQueue
  case isFalse hwaiting =>
    split
    · exact hanswer _ _
    · split
      · exact hanswer _ w.acceptQueue
      · have hnone : w.acceptHandler = none := by simpa [Connection.next] using hwaiting
        refine ⟨h.sound, h.rep, once_accept h.once rfl (List.append_nil _).symm
          (Or.inr ⟨rfl, rfl⟩) ?_⟩
        simp [hnone, hx]

/-- An emission runs the function in the slot, if its object is alive. -/
theorem Inv.emit (h : w.Inv) {s : Nat} (hemit : w.emit s = some w') : w'.Inv := by
  unfold Connection.emit at hemit
  split at hemit
  · exact Option.some.inj hemit ▸ h
  case h_2 fn _ =>
    split at hemit
    · cases fn with
      | write id token => exact h.act ⟨rfl, rfl⟩ hemit
      | read id =>
        simp only [Connection.runFn] at hemit
        split at hemit
        · exact h.act ⟨rfl, rfl⟩ hemit
        · exact Option.some.inj hemit ▸ h
      | accept => exact Option.some.inj hemit ▸ h.cancelAccept
      | foreign => exact Option.some.inj hemit ▸ h
    · rw [← Option.some.inj hemit]
      exact ⟨h.sound, h.rep, h.once⟩

/-- **Step lemma**: what happens to a connection keeps its invariant. -/
theorem step_inv (h : w.Inv) {e : Event} (hstep : w.step e = some w') : w'.Inv := by
  obtain ⟨_, hstep⟩ := Option.ite_none_left_eq_some.mp hstep
  cases e with
  | startWrite id slot buffer eof => exact h.start rfl (Or.inr ⟨rfl, rfl⟩) hstep
  | asyncReadSome id slot size => exact h.start rfl (Or.inl ⟨rfl, rfl⟩) hstep
  | asyncAcceptStream slot =>
    obtain ⟨_, heq⟩ := Option.ite_none_right_eq_some.mp hstep
    exact Option.some.inj heq ▸ h.asyncAcceptStream rfl
  | stream id a =>
    obtain ⟨ha, heq⟩ := Option.ite_none_right_eq_some.mp hstep
    refine h.act ?_ heq
    cases a with
    | startWrite x buffer eof => exact ⟨rfl, Option.isNone_iff_eq_none.mp ha⟩
    | asyncReadSome x size => exact absurd ha Bool.false_ne_true
    | _ => exact ⟨rfl, rfl⟩
  | emit s => exact h.emit hstep
  | clear s | assign s =>
    -- slots are not part of the invariant
    rw [← Option.some.inj hstep]
    exact ⟨h.sound, h.rep, h.once⟩
  | openStream id headers =>
    obtain ⟨⟨hnone, _⟩, heq⟩ := Option.ite_none_right_eq_some.mp hstep
    exact Option.some.inj heq ▸ h.createStream (Option.isNone_iff_eq_none.mp hnone) headers
  | openRemoteStream id headers =>
    obtain ⟨⟨hnone, _⟩, heq⟩ := Option.ite_none_right_eq_some.mp hstep
    exact Option.some.inj heq ▸ h.openRemoteStream (Option.isNone_iff_eq_none.mp hnone) headers
  | onClosed =>
    obtain ⟨_, heq⟩ := Option.ite_none_right_eq_some.mp hstep
    exact Option.some.inj heq ▸ h.onClosed
  | destroy =>
    obtain ⟨_, heq⟩ := Option.ite_none_right_eq_some.mp hstep
    rw [← Option.some.inj heq]
    exact ⟨h.onClosed.sound, h.onClosed.rep, h.onClosed.once⟩

theorem inv_init (kind : Kind) (mode : WriteMode) : (init kind mode).Inv where
  sound := fun id m hm => absurd hm (by simp [init])
  rep := fun id m hm => absurd hm (by simp [init])
  once := by
    refine ⟨List.nodup_nil, ?_, ?_, ?_, ?_⟩
    · simp [init]
    · intro l x hx
      cases l <;> simp [init, pending] at hx
    · intro l x hx
      cases l <;> simp [init, pending] at hx
    · intro l l' x x' hx
      cases l <;> simp [init, pending] at hx

end Connection

/-! ### What an emission does -/

namespace Stream

variable {m m' : Stream}

/-- What there is to a stream for its reader, but for whether it has been closed. -/
def reading (m : Stream) : Incoming × ReaderHandle × Bool × List UInt8 × List Frame :=
  (m.q.rx, m.reader, m.q.readAborted, m.received, m.frames)

/-- Cancelling the active write resets the stream, and on HTTP/3 that is all of it. -/
structure CancelCloses (m : Stream) : Prop where
  kind : m.q.kind = .http3
  mode : m.q.writeMode = .zeroCopy
  data : ¬(m.q.tx.writeIsEof = true ∧ m.q.tx.writeSource = [])
  held : m.q.tx.txAcked < m.q.tx.txOffered
  alive : m.q.sendingOver = false

theorem record_fresh (m : Stream) : m.fresh.record = m.fresh := by
  simp [record, Stream.fresh]

/-- A signal that finds nothing to cancel leaves the stream as it is. -/
theorem step_cancelRead_miss (hrep : m.past.Rep .rest) (hreader : m.reader = .attached)
    (hnone : m.q.rx.readHandler = none) : m.step .cancelRead = some m.fresh := by
  have hlive : m.destroyed = false := hrep.live_of_attached hreader
  have hcancel : m.fresh.cancelRead = m.fresh := by
    have hnone' : m.fresh.q.rx.readHandler = none := hnone
    unfold Stream.cancelRead
    rw [hnone']
  have hact : m.fresh.act .cancelRead = some m.fresh.cancelRead := if_pos hreader
  rw [step, hlive, if_neg Bool.false_ne_true, hact, hcancel, Option.map_some, record_fresh]

/-- The function of a read completes the one that waits with `canceled`, ... -/
theorem step_cancelRead_hit (hrep : m.past.Rep .rest) (hreader : m.reader = .attached) {h : Handler}
    (hh : m.q.rx.readHandler = some h) :
    ∃ m', m.step .cancelRead = some m' ∧ m'.q.rx.readHandler = none ∧
      completions m'.q.calls = [(h.id, .canceled)] ∧ m'.sender = m.sender := by
  have hlive : m.destroyed = false := hrep.live_of_attached hreader
  have hact : m.fresh.act .cancelRead = some m.fresh.cancelRead := if_pos hreader
  have hh' : m.fresh.q.rx.readHandler = some h := hh
  refine ⟨m.fresh.cancelRead.record, ?_, ?_⟩
  · rw [step, hlive, if_neg Bool.false_ne_true, hact]
    rfl
  · unfold Stream.cancelRead
    rw [hh']
    exact ⟨rfl, rfl, rfl⟩

theorem step_cancelWrite (hlive : m.destroyed = false) (token : Nat) :
    m.step (.cancelWrite token) = some (m.fresh.cancelWrite token).record := by
  rw [step, hlive, if_neg Bool.false_ne_true]
  rfl

/-- ... and that of a write nothing, if its token is another one, ... -/
theorem step_cancelWrite_miss (hlive : m.destroyed = false) {token : Nat}
    (hmiss : m.q.tx.writeToken ≠ token ∨ m.q.tx.writeHandler = none) :
    m.step (.cancelWrite token) = some m.fresh := by
  have hq : m.fresh.q.cancelWrite token = m.fresh.q := if_pos hmiss
  have hcancel : m.fresh.cancelWrite token = m.fresh := by
    simp [Stream.cancelWrite, hq]
  rw [step_cancelWrite hlive, hcancel, record_fresh]

/-- What a cancellation has to do before the caller gets its buffer back. -/
theorem letGo_spec (m : Stream) :
    completions m.fresh.q.letGo.calls = [] ∧ m.fresh.q.letGo.rx = m.q.rx ∧
      m.fresh.q.letGo.readAborted = m.q.readAborted ∧
      (¬(m.q.tx.writeIsEof = true ∧ m.q.tx.writeSource = []) →
        (m.fresh.q.letGo.closed = m.q.closed ↔ ¬m.CancelCloses)) := by
  unfold QuicStream.letGo
  -- the buffer is in use, so that the sending side has to be reset
  split
  case isTrue hlet =>
    obtain ⟨hmode, hheld, hover⟩ := hlet
    have hclosed : m.q.closed = false := by
      have hor : (m.q.closed || m.q.writeAborted) = false := hover
      exact (Bool.or_eq_false_iff.mp hor).1
    unfold QuicStream.resetWriting
    split
    case h_1 config hkind =>
      have hkind' : m.q.kind = .plain config := hkind
      refine ⟨rfl, rfl, rfl, fun _ => iff_of_true rfl fun hc => ?_⟩
      exact absurd (hkind'.symm.trans hc.kind) (by simp)
    case h_2 hkind =>
      refine ⟨rfl, rfl, rfl, fun hdata => iff_of_false ?_ ?_⟩
      · rw [hclosed]
        exact fun h => Bool.false_ne_true h.symm
      · exact fun hnot => hnot ⟨hkind, hmode, hdata, hheld, hover⟩
  case isFalse hlet =>
    exact ⟨rfl, rfl, rfl, fun _ => iff_of_true rfl fun hc => hlet ⟨hc.mode, hc.held, hc.alive⟩⟩

/-- ... or the one that waits. -/
theorem step_cancelWrite_hit (hlive : m.destroyed = false) {h : Handler}
    (hh : m.q.tx.writeHandler = some h) :
    ∃ m', m.step (.cancelWrite m.q.tx.writeToken) = some m' ∧ m'.q.tx.writeHandler = none ∧
      completions m'.q.calls = [(h.id, .canceled)] ∧ m'.reading = m.reading ∧
      (m'.q.closed = m.q.closed ↔ ¬m.CancelCloses) := by
  refine ⟨_, step_cancelWrite hlive _, ?_⟩
  have hq : (m.fresh.cancelWrite m.q.tx.writeToken).record.q =
      m.fresh.q.cancelWrite m.q.tx.writeToken := rfl
  have hreading : (m.fresh.cancelWrite m.q.tx.writeToken).record.reading =
      ((m.fresh.q.cancelWrite m.q.tx.writeToken).rx, m.reader,
        (m.fresh.q.cancelWrite m.q.tx.writeToken).readAborted, m.received, m.frames) := rfl
  -- the bare end of the body is detached, and any other write is abandoned
  rcases m.fresh.q.cancelWrite_cases m.q.tx.writeToken with
    ⟨hmiss, _⟩ | ⟨x, hx, _, ⟨heof, hbare, heq⟩ | ⟨hdata, heq⟩⟩
  · have hnone : m.q.tx.writeHandler = none := hmiss.resolve_left fun hne => hne rfl
    exact absurd (hnone.symm.trans hh) (by simp)
  · have hxh : x = h := Option.some.inj (hx.symm.trans hh)
    rw [hq, hreading, heq, hxh]
    exact ⟨rfl, rfl, rfl, iff_of_true rfl fun hc => hc.data ⟨heof, hbare⟩⟩
  · have hxh : x = h := Option.some.inj (hx.symm.trans hh)
    obtain ⟨hcalls, hrx, haborted, hclosed⟩ := m.letGo_spec
    rw [hq, hreading, heq, hxh]
    refine ⟨rfl, ?_, ?_, hclosed hdata⟩
    · rw [completions_append, hcalls]
      rfl
    · rw [hrx, haborted]
      rfl

end Stream

namespace Connection

variable {w w' : Connection} {m m' : Stream} {id s : Nat} {a : Act}

/-- Nothing has happened to what waits there, or to that direction of the stream. -/
def Same (w w' : Connection) : Place → Prop
  | .read id => (w'.streams id).map Stream.reading = (w.streams id).map Stream.reading
  | .write id => (w'.streams id).map Stream.sender = (w.streams id).map Stream.sender
  | .accept => w'.acceptHandler = w.acceptHandler ∧ w'.acceptQueue = w.acceptQueue

/-- Whether a stream is closed, if there is one. -/
def closedAt (w : Connection) (id : Nat) : Option Bool := (w.streams id).map fun m => m.q.closed

theorem Same.refl (w : Connection) (l : Place) : w.Same w l := by
  cases l with
  | read id | write id => exact rfl
  | accept => exact ⟨rfl, rfl⟩

theorem pending_read (w : Connection) (id : Nat) : w.pending (.read id) =
    ((w.streams id).map Stream.reading).bind fun r => r.1.readHandler := by
  rw [Option.bind_map]
  rfl

theorem pending_write (w : Connection) (id : Nat) : w.pending (.write id) =
    ((w.streams id).map Stream.sender).bind fun s => s.tx.writeHandler := by
  rw [Option.bind_map]
  rfl

/-- What has not changed still waits. -/
theorem Same.pending {l : Place} (h : w.Same w' l) : w'.pending l = w.pending l := by
  cases l with
  | read id => rw [pending_read, pending_read, show _ = _ from h]
  | write id => rw [pending_write, pending_write, show _ = _ from h]
  | accept => exact h.1

/-- What the emission of a slot comes down to. -/
inductive Emission (w : Connection) (s : Nat) : Connection → Prop
  /-- The object is gone. -/
  | fault (fn : SlotFn) (hfn : w.slots s = some fn) (hdead : w.alive fn = false) :
      Emission w s { w with fault := true }
  | miss (w' : Connection) (halive : ∀ fn, w.slots s = some fn → w.alive fn = true)
      (hmiss : ∀ l h, w.pending l = some h → w.slots s ≠ some (w.fnAt l))
      (hcompleted : w'.completed = w.completed) (hfault : w'.fault = w.fault)
      (hsame : ∀ l, w.Same w' l) (hclosed : ∀ id, w'.closedAt id = w.closedAt id) :
      Emission w s w'
  | hit (w' : Connection) (l : Place) (h : Handler) (hh : w.pending l = some h)
      (hfn : w.slots s = some (w.fnAt l)) (halive : w.alive (w.fnAt l) = true)
      (hcompleted : w'.completed = w.completed ++ [(h.id, .canceled)])
      (hfault : w'.fault = w.fault) (hgone : w'.pending l = none)
      (hsame : ∀ k, k ≠ l → w.Same w' k)
      (hclosed : ∀ id, w'.closedAt id = w.closedAt id ↔
        ¬∃ m, l = .write id ∧ w.streams id = some m ∧ m.CancelCloses) : Emission w s w'

/-- A signal that a stream has no use for. -/
theorem after_fresh (hm : w.streams id = some m) :
    (w.after id m.fresh).completed = w.completed ∧ (∀ l, w.Same (w.after id m.fresh) l) ∧
      ∀ k, (w.after id m.fresh).closedAt k = w.closedAt k := by
  refine ⟨List.append_nil _, fun l => ?_, fun k => ?_⟩
  · cases l with
    | accept => exact ⟨rfl, rfl⟩
    | read k =>
      -- whether the place is on this stream
      by_cases hk : k = id
      · subst hk
        show ((w.after k m.fresh).streams k).map _ = _
        rw [after_streams, hm]
        rfl
      · simp [Same, Connection.after, Function.update_of_ne hk]
    | write k =>
      by_cases hk : k = id
      · subst hk
        show ((w.after k m.fresh).streams k).map _ = _
        rw [after_streams, hm]
        rfl
      · simp [Same, Connection.after, Function.update_of_ne hk]
  · by_cases hk : k = id
    · subst hk
      unfold closedAt
      rw [after_streams, hm]
      rfl
    · simp [closedAt, Connection.after, Function.update_of_ne hk]

/-- Other streams are not concerned. -/
theorem after_same {l : Place} (hl : l ∉ placesOf id) : w.Same (w.after id m') l := by
  cases l with
  | accept => exact ⟨rfl, rfl⟩
  | read k =>
    have hk : k ≠ id := by
      rintro rfl
      exact hl (by simp [placesOf])
    simp [Same, Connection.after, Function.update_of_ne hk]
  | write k =>
    have hk : k ≠ id := by
      rintro rfl
      exact hl (by simp [placesOf])
    simp [Same, Connection.after, Function.update_of_ne hk]

theorem after_closedAt {k : Nat} (hk : k ≠ id) :
    (w.after id m').closedAt k = w.closedAt k := by
  simp [closedAt, Connection.after, Function.update_of_ne hk]

/-- The function of a read completes the read that waits on its stream, if there is one, and nothing
else. -/
theorem emission_read (h : w.Inv) (hfn : w.slots s = some (.read id))
    (halive : w.alive (.read id) = true) :
    ∃ w', w.runFn (.read id) = some w' ∧ w.Emission s w' := by
  have halive' : ∀ fn, w.slots s = some fn → w.alive fn = true := fun fn hf =>
    Option.some.inj (hfn.symm.trans hf) ▸ halive
  have hmiss (hnone : w.pending (.read id) = none) (l : Place) (x : Handler)
      (hx : w.pending l = some x) : w.slots s ≠ some (w.fnAt l) := by
    rw [hfn]
    intro heq
    cases l with
    | read k =>
      obtain rfl : id = k := by simpa [fnAt] using heq
      exact absurd (hnone.symm.trans hx) (by simp)
    | write k => exact absurd heq (by simp [fnAt])
    | accept => exact absurd heq (by simp [fnAt])
  unfold Connection.runFn
  dsimp only
  split
  case isTrue hattached =>
    obtain ⟨m, hm, hreader'⟩ : ∃ m, w.streams id = some m ∧ m.reader = .attached := by
      cases hm : w.streams id with
      | none => simp [hm] at hattached
      | some m => exact ⟨m, rfl, by simpa [hm] using hattached⟩
    have hpending : w.pending (.read id) = m.q.rx.readHandler := by simp [pending, hm]
    -- the read may be over, so that the function has nothing to complete
    cases hh : m.q.rx.readHandler with
    | none =>
      have hstep := Stream.step_cancelRead_miss (h.rep id m hm) hreader' hh
      obtain ⟨hcompleted, hsame, hclosed⟩ := after_fresh hm
      refine ⟨w.after id m.fresh, act_eq_some.mpr ⟨m, _, hm, hstep, rfl⟩, ?_⟩
      exact .miss _ halive' (hmiss (hpending.trans hh)) hcompleted rfl hsame hclosed
    | some x =>
      obtain ⟨m', hstep, hnone, hcompletions, hsender⟩ :=
        Stream.step_cancelRead_hit (h.rep id m hm) hreader' hh
      refine ⟨w.after id m', act_eq_some.mpr ⟨m, _, hm, hstep, rfl⟩, ?_⟩
      refine .hit _ (.read id) x (hpending.trans hh) hfn halive ?_ rfl ?_ ?_ ?_
      · rw [Connection.after, hcompletions]
      · simp [pending, after_streams, hnone]
      · intro k hk
        -- the write of the same stream is not concerned
        by_cases hwrite : k = .write id
        · subst hwrite
          show ((w.after id m').streams id).map _ = _
          rw [after_streams, hm]
          exact congrArg some hsender
        · exact after_same (by simp [placesOf, hk, hwrite])
      · intro k
        refine iff_of_true ?_ (by simp)
        by_cases hk : k = id
        · subst hk
          unfold closedAt
          rw [after_streams, hm]
          exact congrArg some (congrArg Sender.closed hsender)
        · exact after_closedAt hk
  case isFalse hnot =>
    refine ⟨w, rfl, .miss w halive' (hmiss ?_) rfl rfl (Same.refl w) fun _ => rfl⟩
    cases hm : w.streams id with
    | none => simp [Connection.alive, hm] at halive
    | some m =>
      have hreader : m.reader ≠ .attached := by simpa [hm] using hnot
      have hreleased : m.reader ≠ .released := by
        simpa [Connection.alive, hm] using halive
      cases hr : m.reader with
      | attached => exact absurd hr hreader
      | released => exact absurd hr hreleased
      | detached ec =>
        have hdead := (h.rep id m hm).detached ec hr
        have hnone : m.q.rx.readHandler = none := ((h.rep id m hm).gone hdead).1
        simp [pending, hm, hnone]

/-- The function of a write completes the write that waits under its token, if there is one, and
nothing else. -/
theorem emission_write {token : Nat} (hfn : w.slots s = some (.write id token))
    (halive : w.alive (.write id token) = true) :
    ∃ w', w.runFn (.write id token) = some w' ∧ w.Emission s w' := by
  have halive' : ∀ fn, w.slots s = some fn → w.alive fn = true := fun fn hf =>
    Option.some.inj (hfn.symm.trans hf) ▸ halive
  obtain ⟨m, hm, hlive⟩ : ∃ m, w.streams id = some m ∧ m.destroyed = false := by
    cases hm : w.streams id with
    | none => simp [Connection.alive, hm] at halive
    | some m => exact ⟨m, rfl, by simpa [Connection.alive, hm] using halive⟩
  have hpending : w.pending (.write id) = m.q.tx.writeHandler := by simp [pending, hm]
  have htoken : w.fnAt (.write id) = .write id m.q.tx.writeToken := by simp [fnAt, hm]
  -- the token tells if the write still is the one that the function was made for
  by_cases hhit : m.q.tx.writeToken = token ∧ m.q.tx.writeHandler ≠ none
  · obtain ⟨rfl, hsome⟩ := hhit
    obtain ⟨x, hx⟩ := Option.ne_none_iff_exists'.mp hsome
    obtain ⟨m', hstep, hnone, hcompletions, hreading, hcloses⟩ :=
      Stream.step_cancelWrite_hit hlive hx
    refine ⟨w.after id m', act_eq_some.mpr ⟨m, _, hm, hstep, rfl⟩, ?_⟩
    refine .hit _ (.write id) x (hpending.trans hx) (htoken ▸ hfn) (htoken ▸ halive) ?_ rfl ?_ ?_ ?_
    · rw [Connection.after, hcompletions]
    · simp [pending, after_streams, hnone]
    · intro k hk
      by_cases hread : k = .read id
      · subst hread
        show ((w.after id m').streams id).map _ = _
        rw [after_streams, hm]
        exact congrArg some hreading
      · exact after_same (by simp [placesOf, hk, hread])
    · intro k
      by_cases hk : k = id
      · subst hk
        have hclosed : (w.after k m').closedAt k = some m'.q.closed := by
          simp [closedAt, after_streams]
        have hold : w.closedAt k = some m.q.closed := by simp [closedAt, hm]
        rw [hclosed, hold, Option.some.injEq, hcloses]
        simp [hm]
      · refine iff_of_true (after_closedAt hk) ?_
        rintro ⟨_, hplace, _⟩
        exact hk (by simpa using hplace.symm)
  · have hmiss : m.q.tx.writeToken ≠ token ∨ m.q.tx.writeHandler = none := by
      by_contra hnot
      rw [not_or, not_not] at hnot
      exact hhit hnot
    have hstep := Stream.step_cancelWrite_miss hlive hmiss
    obtain ⟨hcompleted, hsame, hclosed⟩ := after_fresh hm
    refine ⟨w.after id m.fresh, act_eq_some.mpr ⟨m, _, hm, hstep, rfl⟩, ?_⟩
    refine .miss _ halive' (fun l x hx => ?_) hcompleted rfl hsame hclosed
    rw [hfn]
    intro heq
    cases l with
    | read k => exact absurd heq (by simp [fnAt])
    | accept => exact absurd heq (by simp [fnAt])
    | write k =>
      obtain ⟨rfl, htok⟩ : id = k ∧ token = (w.streams k).elim 0 fun m => m.q.tx.writeToken := by
        simpa [fnAt] using heq
      have hne : m.q.tx.writeHandler ≠ none := by
        rw [← hpending, hx]
        simp
      exact hhit ⟨by simpa [hm] using htok.symm, hne⟩

/-- The function of `async_accept_stream()` completes whoever waits for a stream, and
nothing else. -/
theorem emission_accept (hfn : w.slots s = some .accept) (halive : w.alive .accept = true) :
    w.Emission s w.cancelAccept := by
  have halive' : ∀ fn, w.slots s = some fn → w.alive fn = true := fun fn hf =>
    Option.some.inj (hfn.symm.trans hf) ▸ halive
  have hother (k : Place) (hk : k ≠ .accept) : w.Same w.cancelAccept k := by
    unfold cancelAccept
    cases k with
    | accept => exact absurd rfl hk
    | read id => split <;> exact rfl
    | write id => split <;> exact rfl
  have hclosed (id : Nat) : w.cancelAccept.closedAt id = w.closedAt id := by
    unfold cancelAccept
    split <;> rfl
  cases hh : w.acceptHandler with
  | none =>
    have hcancel : w.cancelAccept = w := by simp [cancelAccept, hh]
    rw [hcancel]
    refine .miss w halive' (fun l x hx => ?_) rfl rfl (Same.refl w) fun _ => rfl
    rw [hfn]
    intro heq
    cases l with
    | read k | write k => exact absurd heq (by simp [fnAt])
    | accept => exact absurd (hh.symm.trans hx) (by simp)
  | some x =>
    have hcancel : w.cancelAccept = { w with acceptHandler := none }.complete x .canceled := by
      simp [cancelAccept, hh]
    refine .hit _ .accept x hh hfn halive ?_ ?_ ?_ hother fun id =>
      iff_of_true (hclosed id) (by simp)
    · rw [hcancel]
      rfl
    · rw [hcancel]
      rfl
    · rw [hcancel]
      rfl

/-- **What an emission does**: it is always possible, and it hits at most what the function in the
slot was made for. -/
theorem emit_emission (h : w.Inv) (s : Nat) :
    ∃ w', w.emit s = some w' ∧ w.Emission s w' := by
  unfold Connection.emit
  -- an empty slot, ...
  cases hfn : w.slots s with
  | none =>
    refine ⟨w, rfl, .miss w ?_ ?_ rfl rfl (Same.refl w) fun _ => rfl⟩
    · simp [hfn]
    · simp [hfn]
  | some fn =>
    dsimp only
    split
    case isFalse hdead =>
      exact ⟨_, rfl, .fault fn hfn (Bool.not_eq_true _ ▸ hdead)⟩
    case isTrue halive =>
      cases fn with
      | read id => exact emission_read h hfn halive
      | write id token => exact emission_write hfn halive
      | accept => exact ⟨_, rfl, emission_accept hfn halive⟩
      | foreign =>
        refine ⟨w, rfl, .miss w ?_ ?_ rfl rfl (Same.refl w) fun _ => rfl⟩
        · intro fn hf
          rw [← Option.some.inj (hfn.symm.trans hf)]
          rfl
        · intro l x _ heq
          rw [hfn] at heq
          cases l <;> simp [fnAt] at heq

end Connection

end AnyHttp.Quic
