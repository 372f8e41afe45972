import AnyHttp.Quic.Connection
import AnyHttp.Quic.Equiv.Reception
import AnyHttp.Quic.Equiv.Simulation

/-!
# What becomes of a handler

A handler that is passed to a stream waits until it is completed, and then it is gone: no step
makes one, loses one, or completes one twice.  Since a step of a stream is a turn of its receiving
side and one of its sending side, this is a law of conservation on each of them.  Counting the
handlers that have been completed together with the one that is waiting,

* `Receiver.Steps.tickets`: the steps of the receiving side change nothing at all;
* `Sender.Steps.tickets`: nor do those of the sending side.

For a step of a stream this leaves three cases.  Only `start_write()` and `async_read_some()` are
given a handler, and only they bind a cancellation slot: `Stream.step_startWrite` and
`Stream.step_asyncReadSome` say when.  Whatever else happens completes some of what is waiting
(`Stream.step_other`).
-/

namespace AnyHttp.Quic

open Lib

/-! ### Calls -/

/-- The handlers of the reads that these calls complete. -/
def readsDone (cs : List Call) : List Handler :=
  cs.filterMap fun
    | .completeRead h .. => some h
    | _ => none

/-- The handlers of the writes that these calls complete. -/
def writesDone (cs : List Call) : List Handler :=
  cs.filterMap fun
    | .completeWrite h _ => some h
    | _ => none

@[simp] theorem readsDone_append (cs ds : List Call) :
    readsDone (cs ++ ds) = readsDone cs ++ readsDone ds :=
  List.filterMap_append

@[simp] theorem writesDone_append (cs ds : List Call) :
    writesDone (cs ++ ds) = writesDone cs ++ writesDone ds :=
  List.filterMap_append

theorem readsDone_other {cs : List Call} (h : ∀ c ∈ cs, c.aboutReading = false) :
    readsDone cs = [] := by
  refine List.filterMap_eq_nil_iff.mpr fun c hc => ?_
  cases c with
  | completeRead handler size ec bytes => exact absurd (h _ hc) (by simp [Call.aboutReading])
  | _ => rfl

theorem writesDone_filter (cs : List Call) :
    writesDone (cs.filter Call.aboutWriting) = writesDone cs := by
  induction cs with
  | nil => rfl
  | cons c cs ih =>
    rw [← List.singleton_append, List.filter_append, writesDone_append, writesDone_append, ih]
    cases c with
    | onCancel h fn => cases fn <;> rfl
    | _ => rfl

@[simp] theorem writesDone_completion (h : Option Handler) (ec : ErrorCode) :
    writesDone (Sender.completion h ec) = h.toList := by
  cases h <;> rfl

/-! ### Receiving -/

namespace Receiver

variable {c : Conduct} {p p' : Phase} {r r' : Receiver}

/-- The reads that have been completed, and the one that is waiting. -/
def tickets (r : Receiver) : List Handler := readsDone r.trace ++ r.rx.readHandler.toList

theorem tickets_pass {n : Nat} {k : Cont} {h : Handler} (hh : r.rx.readHandler = some h)
    (rx : Incoming) (size : Nat) (ec : ErrorCode) (bytes : List UInt8) :
    ({ r with rx := rx }.pass n k (.completeRead h size ec bytes)).tickets = r.tickets := by
  simp [tickets, Receiver.pass, hh, readsDone]

/-- **Step lemma**: no step of the receiving side makes a read, or loses one. -/
theorem Step.tickets (hstep : Step c p r p' r') : r'.tickets = r.tickets := by
  cases hstep with
  | data _ n k h hh => exact tickets_pass hh _ _ _ _
  | eof _ n k h hh => exact tickets_pass hh _ _ _ _
  | truncated _ n k h hh => exact tickets_pass hh _ _ _ _
  | leave => simp [Receiver.tickets, readsDone]
  | park => simp [Receiver.tickets, (park_same r.rx).2.2]
  | parkEnd => simp [Receiver.tickets, (park_same r.rx).2.2]
  | cancel _ h hh => simp [Receiver.tickets, hh, readsDone]
  | fail _ ec h hh => simp [Receiver.tickets, hh, readsDone]
  | destroy =>
    unfold Receiver.tickets Receiver.detachAll Receiver.detachCalls
    cases r.rx.readHandler <;> simp [readsDone]
  | calls _ cs hcs => simp [Receiver.tickets, readsDone_other hcs]
  | _ => rfl

theorem Steps.tickets (hsteps : Steps c p r p' r') : r'.tickets = r.tickets := by
  induction hsteps with
  | refl => rfl
  | cons hstep _ ih => exact ih.trans hstep.tickets

theorem Step.unbound (hstep : Step c p r p' r') :
    ∃ cs, r'.trace = r.trace ++ cs ∧ ∀ h, .onCancel h .read ∉ cs := by
  cases hstep with
  | data | eof | truncated | leave | cancel | fail => exact ⟨_, rfl, by simp⟩
  | destroy => exact ⟨_, rfl, by simp [detachCalls]⟩
  | calls _ cs hcs =>
    exact ⟨cs, rfl, fun h hmem => absurd (hcs _ hmem) (by simp [Call.aboutReading])⟩
  | _ => exact ⟨[], by simp, by simp⟩

/-- Only the beginning of a read binds its slot. -/
theorem Steps.unbound (hsteps : Steps c p r p' r') :
    ∃ cs, r'.trace = r.trace ++ cs ∧ ∀ h, .onCancel h .read ∉ cs := by
  induction hsteps with
  | refl => exact ⟨[], by simp, by simp⟩
  | cons hstep _ ih =>
    obtain ⟨cs, hcs, hnot⟩ := hstep.unbound
    obtain ⟨ds, hds, hnot'⟩ := ih
    refine ⟨cs ++ ds, by rw [hds, hcs, List.append_assoc], fun h hmem => ?_⟩
    exact (List.mem_append.mp hmem).elim (hnot h) (hnot' h)

/-- A turn that is not the beginning of a read. -/
theorem Turn.tickets {a : Act} (h : Turn c r a r') (ha : ∀ h size, a ≠ .asyncReadSome h size) :
    r'.tickets = r.tickets ∧ ∃ cs, r'.trace = r.trace ++ cs ∧ ∀ h, .onCancel h .read ∉ cs := by
  cases h with
  | arrive data fin _ _ _ _ _ _ _ hsteps => exact ⟨hsteps.tickets, hsteps.unbound⟩
  | read | answer => exact absurd rfl (ha _ _)
  | steps hsteps => exact ⟨hsteps.tickets, hsteps.unbound⟩

end Receiver

/-! ### Sending -/

namespace Sender

variable {s s' : Sender} {cs : List Call}

/-- **Step lemma**: no step of the sending side makes a write, or loses one. -/
theorem Step.tickets (h : Step s cs s') :
    writesDone cs ++ s'.tx.writeHandler.toList = s.tx.writeHandler.toList := by
  cases h with
  | poll => rw [(s.tx.sameWrite_carve s.mode).2.1]; rfl
  | take room n header => rw [(s.sameWrite_taken n _).2]; rfl
  | detach h hh => simp [hh]
  | release | destroy | finish | ackedLast => simp [Outgoing.release]
  | _ => rfl

theorem Steps.tickets (h : Steps s cs s') :
    writesDone cs ++ s'.tx.writeHandler.toList = s.tx.writeHandler.toList := by
  induction h with
  | refl => rfl
  | cons hstep _ ih => rw [writesDone_append, List.append_assoc, ih, hstep.tickets]

theorem Step.unbound (h : Step s cs s') (x : Handler) (fn : CancelFn) : .onCancel x fn ∉ cs := by
  cases h with
  | detach | release | destroy | finish | ackedLast => simp [completion]
  | _ => exact List.not_mem_nil

theorem Steps.unbound (h : Steps s cs s') (x : Handler) (fn : CancelFn) : .onCancel x fn ∉ cs := by
  induction h with
  | refl => exact List.not_mem_nil
  | cons hstep _ ih => exact fun hmem => (List.mem_append.mp hmem).elim (hstep.unbound x fn) ih

theorem Steps.token (h : Steps s cs s') : s'.tx.writeToken = s.tx.writeToken := by
  induction h with
  | refl => rfl
  | cons hstep _ ih => exact ih.trans hstep.same_or_over.1

/-- A turn that is not the beginning of a write. -/
theorem Turn.tickets {a : Act} (h : Turn s a cs s')
    (ha : ∀ h buffer eof, a ≠ .startWrite h buffer eof) :
    writesDone cs ++ s'.tx.writeHandler.toList = s.tx.writeHandler.toList ∧
      s'.tx.writeToken = s.tx.writeToken ∧ ∀ h fn, .onCancel h fn ∉ cs := by
  cases h with
  | refuse | adopt | begin => exact absurd rfl (ha _ _ _)
  | cancel _ _ h hh =>
    refine ⟨by simp [Sender.cancel, setOver, Outgoing.cancel, Outgoing.release, hh], rfl, ?_⟩
    simp [completion]
  | steps hsteps => exact ⟨hsteps.tickets, hsteps.token, hsteps.unbound⟩

end Sender

/-! ### Steps of a stream -/

theorem bindings_eq_nil {cs : List Call} (h : ∀ x fn, .onCancel x fn ∉ cs) : bindings cs = [] := by
  refine List.filterMap_eq_nil_iff.mpr fun c hc => ?_
  cases c with
  | onCancel x fn => exact absurd hc (h x fn)
  | _ => rfl

@[simp] theorem bindings_append (cs ds : List Call) :
    bindings (cs ++ ds) = bindings cs ++ bindings ds :=
  List.filterMap_append

/-- The handler of the read that this action starts. -/
def Act.newRead : Act → Option Handler
  | .asyncReadSome h _ => some h
  | _ => none

/-- ... and of the write. -/
def Act.newWrite : Act → Option Handler
  | .startWrite h _ _ => h
  | _ => none

namespace Stream

variable {m m' : Stream} {a : Act}

/-- What this action binds to the slot of its handler. -/
def bound (m : Stream) : Act → Option CancelFn
  | .startWrite _ buffer eof => (m.q.boundToken buffer eof).map .write
  | .asyncReadSome _ size => if size ≠ 0 ∧ m.reader = .attached then some .read else none
  | _ => none

/-- **Conservation**: what a step completes, and what waits after it, is what was waiting before
it, and the handler it was given. -/
structure Conserves (m : Stream) (a : Act) (m' : Stream) : Prop where
  reads : (readsDone m'.q.calls ++ m'.q.rx.readHandler.toList).Perm
    (m.q.rx.readHandler.toList ++ a.newRead.toList)
  writes : (writesDone m'.q.calls ++ m'.q.tx.writeHandler.toList).Perm
    (m.q.tx.writeHandler.toList ++ a.newWrite.toList)
  /-- There is one read at a time, and one write. -/
  idle_read : a.newRead ≠ none → m.q.rx.readHandler = none
  idle_write : a.newWrite ≠ none → m.q.tx.writeHandler = none
  /-- A write that waits keeps its token. -/
  token : m.q.tx.writeHandler ≠ none → m'.q.tx.writeToken = m.q.tx.writeToken
  /-- A write that begins to wait has the token that is bound. -/
  bound_write : ∀ h, m.q.tx.writeHandler = none → m'.q.tx.writeHandler = some h →
    m.bound a = some (.write m'.q.tx.writeToken)
  bound_read : ∀ h, m.q.rx.readHandler = none → m'.q.rx.readHandler = some h →
    m.bound a = some .read
  bindings : bindings m'.q.calls =
    (m.bound a).toList.flatMap fun fn =>
      (a.newRead.orElse fun _ => a.newWrite).toList.map fun h => (h, fn)

theorem writeHandler_eq_none (hm : m.Sound) (hready : m.q.writeReady = true) :
    m.q.tx.writeHandler = none := by
  by_contra hne
  exact hne (sender_inv_ready hready (hm.sender.tx.handler_active hne)).1

/-- A write is answered at once, or it waits, under the token that its slot is bound to. -/
theorem startWrite_waits (q : QuicStream) (h : Option Handler) (buffer : List UInt8) (eof : Bool) :
    (q.boundToken buffer eof = none ∧ ∃ ec,
      q.startWrite h buffer eof = { q with calls := q.calls ++ Sender.completion h ec }) ∨
    ∃ t cs, q.boundToken buffer eof = some t.writeToken ∧ t.writeHandler = h ∧
      cs.filter (fun c => c.aboutReading || c.aboutWriting) = [] ∧
      q.startWrite h buffer eof =
        { q with tx := t, calls := q.calls ++ (Sender.binding h t.writeToken ++ cs) } := by
  rcases q.startWrite_cases h buffer eof with hrefuse | ⟨hbound, _, _, _, _, _, _, hq⟩ |
    ⟨hbound, _, _, _, hq⟩
  · exact Or.inl hrefuse
  · exact Or.inr ⟨{ q.tx with writeHandler := h }, [], hbound, rfl, rfl,
      by rw [hq, List.append_nil]⟩
  · exact Or.inr ⟨q.tx.begin q.writeMode h buffer eof, [.onWritable], hbound, rfl, rfl, hq⟩

/-- The calls of `start_write()`. -/
theorem calls_startWrite (h : Option Handler) (ec : ErrorCode) (token : Nat) :
    readsDone (Sender.completion h ec) = [] ∧ bindings (Sender.completion h ec) = [] ∧
      readsDone (Sender.binding h token) = [] ∧ writesDone (Sender.binding h token) = [] ∧
      bindings (Sender.binding h token) = h.toList.map fun x => (x, .write token) := by
  cases h with
  | none => exact ⟨rfl, rfl, rfl, rfl, rfl⟩
  | some h => exact ⟨rfl, rfl, rfl, rfl, rfl⟩

/-- Calls that have nothing to do with handlers. -/
theorem calls_other {cs : List Call}
    (h : cs.filter (fun c => c.aboutReading || c.aboutWriting) = []) :
    readsDone cs = [] ∧ writesDone cs = [] ∧ bindings cs = [] := by
  rw [List.filter_eq_nil_iff] at h
  refine ⟨?_, ?_, ?_⟩ <;> refine List.filterMap_eq_nil_iff.mpr fun c hc => ?_ <;>
    have hother := h c hc <;> cases c <;>
    first | rfl | simp [Call.aboutReading, Call.aboutWriting] at hother
  case onCancel x fn => cases fn <;> simp at hother

theorem conserves_startWrite (hm : m.Sound) {h : Option Handler} {buffer : List UInt8} {eof : Bool}
    (hstep : m.step (.startWrite h buffer eof) = some m') :
    m.Conserves (.startWrite h buffer eof) m' := by
  obtain ⟨u, hu, rfl⟩ := Option.map_eq_some_iff.mp hstep
  split at hu
  · exact absurd hu (by simp [actDetached])
  obtain ⟨⟨_, hready⟩, heq⟩ := Option.ite_none_right_eq_some.mp hu
  have hnone : m.q.tx.writeHandler = none := writeHandler_eq_none hm hready
  rw [← Option.some.inj heq]
  have hnew : (m.fresh.startWrite h buffer eof).record.q = m.fresh.q.startWrite h buffer eof := rfl
  -- the write is answered at once, or waits under its token
  rcases startWrite_waits m.fresh.q h buffer eof with ⟨hbound, ec, hq⟩ |
    ⟨t, cs, hbound, hhandler, hother, hq⟩
  · have hb : m.bound (.startWrite h buffer eof) = none :=
      congrArg (Option.map CancelFn.write) hbound
    obtain ⟨hreads, hbindings, _⟩ := calls_startWrite h ec 0
    rw [hq] at hnew
    constructor
    · rw [hnew]
      simp [hreads, Stream.fresh, Act.newRead]
    · rw [hnew]
      simp [Stream.fresh, Act.newWrite, hnone]
    · exact fun hne => absurd rfl hne
    · exact fun _ => hnone
    · exact fun hne => absurd hnone hne
    · rw [hnew]
      simp [Stream.fresh, hnone]
    · intro x hx hx'
      rw [hnew] at hx'
      exact absurd (hx'.symm.trans hx) (by simp)
    · rw [hnew]
      simp [Stream.fresh, hb, hbindings]
  · have hb : m.bound (.startWrite h buffer eof) = some (.write t.writeToken) :=
      congrArg (Option.map CancelFn.write) hbound
    obtain ⟨_, _, hreads, hwrites, hbindings⟩ := calls_startWrite h .success t.writeToken
    obtain ⟨hreads', hwrites', hbindings'⟩ := calls_other hother
    rw [hq] at hnew
    constructor
    · rw [hnew]
      simp [hreads, hreads', Stream.fresh, Act.newRead]
    · rw [hnew]
      simp [hwrites, hwrites', hhandler, Stream.fresh, Act.newWrite, hnone]
    · exact fun hne => absurd rfl hne
    · exact fun _ => hnone
    · exact fun hne => absurd hnone hne
    · intro x _ _
      rw [hnew, hb]
    · intro x hx hx'
      rw [hnew] at hx'
      exact absurd (hx'.symm.trans hx) (by simp)
    · rw [hnew]
      simp [hb, hbindings, hbindings', Stream.fresh, Act.newRead, Act.newWrite]

/-- What `async_read_some()` asks for. -/
theorem step_asyncReadSome (hrep : m.past.Rep .rest) {h : Handler} {size : Nat}
    (hstep : m.step (.asyncReadSome h size) = some m') :
    m.reader ≠ .released ∧ m.q.rx.readHandler = none ∧
      m' = (m.fresh.asyncReadSome h size).record := by
  obtain ⟨u, hu, rfl⟩ := Option.map_eq_some_iff.mp hstep
  split at hu
  case isTrue hdead =>
    obtain ⟨hreader, heq⟩ := Option.ite_none_right_eq_some.mp hu
    exact ⟨hreader, (hrep.gone hdead).1, by rw [← Option.some.inj heq]⟩
  case isFalse =>
    obtain ⟨⟨hreader, hh⟩, heq⟩ := Option.ite_none_right_eq_some.mp hu
    exact ⟨hreader, hh, by rw [← Option.some.inj heq]⟩

theorem conserves_asyncReadSome (hrep : m.past.Rep .rest) {h : Handler} {size : Nat}
    (hstep : m.step (.asyncReadSome h size) = some m') :
    m.Conserves (.asyncReadSome h size) m' := by
  obtain ⟨hreader, hnone, rfl⟩ := step_asyncReadSome hrep hstep
  have htx := TxSame.asyncReadSome m.fresh h size
  have hsender : (m.fresh.asyncReadSome h size).q.tx = m.q.tx :=
    congrArg Sender.tx htx.sender
  obtain ⟨cs, hcs, hwriting⟩ := htx.calls
  have hcalls : (m.fresh.asyncReadSome h size).record.q.calls = cs := hcs
  have hwrites : writesDone cs = [] := by
    rw [← writesDone_filter, List.filter_eq_nil_iff.mpr fun c hc => by simp [hwriting c hc]]
    rfl
  have hnew : (m.fresh.asyncReadSome h size).record.q = (m.fresh.asyncReadSome h size).q := rfl
  -- the read is answered at once, or waits and may be completed by the loop
  rcases m.fresh.asyncReadSome_cases (c := .any) h size hreader with ⟨ec, hanswer, heq⟩ |
    ⟨hsize, hattached, hsteps⟩
  · have hb : m.bound (.asyncReadSome h size) = none := by
      refine if_neg fun hbound => ?_
      rcases hanswer with ⟨hsize, _⟩ | hdetached
      · exact hbound.1 hsize
      · have hreader' : m.reader = .detached ec := hdetached
        exact absurd (hreader'.symm.trans hbound.2) (by simp)
    have hq := hnew.trans (congrArg Stream.q heq)
    constructor
    · rw [hq]
      simp [Stream.fresh, QuicStream.call, readsDone, hnone, Act.newRead]
    · rw [hq]
      simp [Stream.fresh, QuicStream.call, writesDone, Act.newWrite]
    · exact fun _ => hnone
    · exact fun hne => absurd rfl hne
    · exact fun _ => by rw [hq]; rfl
    · intro x hx hx'
      rw [hq] at hx'
      exact absurd (hx'.symm.trans hx) (by simp)
    · intro x hx hx'
      rw [hq] at hx'
      exact absurd (hx'.symm.trans hx) (by simp)
    · rw [hq]
      simp [Stream.fresh, QuicStream.call, bindings, hb]
  · have hb : m.bound (.asyncReadSome h size) = some .read := if_pos ⟨hsize, hattached⟩
    have htrace : (m.fresh.asyncReadSome h size).receiver.trace = m.trace ++ cs := by
      show (m.fresh.asyncReadSome h size).trace ++ (m.fresh.asyncReadSome h size).q.calls = _
      rw [htx.trace, hcs]
      rfl
    have htickets := hsteps.tickets
    obtain ⟨ds, hds, hunbound⟩ := hsteps.unbound
    have hcs' : cs = .onCancel h .read :: ds := by
      rw [htrace] at hds
      refine List.append_cancel_left (hds.trans ?_)
      simp [Stream.receiver, Stream.fresh, Receiver.arm]
    rw [Receiver.tickets, htrace, readsDone_append, List.append_assoc] at htickets
    have hreads : readsDone cs ++ (m.fresh.asyncReadSome h size).q.rx.readHandler.toList = [h] := by
      refine List.append_cancel_left (htickets.trans ?_)
      simp [Receiver.tickets, Stream.receiver, Stream.fresh, Receiver.arm, readsDone]
    constructor
    · rw [hcalls, hnew, hreads, hnone]
      exact List.Perm.refl _
    · rw [hcalls, hnew, hwrites, hsender]
      simp [Act.newWrite]
    · exact fun _ => hnone
    · exact fun hne => absurd rfl hne
    · exact fun _ => by rw [hnew, hsender]
    · intro x hx hx'
      rw [hnew, hsender] at hx'
      exact absurd (hx'.symm.trans hx) (by simp)
    · exact fun _ _ _ => hb
    · have hbindings : bindings ds = [] := by
        refine bindings_eq_nil fun x fn hmem => ?_
        cases fn with
        | read => exact hunbound x hmem
        | write token =>
          have hnot := hwriting _ (hcs' ▸ List.mem_cons_of_mem _ hmem)
          exact absurd hnot (by simp [Call.aboutWriting])
      rw [hcalls, hb, hcs', ← List.singleton_append, bindings_append, hbindings]
      rfl

/-- An action that begins no read and no write loses no handler and invents none. -/
theorem conserves_other (hm : m.Sound) (hrep : m.past.Rep .rest)
    (hwrite : ∀ h buffer eof, a ≠ .startWrite h buffer eof)
    (hread : ∀ h size, a ≠ .asyncReadSome h size) (hstep : m.step a = some m') :
    m.Conserves a m' := by
  have htrace := step_trace hm hstep
  obtain ⟨hwrites, htoken, hunbound⟩ := (step_turn hm hstep).1.tickets hwrite
  rw [writesDone_filter] at hwrites
  obtain ⟨htickets, cs, hcs, hunbound'⟩ :=
    (reception (c := .any) hrep trivial hstep).tickets hread
  have hnewRead : a.newRead = none := by
    cases a with
    | asyncReadSome h size => exact absurd rfl (hread h size)
    | _ => rfl
  have hnewWrite : a.newWrite = none := by
    cases a with
    | startWrite h buffer eof => exact absurd rfl (hwrite h buffer eof)
    | _ => rfl
  have hcalls : cs = m'.q.calls := List.append_cancel_left (hcs.symm.trans htrace)
  have hreads : readsDone m'.q.calls ++ m'.q.rx.readHandler.toList = m.q.rx.readHandler.toList := by
    refine (List.append_right_inj (readsDone m.trace)).mp ?_
    rw [← List.append_assoc, ← readsDone_append, ← htrace]
    exact htickets
  constructor
  · rw [hreads, hnewRead]
    simp
  · have hwrites' : writesDone m'.q.calls ++ m'.q.tx.writeHandler.toList =
        m.q.tx.writeHandler.toList := hwrites
    rw [hwrites', hnewWrite]
    simp
  · exact fun hne => absurd hnewRead hne
  · exact fun hne => absurd hnewWrite hne
  · exact fun _ => htoken
  · intro x hx hx'
    have hwrites' : writesDone m'.q.calls ++ m'.q.tx.writeHandler.toList =
        m.q.tx.writeHandler.toList := hwrites
    rw [hx, hx'] at hwrites'
    exact absurd hwrites' (by simp)
  · intro x hx hx'
    rw [hx, hx'] at hreads
    exact absurd hreads (by simp)
  · have hnone : bindings m'.q.calls = [] := by
      refine bindings_eq_nil fun x fn hmem => ?_
      cases fn with
      | read => exact hunbound' x (hcalls ▸ hmem)
      | write token => exact hunbound x (.write token) (List.mem_filter.mpr ⟨hmem, rfl⟩)
    rw [hnone, hnewRead, hnewWrite]
    cases m.bound a <;> rfl

/-- **Conservation** of the handlers, step by step. -/
theorem step_conserves (hm : m.Sound) (hrep : m.past.Rep .rest) (hstep : m.step a = some m') :
    m.Conserves a m' := by
  by_cases hwrite : ∃ h buffer eof, a = .startWrite h buffer eof
  · obtain ⟨h, buffer, eof, rfl⟩ := hwrite
    exact conserves_startWrite hm hstep
  · by_cases hread : ∃ h size, a = .asyncReadSome h size
    · obtain ⟨h, size, rfl⟩ := hread
      exact conserves_asyncReadSome hrep hstep
    · exact conserves_other hm hrep (fun h buffer eof heq => hwrite ⟨h, buffer, eof, heq⟩)
        (fun h size heq => hread ⟨h, size, heq⟩) hstep

/-- Where a read that waits comes from. -/
theorem Conserves.read_cases (h : m.Conserves a m') {y : Handler}
    (hy : m'.q.rx.readHandler = some y) :
    m.q.rx.readHandler = some y ∨
      m.q.rx.readHandler = none ∧ a.newRead = some y ∧ m.bound a = some .read := by
  have hmem : y ∈ m.q.rx.readHandler.toList ++ a.newRead.toList := by
    rw [← h.reads.mem_iff, hy]
    simp
  rcases List.mem_append.mp hmem with hold | hnew
  · exact Or.inl (Option.mem_toList.mp hold)
  · have hnew' : a.newRead = some y := Option.mem_toList.mp hnew
    have hnone := h.idle_read (by simp [hnew'])
    exact Or.inr ⟨hnone, hnew', h.bound_read y hnone hy⟩

/-- ... and a write that waits after it has been waiting before, under the same token, or is the one
that it begins. -/
theorem Conserves.write_cases (h : m.Conserves a m') {y : Handler}
    (hy : m'.q.tx.writeHandler = some y) :
    m.q.tx.writeHandler = some y ∧ m'.q.tx.writeToken = m.q.tx.writeToken ∨
      m.q.tx.writeHandler = none ∧ a.newWrite = some y ∧
        m.bound a = some (.write m'.q.tx.writeToken) := by
  have hmem : y ∈ m.q.tx.writeHandler.toList ++ a.newWrite.toList := by
    rw [← h.writes.mem_iff, hy]
    simp
  rcases List.mem_append.mp hmem with hold | hnew
  · have hold' : m.q.tx.writeHandler = some y := Option.mem_toList.mp hold
    exact Or.inl ⟨hold', h.token (by simp [hold'])⟩
  · have hnew' : a.newWrite = some y := Option.mem_toList.mp hnew
    have hnone := h.idle_write (by simp [hnew'])
    exact Or.inr ⟨hnone, hnew', h.bound_write y hnone hy⟩

end Stream

end AnyHttp.Quic
