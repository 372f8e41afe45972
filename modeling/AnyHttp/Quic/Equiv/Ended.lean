import AnyHttp.Quic.Accept
import AnyHttp.Quic.Equiv.Owners
import AnyHttp.Quic.Equiv.Reception

/-!
# Reading a body that has ended

What reads get of a stream that has the whole of its body, from there on.  If the stream is there,
they get the rest of the body and then the end of it (`Stream.Ready.reads`).  If it has been
destroyed, nothing of the body is left, and its reader has one answer to all of them
(`Stream.reads_detached`).
-/

namespace AnyHttp.Quic

open Lib

namespace Receiver

variable {c : Conduct} {p p' : Phase} {r r' : Receiver}

/-! ### Nothing gets lost on the way -/

/-- What has not been delivered is there to be read. -/
def Flow (r : Receiver) : Prop :=
  r.readAborted = false → r.reader ≠ .released → delivered r.trace ++ r.rx.unread = r.received

/-- What has been delivered and what is unread are what has arrived, after a step of the receiving
side, ... -/
theorem Step.flow (hstep : Step c p r p' r') (hrep : r.Rep p) (h : r.Flow) : r'.Flow := by
  cases hstep with
  | data r n k handler hh hne =>
    intro haborted hreader
    show delivered (r.trace ++ [_]) ++ (afterRead r.rx r.rx.readHandlerBuffer).unread = r.received
    rw [delivered_append, delivered_data, unread_afterRead hrep.parked, readBytes_eq hrep.parked,
      List.append_assoc, List.take_append_drop]
    exact h haborted hreader
  | park r =>
    intro haborted hreader
    rw [← h haborted hreader]
    exact congrArg _ (unread_park hrep.parked).1
  | parkEnd r =>
    intro haborted hreader
    rw [← h haborted hreader]
    exact congrArg _ (unread_park hrep.parked).1
  | drop r hcalm hreader hfair => exact fun _ hne => absurd rfl hne
  | abort r hcalm hlive hkind heof => exact fun ha => nomatch ha
  | release r hcalm hdestroyed => exact fun _ hne => absurd rfl hne
  | destroy r hframes hlive =>
    intro haborted hreader
    have hold : r.reader ≠ .released := by
      intro heq
      simp [detachAll, heq] at hreader
    show delivered (r.trace ++ r.detachCalls) ++ r.rx.unread = r.received
    rw [delivered_append, delivered_detachCalls, List.append_nil]
    exact h haborted hold
  | calls r cs hcs =>
    intro haborted hreader
    show delivered (r.trace ++ cs) ++ r.rx.unread = r.received
    rw [delivered_append, delivered_other hcs, List.append_nil]
    exact h haborted hreader
  | fail r ec handler hh hcalm hfair =>
    intro haborted hreader
    show delivered (r.trace ++ [_]) ++ r.rx.unread = r.received
    rw [delivered_append, delivered_read, List.append_nil]
    exact h haborted hreader
  | _ =>
    intro haborted hreader
    simpa [Receiver.pass, Incoming.unread] using h haborted hreader

theorem Steps.flow (hsteps : Steps c p r p' r') (hrep : r.Rep p) (h : r.Flow) : r'.Flow := by
  induction hsteps with
  | refl => exact h
  | cons hstep _ ih => exact ih (hstep.rep hrep) (hstep.flow hrep h)

/-- ... and after an action. -/
theorem Turn.flow {a : Act} (hturn : Turn c r a r') (hrep : r.Rep .rest) (h : r.Flow) :
    r'.Flow := by
  cases hturn with
  | arrive data fin hdata hlive hframes hclosed heof haborted hfin hsteps =>
    refine hsteps.flow (hrep.arrive hlive hframes heof haborted hfin) fun ha hreader => ?_
    have hunread : (r.arrive data).rx.unread = r.rx.unread ++ data := by
      simp [Incoming.unread, Receiver.arrive, hrep.no_incoming hframes]
    rw [hunread, ← List.append_assoc]
    exact congrArg (· ++ data) (h ha hreader)
  | read handler size hsize hreader hh hsteps =>
    refine hsteps.flow (hrep.arm hreader handler size) fun ha hne => ?_
    show delivered (r.trace ++ [_]) ++ r.rx.unread = r.received
    rw [delivered_append, delivered_onCancel, List.append_nil]
    exact h ha hne
  | answer handler size ec hanswer =>
    intro ha hne
    show delivered (r.trace ++ [_]) ++ r.rx.unread = r.received
    rw [delivered_append, delivered_read, List.append_nil]
    exact h ha hne
  | steps hsteps => exact hsteps.flow hrep h

/-! ### Without a read, nothing is delivered -/

/-- With no read waiting, nothing is delivered, by a step, ... -/
theorem Step.silent (hstep : Step c p r p' r') (h : r.rx.readHandler = none) :
    r'.rx.readHandler = none ∧ delivered r'.trace = delivered r.trace := by
  cases hstep with
  | enter r k handler hh hactive => exact absurd (h.symm.trans hh) nofun
  | data r n k handler hh hunread => exact absurd (h.symm.trans hh) nofun
  | eof r n k handler hh hread heof => exact absurd (h.symm.trans hh) nofun
  | truncated r n k handler hh hread heof hover hfair => exact absurd (h.symm.trans hh) nofun
  | cancel r handler hh => exact absurd (h.symm.trans hh) nofun
  | fail r ec handler hh hcalm hfair => exact absurd (h.symm.trans hh) nofun
  | leave r n k hdone => exact ⟨h, by simp⟩
  | park r => exact ⟨(park_same r.rx).2.2.trans h, rfl⟩
  | parkEnd r => exact ⟨(park_same r.rx).2.2.trans h, rfl⟩
  | destroy r hframes hlive => exact ⟨rfl, by simp [detachAll]⟩
  | calls r cs hcs => exact ⟨h, by simp [delivered_other hcs]⟩
  | _ => exact ⟨h, rfl⟩

theorem Steps.silent (hsteps : Steps c p r p' r') (h : r.rx.readHandler = none) :
    r'.rx.readHandler = none ∧ delivered r'.trace = delivered r.trace := by
  induction hsteps with
  | refl => exact ⟨h, rfl⟩
  | cons hstep _ ih =>
    obtain ⟨hnone, hsame⟩ := hstep.silent h
    obtain ⟨hnone', hsame'⟩ := ih hnone
    exact ⟨hnone', hsame'.trans hsame⟩

/-- ... or by an action that is not a read. -/
theorem Turn.silent {a : Act} (hturn : Turn c r a r') (h : r.rx.readHandler = none)
    (ha : ∀ handler size, a ≠ .asyncReadSome handler size) :
    r'.rx.readHandler = none ∧ delivered r'.trace = delivered r.trace := by
  cases hturn with
  | arrive data fin hdata hlive hframes hclosed heof haborted hfin hsteps => exact hsteps.silent h
  | read handler size => exact absurd rfl (ha handler size)
  | answer handler size => exact absurd rfl (ha handler size)
  | steps hsteps => exact hsteps.silent h

end Receiver

open Receiver

/-! ### Reading a body that has ended -/

/-- What a read is told. -/
def Call.answer : Call → Option (ErrorCode × List UInt8)
  | .completeRead _ _ ec bytes => some (ec, bytes)
  | _ => none

namespace QuicStream

variable {q : QuicStream} {h : Handler}

/-- The loop ends at once if no read waits, ... -/
theorem readPass_of_none (hh : q.rx.readHandler = none) : q.readPass = none := by
  unfold readPass
  rw [hh]

/-- ... delivers the first bytes that are unread, ... -/
theorem readPass_of_unread (hh : q.rx.readHandler = some h)
    (hunread : q.rx.readHead ≠ [] ∨ q.rx.incoming ≠ []) :
    q.readPass =
      some ({ q with
          rx := { afterRead q.rx q.rx.readHandlerBuffer with readHandler := none } }.call
            (.completeRead h q.rx.readHandlerBuffer .success
              (readBytes q.rx q.rx.readHandlerBuffer)),
        (readBytes q.rx q.rx.readHandlerBuffer).length) := by
  unfold readPass
  simp only [hh]
  rw [if_pos hunread]
  rfl

/-- ... or tells the end of the body if there are none. -/
theorem readPass_of_eof (hh : q.rx.readHandler = some h)
    (hread : q.rx.readHead = [] ∧ q.rx.incoming = []) (heof : q.rx.eofReceived = true) :
    q.readPass =
      some ({ q with rx := { q.rx with readHandler := none } }.call
        (.completeRead h q.rx.readHandlerBuffer .eof []), 0) := by
  have hnot : ¬(q.rx.readHead ≠ [] ∨ q.rx.incoming ≠ []) := by
    rw [hread.1, hread.2]
    exact fun hne => hne.elim (fun h => h rfl) fun h => h rfl
  unfold readPass
  simp only [hh]
  rw [if_neg hnot, if_pos heof]

end QuicStream

/-- What ngtcp2 does is not what the user does. -/
theorem ne_of_fromNgtcp2 {a b : Act} (ha : a.fromNgtcp2 = true)
    (hb : b.fromNgtcp2 = false) : a ≠ b := by
  rintro rfl
  exact absurd (hb.symm.trans ha) Bool.false_ne_true

namespace Stream

variable {m m' : Stream}

/-- A read that completes right away, and the return of its handler. -/
def readOnce (m : Stream) (h : Handler) (size : Nat) : Option ((ErrorCode × List UInt8) × Stream) :=
  (m.step (.asyncReadSome h size)).bind fun m₁ =>
    (m₁.q.calls.findSome? Call.answer).bind fun x =>
      if m₁.frames = [] then some (x, m₁) else (m₁.step .ret).map fun m₂ => (x, m₂)

/-- A read is answered where its handler is called, which then returns, ... -/
theorem readOnce_of_ret {m₁ m₂ : Stream} {h : Handler} {n : Nat} {x : ErrorCode × List UInt8}
    (hread : m.step (.asyncReadSome h n) = some m₁)
    (hcalls : m₁.q.calls.findSome? Call.answer = some x) (hframes : m₁.frames ≠ [])
    (hret : m₁.step .ret = some m₂) : m.readOnce h n = some (x, m₂) := by
  rw [readOnce, hread, Option.bind_some, hcalls, Option.bind_some, if_neg hframes, hret]
  rfl

/-- ... or with no call left unfinished. -/
theorem readOnce_of_idle {m₁ : Stream} {h : Handler} {n : Nat} {x : ErrorCode × List UInt8}
    (hread : m.step (.asyncReadSome h n) = some m₁)
    (hcalls : m₁.q.calls.findSome? Call.answer = some x) (hframes : m₁.frames = []) :
    m.readOnce h n = some (x, m₁) := by
  rw [readOnce, hread, Option.bind_some, hcalls, Option.bind_some, if_pos hframes]

/-- One read after the other. -/
def reads (m : Stream) (h : Handler) : List Nat → Option (List (ErrorCode × List UInt8))
  | [] => some []
  | n :: ns => (m.readOnce h n).bind fun x => (reads x.2 h ns).map (x.1 :: ·)

/-- What reads of a body that has ended are told: what there is of it, and then the end. -/
def inOrder : List UInt8 → List Nat → List (ErrorCode × List UInt8)
  | _, [] => []
  | body, n :: ns =>
    (if body = [] then (.eof, []) else (.success, body.take n)) :: inOrder (body.drop n) ns

/-- A stream with the whole of its body, that nothing is happening to. -/
structure Ready (m : Stream) : Prop where
  live : m.destroyed = false
  reader : m.reader = .attached
  frames : m.frames = []
  handler : m.q.rx.readHandler = none
  active : m.q.rx.callReadHandlerActive = false
  eof : m.q.rx.eofReceived = true
  incoming : m.q.rx.incoming = []
  parked : Parked m.q.rx.readHead m.q.rx.pendingRead

/-- A read that is waiting completes, as the loop finds something for it. -/
theorem callReadHandler_of_pass (m : Stream) (k : Cont) (hhandler : m.q.rx.readHandler ≠ none)
    (hactive : m.q.rx.callReadHandlerActive = false) {q : QuicStream} {n : Nat}
    (hpass : { m.q with rx := { m.q.rx with callReadHandlerActive := true } }.readPass =
      some (q, n)) :
    m.callReadHandler k = { m with q := q, frames := .loop n k :: m.frames } := by
  have hgo : ¬(m.q.rx.readHandler = none ∨ m.q.rx.callReadHandlerActive = true) := by
    rw [hactive]
    exact fun hor => hor.elim hhandler Bool.false_ne_true
  rw [callReadHandler, callReadHandlerThen, if_neg hgo, readLoop]
  simp only [hpass, Nat.zero_add]

/-- The stream once a read has been issued, when the loop starts. -/
def armed (m : Stream) (h : Handler) (n : Nat) : QuicStream :=
  { m.fresh.q.call (.onCancel h .read) with
    rx := { m.q.rx with
      readHandler := some h
      readHandlerBuffer := n
      callReadHandlerActive := true } }

/-- A read of a stream that is ready begins the loop. -/
theorem Ready.step_read (hr : m.Ready) {h : Handler} {n k : Nat} (hn : n ≠ 0) {q : QuicStream}
    (hpass : (m.armed h n).readPass = some (q, k)) :
    m.step (.asyncReadSome h n) =
      some { m.fresh with q := q, frames := [.loop k .caller] }.record := by
  have hattached : m.fresh.reader = .attached := hr.reader
  have hguard : m.fresh.reader ≠ .released ∧ m.fresh.q.rx.readHandler = none :=
    ⟨by rw [hattached]; exact nofun, hr.handler⟩
  have hread : m.fresh.asyncReadSome h n =
          { m.fresh with q := q, frames := [.loop k .caller] } := by
    rw [asyncReadSome, if_neg hn]
    split
    case h_1 ec hec => exact absurd (hattached.symm.trans hec) nofun
    case h_2 =>
      refine Eq.trans (callReadHandler_of_pass _ .caller (q := q) (n := k) ?_ ?_ ?_) ?_
      · exact Option.some_ne_none h
      · exact hr.active
      · exact hpass
      show { m.fresh with q := q, frames := .loop k .caller :: m.frames } = _
      rw [hr.frames]
  rw [step, hr.live, if_neg Bool.false_ne_true, act, if_pos hguard, hread]
  rfl

/-- The handler returns, and no other read has been issued. -/
theorem step_ret (hlive : m.destroyed = false) {k : Nat} (hframes : m.frames = [.loop k .caller])
    (hhandler : m.q.rx.readHandler = none) :
    ∃ m', m.step .ret = some m' ∧ m'.destroyed = m.destroyed ∧ m'.reader = m.reader ∧
      m'.frames = [] ∧ m'.q.rx = { m.q.rx with callReadHandlerActive := false } := by
  refine ⟨{ m.fresh with frames := [], q := m.fresh.q.leaveReadLoop k }.record, ?_, rfl, rfl, rfl,
    rfl⟩
  rw [step, hlive, if_neg Bool.false_ne_true, act]
  rw [show m.fresh.frames = [.loop k .caller] from hframes]
  dsimp only
  rw [readLoop, QuicStream.readPass_of_none (q := m.fresh.q) hhandler]
  rfl

/-- **One read** gets the first bytes that are unread, or the end of the body. -/
theorem Ready.readOnce (hr : m.Ready) (h : Handler) {n : Nat} (hn : n ≠ 0) :
    ∃ m', m.readOnce h n = some (if m.q.rx.unread = [] then (.eof, []) else
        (.success, m.q.rx.unread.take n), m') ∧ m'.Ready ∧
      m'.q.rx.unread = m.q.rx.unread.drop n := by
  -- a read that is told `x`, and its return
  have hgo (q : QuicStream) (k : Nat) (x : ErrorCode × List UInt8)
      (hpass : (m.armed h n).readPass = some (q, k))
      (hcalls : q.calls.findSome? Call.answer = some x) (hhandler : q.rx.readHandler = none)
      (heof : q.rx.eofReceived = true) (hincoming : q.rx.incoming = [])
      (hparked : Parked q.rx.readHead q.rx.pendingRead) :
      ∃ m', m.readOnce h n = some (x, m') ∧ m'.Ready ∧ m'.q.rx.unread = q.rx.unread := by
    obtain ⟨m', hret, hlive, hreader, hframes, hrx⟩ := step_ret (k := k)
      (m := { m.fresh with q := q, frames := [.loop k .caller] }.record) hr.live rfl hhandler
    refine ⟨m', readOnce_of_ret (hr.step_read hn hpass) hcalls (List.cons_ne_nil _ _) hret, ?_, ?_⟩
    · exact
        { live := hlive.trans hr.live
          reader := hreader.trans hr.reader
          frames := hframes
          handler := hrx ▸ hhandler
          active := hrx ▸ rfl
          eof := hrx ▸ heof
          incoming := hrx ▸ hincoming
          parked := hrx ▸ hparked }
    · rw [hrx]
      rfl
  -- the end of the body comes after the last byte
  by_cases hunread : m.q.rx.unread = []
  · have hnothing := (unread_eq_nil hr.parked).mp hunread
    obtain ⟨m', hread, hready, hleft⟩ := hgo _ _ (.eof, [])
      (QuicStream.readPass_of_eof rfl hnothing hr.eof) rfl rfl hr.eof hr.incoming hr.parked
    refine ⟨m', ?_, hready, ?_⟩
    · rw [if_pos hunread]
      exact hread
    · rw [hunread, List.drop_nil]
      exact hleft.trans hunread
  · have hthere : m.q.rx.readHead ≠ [] ∨ m.q.rx.incoming ≠ [] := by
      by_contra hnot
      simp only [not_or, not_not] at hnot
      exact hunread ((unread_eq_nil hr.parked).mpr hnot)
    have hbytes : readBytes (m.armed h n).rx n = m.q.rx.unread.take n := readBytes_eq hr.parked n
    obtain ⟨m', hread, hready, hleft⟩ := hgo _ _ (.success, readBytes (m.armed h n).rx n)
      (QuicStream.readPass_of_unread rfl hthere) rfl rfl hr.eof
      (by
        show m.q.rx.incoming.drop _ = []
        rw [hr.incoming, List.drop_nil])
      (parked_afterRead hr.parked n)
    refine ⟨m', ?_, hready, hleft.trans (unread_afterRead hr.parked n)⟩
    rw [if_neg hunread, ← hbytes]
    exact hread

/-- **Reads of a body that has ended** get what is left of it, and then the end. -/
theorem Ready.reads (hr : m.Ready) (h : Handler) {sizes : List Nat} (hsizes : ∀ n ∈ sizes, n ≠ 0) :
    m.reads h sizes = some (inOrder m.q.rx.unread sizes) := by
  induction sizes generalizing m with
  | nil => rfl
  | cons n ns ih =>
    obtain ⟨m', hread, hready, hleft⟩ := hr.readOnce h (hsizes n List.mem_cons_self)
    have hrest := ih hready fun k hk => hsizes k (List.mem_cons_of_mem n hk)
    rw [Stream.reads, hread, Option.bind_some, hrest, hleft]
    rfl

/-- A reader that has been detached is told what has been latched. -/
theorem asyncReadSome_detached {h : Handler} {n : Nat} {ec : ErrorCode} (hn : n ≠ 0)
    (hreader : m.reader = .detached ec) :
    m.asyncReadSome h n = { m with q := m.q.call (.completeRead h n ec []) } := by
  rw [asyncReadSome, if_neg hn]
  simp only [hreader]

/-- The reader of a stream that is gone has one answer to everything. -/
theorem reads_detached {ec : ErrorCode} (hgone : m.destroyed = true)
    (hreader : m.reader = .detached ec) (hframes : m.frames = []) (h : Handler) {sizes : List Nat}
    (hsizes : ∀ n ∈ sizes, n ≠ 0) : m.reads h sizes = some (sizes.map fun _ => (ec, [])) := by
  -- on the reads, each of which is told the same
  induction sizes generalizing m with
  | nil => rfl
  | cons n ns ih =>
    have hread : m.step (.asyncReadSome h n) =
        some { m.fresh with q := m.fresh.q.call (.completeRead h n ec []) }.record := by
      have hguard : m.fresh.reader ≠ .released := by
        rw [show m.fresh.reader = .detached ec from hreader]
        exact nofun
      have hanswer := asyncReadSome_detached (m := m.fresh) (h := h)
        (hsizes n List.mem_cons_self) hreader
      rw [step, hgone, if_pos rfl, actDetached, if_pos hguard, hanswer]
      rfl
    have honce := readOnce_of_idle (x := (ec, [])) hread rfl hframes
    have hrest := ih (m := { m.fresh with
      q := m.fresh.q.call (.completeRead h n ec []) }.record) hgone hreader hframes
      fun k hk => hsizes k (List.mem_cons_of_mem n hk)
    rw [Stream.reads, honce, Option.bind_some, hrest]
    rfl

/-- What has been read is the beginning of the body, and reads get the rest of it in order and then
its end. -/
def Delivers (m : Stream) : Prop :=
  delivered m.trace <+: m.received ∧ ∀ (h : Handler) (sizes : List Nat), (∀ n ∈ sizes, n ≠ 0) →
    m.reads h sizes = some (inOrder (m.received.drop (delivered m.trace).length) sizes)

/-- **All that is unread can be read**, by reads of any size. -/
theorem Ready.delivers (hr : m.Ready) (hflow : delivered m.trace ++ m.q.rx.unread = m.received) :
    m.Delivers := by
  refine ⟨⟨_, hflow⟩, fun h sizes hsizes => ?_⟩
  rw [← hflow, List.drop_left]
  exact hr.reads h hsizes

/-- Behind the body, every read is told of its end. -/
theorem inOrder_nil (sizes : List Nat) : inOrder [] sizes = sizes.map fun _ => (.eof, []) := by
  induction sizes with
  | nil => rfl
  | cons n ns ih =>
    rw [inOrder, if_pos rfl, List.drop_nil, ih]
    rfl

/-- A stream that is gone before anything has been read delivers an empty body at best. -/
theorem delivers_of_detached {ec : ErrorCode} (hgone : m.destroyed = true)
    (hreader : m.reader = .detached ec) (hframes : m.frames = []) (hsilent : delivered m.trace = [])
    (hec : ec ≠ .success) (heof : m.received = [] → ec = .eof) :
    m.Delivers ↔ m.received = [] := by
  unfold Delivers
  rw [hsilent, List.length_nil, List.drop_zero]
  constructor
  · rintro ⟨_, hreads⟩
    by_contra hne
    have hone : ∀ n ∈ [1], n ≠ 0 := by simp
    have hread := hreads ⟨0, none⟩ [1] hone
    rw [reads_detached hgone hreader hframes _ hone, inOrder, if_neg hne] at hread
    exact hec (Prod.mk.inj (List.cons.inj (Option.some.inj hread)).1).1
  · intro hnil
    refine ⟨List.nil_prefix, fun h sizes hsizes => ?_⟩
    rw [reads_detached hgone hreader hframes h hsizes, hnil, inOrder_nil, heof hnil]

/-! ### Streams that nobody reads -/

/-- With no read waiting, `call_read_handler()` calls nobody, ... -/
theorem callReadHandlerThen_of_none (hh : m.q.rx.readHandler = none) (k : Cont)
    (after : Stream → Stream) : m.callReadHandlerThen k after = after m := by
  rw [callReadHandlerThen, if_pos (.inl hh)]

/-- ... so that the end of the body leaves no call unfinished, ... -/
theorem frames_onEof (hh : m.q.rx.readHandler = none) : m.onEof.frames = m.frames := by
  rw [onEof, callReadHandlerThen_of_none]
  · rfl
  · exact hh

/-- ... what goes on after a handler does not, ... -/
theorem frames_resume (hh : m.q.rx.readHandler = none) (k : Cont) :
    (m.resume k).frames = m.frames := by
  cases k with
  | caller => rfl
  | chunk fin =>
    have hpark : m.q.parkIncoming.rx.readHandler = none := by
      unfold QuicStream.parkIncoming
      split_ifs
      · exact hh
      · exact hh
      · exact hh
    cases fin with
    | false => rfl
    | true => exact frames_onEof (m := { m with q := m.q.parkIncoming }) hpark

theorem frames_callReadHandler (hh : m.q.rx.readHandler = none) (k : Cont) :
    (m.callReadHandler k).frames = m.frames := by
  rw [callReadHandler, callReadHandlerThen_of_none hh]
  exact frames_resume hh k

/-- ... data that arrives does not, ... -/
theorem frames_onDataChunk (hh : m.q.rx.readHandler = none) (data : List UInt8) (fin : Bool) :
    (m.onDataChunk data fin).frames = m.frames := by
  unfold onDataChunk
  split_ifs
  · exact frames_onEof hh
  · rfl
  · rw [frames_callReadHandler]
    exact hh

/-- ... nor the end of the receiving side, ... -/
theorem frames_abortReading (hh : m.q.rx.readHandler = none) :
    m.abortReading.frames = m.frames := by
  unfold abortReading
  split_ifs
  · rfl
  · rw [frames_callReadHandler]
    exact hh

/-- ... a packet, ... -/
theorem frames_writePkt {r : PktResult} (h : m.writePkt r = some m') : m'.frames = m.frames := by
  unfold writePkt at h
  generalize m.q.nextStreamData = x at h
  obtain ⟨q, vecs, fin⟩ := x
  dsimp only at h
  split_ifs at h
  · cases r with
    | written n =>
      obtain ⟨_, ht⟩ := Option.ite_none_right_eq_some.mp h
      obtain rfl := Option.some.inj ht
      rfl
    | notWritten =>
      obtain rfl := Option.some.inj h
      rfl
    | shutWr =>
      obtain rfl := Option.some.inj h
      rfl
  · obtain rfl := Option.some.inj h
    rfl

/-- ... or `fail()` of a plain stream. -/
theorem frames_fail (hk : m.q.kind ≠ .http3) (hh : m.q.rx.readHandler = none) (ec : ErrorCode) :
    (m.fail ec).frames = m.frames := by
  have hnot : ¬(m.q.rx.readHandler.isSome = true ∨ m.q.kind = .http3) := by
    rw [hh]
    exact fun hor => hor.elim nofun hk
  rw [fail, if_neg hnot]

/-- What ngtcp2 has to say is over right away, if there is nobody to tell. -/
theorem step_frames (hk : m.q.kind ≠ .http3) (hh : m.q.rx.readHandler = none) {a : Act}
    (ha : a.fromNgtcp2 = true ∨ ∃ ec, a = .fail ec) (h : m.step a = some m') :
    m'.frames = m.frames := by
  obtain ⟨m₁, h₁, rfl⟩ := Option.map_eq_some_iff.mp h
  show m₁.frames = m.frames
  split_ifs at h₁
  · rcases ha with ha | ⟨ec, rfl⟩
    · cases a with
      | asyncReadSome x size => exact absurd ha Bool.false_ne_true
      | dropReader => exact absurd ha Bool.false_ne_true
      | _ => exact nomatch h₁
    · exact nomatch h₁
  · rcases ha with ha | ⟨ec, rfl⟩
    · cases a with
      | recvStreamData data fin =>
        obtain ⟨_, ht⟩ := Option.ite_none_right_eq_some.mp h₁
        split_ifs at ht
        · obtain rfl := Option.some.inj ht
          rfl
        · obtain rfl := Option.some.inj ht
          exact frames_onDataChunk (m := m.fresh) hh data fin
      | streamReset =>
        obtain ⟨_, ht⟩ := Option.ite_none_right_eq_some.mp h₁
        split_ifs at ht
        · obtain rfl := Option.some.inj ht
          exact frames_abortReading (m := { m.fresh with peerReset := true }) hh
        · obtain rfl := Option.some.inj ht
          rfl
      | streamStopSending =>
        obtain ⟨_, ht⟩ := Option.ite_none_right_eq_some.mp h₁
        obtain rfl := Option.some.inj ht
        exact frames_abortReading (m := m.fresh) hh
      | recvStopSending =>
        obtain ⟨_, ht⟩ := Option.ite_none_right_eq_some.mp h₁
        obtain rfl := Option.some.inj ht
        rfl
      | writePkt r =>
        obtain ⟨_, ht⟩ := Option.ite_none_right_eq_some.mp h₁
        exact frames_writePkt (m := m.fresh) ht
      | acked stop =>
        obtain ⟨_, ht⟩ := Option.ite_none_right_eq_some.mp h₁
        obtain rfl := Option.some.inj ht
        rfl
      | _ => exact absurd ha Bool.false_ne_true
    · obtain rfl := Option.some.inj h₁
      exact frames_fail (m := m.fresh) hk hh ec

/-- A reader whose destructor has run is released, ... -/
theorem reader_of_dropReader (h : m.step .dropReader = some m') : m'.reader = .released := by
  obtain ⟨m₁, h₁, rfl⟩ := Option.map_eq_some_iff.mp h
  split_ifs at h₁
  · obtain rfl := Option.some.inj h₁
    rfl
  · obtain ⟨_, ht⟩ := Option.ite_none_right_eq_some.mp h₁
    obtain rfl := Option.some.inj ht
    rfl

/-- ... and stays so when the stream is destroyed. -/
theorem released_of_destroy (hreader : m.reader = .released) (h : m.step .destroy = some m') :
    m'.reader = .released := by
  obtain ⟨m₁, h₁, rfl⟩ := Option.map_eq_some_iff.mp h
  split_ifs at h₁
  · exact nomatch h₁
  · obtain ⟨_, ht⟩ := Option.ite_none_right_eq_some.mp h₁
    obtain rfl := Option.some.inj ht
    show m.fresh.detachAll.reader = .released
    unfold detachAll
    simp only [show m.fresh.reader = .released from hreader]

/-- A stream that has no adapters is erased when ngtcp2 closes it. -/
theorem step_fail_erases {ec : ErrorCode} (hlive : m.destroyed = false)
    (hh : m.q.rx.readHandler = none) (hk : m.q.kind ≠ .http3) (hreader : m.q.reader = false)
    (hwriter : m.q.writer = false) (h : m.step (.fail ec) = some m') :
    m'.q.closed = true ∧ .eraseStream ∈ m'.q.calls := by
  obtain ⟨m₁, h₁, rfl⟩ := Option.map_eq_some_iff.mp h
  rw [hlive, if_neg Bool.false_ne_true] at h₁
  obtain rfl := Option.some.inj h₁
  have hnot : ¬(m.fresh.q.rx.readHandler.isSome = true ∨ m.fresh.q.kind = .http3) := by
    rw [show m.fresh.q.rx.readHandler = none from hh]
    exact fun hor => hor.elim nofun hk
  rw [fail, if_neg hnot]
  have howners := QuicStream.owners_failWriting (m.fresh.q.failReading ec) ec
  have hread := m.fresh.q.owners_failReading ec
  obtain ⟨_, hr, hw, hc, _⟩ := Owners.mk.inj hread
  rw [QuicStream.owners_maybeClose] at howners
  obtain ⟨_, _, _, hclosed, herased⟩ := Owners.mk.inj howners
  rw [hr, hw, hc, show m.fresh.q.owners.reader = false from hreader,
    show m.fresh.q.owners.writer = false from hwriter] at herased
  exact ⟨hclosed.trans hc, of_decide_eq_true (herased.trans (Bool.or_true _))⟩

/-! ### Streams that are gone -/

/-- A stream that was destroyed before anything of it had been read. -/
structure Gone (m : Stream) : Prop where
  destroyed : m.destroyed = true
  frames : m.frames = []
  silent : delivered m.trace = []
  reader : m.reader ≠ .attached
  told : ∀ ec, m.reader = .detached ec → ec = m.past.latched

/-- A read is told right away that there is nothing. -/
theorem Gone.call (hg : m.Gone) {x : Call} (hx : delivered [x] = []) :
    ({ m.fresh with q := m.fresh.q.call x }.record).Gone where
  destroyed := hg.destroyed
  frames := hg.frames
  silent := by
    show delivered (m.trace ++ [x]) = []
    rw [delivered_append, hg.silent, hx]
    rfl
  reader := hg.reader
  told := hg.told

/-- **Step lemma**: what a stream that is gone has dropped does not come back. -/
theorem Gone.step (hg : m.Gone) {a : Act} (h : m.step a = some m') : m'.Gone := by
  obtain ⟨m₁, h₁, rfl⟩ := Option.map_eq_some_iff.mp h
  rw [hg.destroyed, if_pos rfl] at h₁
  cases a with
  | asyncReadSome x size =>
    obtain ⟨hreader, ht⟩ := Option.ite_none_right_eq_some.mp h₁
    obtain rfl := Option.some.inj ht
    by_cases hsize : size = 0
    · rw [asyncReadSome, if_pos hsize]
      exact hg.call rfl
    · cases hread : m.fresh.reader with
      | attached => exact absurd hread hg.reader
      | released => exact absurd hread hreader
      | detached ec =>
        rw [asyncReadSome_detached hsize hread]
        exact hg.call (delivered_read x size ec)
  | dropReader =>
    obtain rfl := Option.some.inj h₁
    refine ⟨hg.destroyed, hg.frames, ?_, nofun, nofun⟩
    show delivered (m.trace ++ []) = []
    rw [List.append_nil]
    exact hg.silent
  | _ => exact nomatch h₁

/-- A stream with no call unfinished can be destroyed. -/
theorem exists_step_destroy (hframes : m.frames = []) (hlive : m.destroyed = false) :
    ∃ m', m.step .destroy = some m' := by
  have hidle : m.fresh.idle = true := List.isEmpty_iff.mpr hframes
  refine ⟨m.fresh.detachAll.record, ?_⟩
  rw [step, hlive, if_neg Bool.false_ne_true, act, if_pos hidle]
  rfl

/-- A stream that nobody has read anything of is destroyed. -/
theorem step_destroy_gone (hframes : m.frames = []) (hh : m.q.rx.readHandler = none)
    (hsilent : delivered m.trace = []) (hrep : m.past.Rep .rest) (hlive : m.destroyed = false)
    (h : m.step .destroy = some m') : m'.Gone := by
  have hquiet := (reception (c := .any) hrep trivial h).silent hh nofun
  have hrep' := step_rep hrep h
  obtain ⟨m₁, h₁, rfl⟩ := Option.map_eq_some_iff.mp h
  rw [hlive, if_neg Bool.false_ne_true] at h₁
  obtain ⟨_, ht⟩ := Option.ite_none_right_eq_some.mp h₁
  obtain rfl := Option.some.inj ht
  refine ⟨rfl, hframes, hquiet.2.trans hsilent, (hrep'.gone rfl).2, fun ec hec => ?_⟩
  have hrx : m.fresh.detachAll.q.rx = m.q.rx := by
    refine (QuicStream.RxSame.detachWriting _).rx.trans ?_
    unfold QuicStream.detachReading
    simp only [show m.fresh.q.rx.readHandler = none from hh]
    rfl
  have htold : m.fresh.detachAll.reader = .detached ec := hec
  unfold latched
  show ec = if m.fresh.detachAll.q.rx.eofReceived && m.fresh.detachAll.q.rx.readHead.isEmpty &&
    m.fresh.detachAll.q.rx.incoming.isEmpty then .eof else .partialMessage
  rw [hrx]
  unfold detachAll at htold
  cases hread : m.reader with
  | attached =>
    simp only [show m.fresh.reader = .attached from hread] at htold
    exact (ReaderHandle.detached.inj htold).symm
  | detached ec' => exact absurd (hlive.symm.trans (hrep.detached ec' hread)) Bool.false_ne_true
  | released =>
    simp only [show m.fresh.reader = .released from hread] at htold
    exact nomatch htold

/-- **A body that has been dropped** can be read only if it was empty. -/
theorem Gone.delivers (hg : m.Gone) (hrep : m.past.Rep .rest) (hflow : m.past.Flow)
    (heof : m.q.rx.eofReceived = true) (haborted : m.q.readAborted = false)
    (hreader : m.reader ≠ .released) : m.Delivers ↔ m.received = [] := by
  cases hread : m.reader with
  | attached => exact absurd hread hg.reader
  | released => exact absurd hread hreader
  | detached ec =>
    have htold := hg.told ec hread
    refine delivers_of_detached hg.destroyed hread hg.frames hg.silent ?_ fun hnil => ?_
    · rw [htold]
      unfold latched
      split_ifs
      · exact nofun
      · exact nofun
    · have hunread : delivered m.trace ++ m.q.rx.unread = m.received := hflow haborted hreader
      rw [hg.silent, List.nil_append, hnil] at hunread
      have hnothing := (unread_eq_nil hrep.parked).mp hunread
      rw [htold, latched, show m.past.rx.eofReceived = true from heof, hnothing.1, hnothing.2]
      rfl

end Stream

end AnyHttp.Quic
