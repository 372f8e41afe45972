import AnyHttp.H2.Equiv.LastReads
import AnyHttp.H2.Equiv.Transfer

/-!
# A body does not get stuck

Where a reader waits for more of a body, and there is more of it at the other end, bytes can reach
it (`transfer_proceeds`).  First, everything that is on its way arrives, for whichever stream it is,
as no stream refuses it.  Then the connection has its credit back, and so has the stream, as a
reader that waits has taken everything.  So nghttp2 can send, and it is not kept from asking for
more.
-/

namespace AnyHttp.H2

open Lib

/-! ### One stream -/

namespace Stream

variable {m t : Stream} {a : Action}

theorem open_eq_true : m.open_ = true ↔ m.frames = [] ∧ m.gone = false := by
  unfold open_ gone
  cases m.registered <;> cases m.closed <;> cases m.destroyed <;> simp

theorem deliver_delivered (m : Stream) (h : Handler) :
    ((m.deliver h).push .data).delivered =
      m.delivered ++ m.rx.readBuffer.take m.rx.readHandlerBuffer :=
  delivered_concat (c := .completeRead h m.rx.readHandlerBuffer .success _ _) rfl

/-- A read that waits is completed by the first bytes that arrive. -/
theorem onData_completes (hm : m.AtRest) (hframes : m.frames = []) {h : Handler}
    (hread : m.rx.readHandler = some h) (hsize : 0 < m.rx.readHandlerBuffer) {data : List UInt8}
    (hdata : data ≠ []) :
    (m.onData data).rx.readHandler = none ∧
      ∃ bytes, bytes ≠ [] ∧ (m.onData data).delivered = m.delivered ++ bytes := by
  have hquiet := hm.quiet hframes
  obtain ⟨hbuffer, _⟩ := hquiet.idle (by rw [hread]; rfl)
  have hpending := hquiet.empty.mp hbuffer
  have henter : (({ m with received := m.received ++ data } : Stream).enter data).rx.readBuffer =
      data := by
    show (if m.rx.pendingReadBuffers = [] then data else m.rx.readBuffer) = data
    rw [if_pos hpending]
  unfold Stream.onData Stream.callReadHandler
  rcases callReadHandlerThen_cases { m with received := m.received ++ data } data
    finishDeferredClose with ⟨hnone, _⟩ | ⟨hinside, _⟩ | ⟨_, _, hstep⟩
  · exact absurd (hread.symm.trans hnone) (by simp)
  · exact absurd (hquiet.inside.symm.trans hinside) (by decide)
  · generalize hu : ({ m with received := m.received ++ data } : Stream).callReadHandlerThen data
      finishDeferredClose = u at hstep ⊢
    cases hstep with
    | @deliver h' _ _ =>
      refine ⟨rfl, data.take m.rx.readHandlerBuffer, ?_, ?_⟩
      · rw [ne_eq, List.take_eq_nil_iff, not_or]
        exact ⟨by omega, hdata⟩
      · refine (deliver_delivered _ h').trans ?_
        rw [henter]
        rfl
    | park hnone _ => exact absurd (hread.symm.trans hnone) (by simp)
    | eof _ hempty _ => exact absurd (henter.symm.trans hempty) hdata
    | truncated _ hempty _ => exact absurd (henter.symm.trans hempty) hdata
    | wait hempty _ _ => exact absurd (henter.symm.trans hempty) hdata

/-- The handler of a read returns, with no other read waiting. -/
theorem Live.ret_idle (hm : Live m) (hnone : m.rx.readHandler = none) {f : Frame}
    (hf : f.isRead = true) : Live (m.ret f) ∧ (m.ret f).frames = m.frames := by
  refine ⟨(hm.ret hf).1, ?_⟩
  have hleave : Live m.leave := hm.of_same rfl rfl rfl
  cases f with
  | data =>
    have hadvance : Live m.advance ∧ m.advance.frames = m.frames ∧
        m.advance.rx.readHandler = none := by
      unfold Stream.advance
      split
      · exact ⟨hm, rfl, hnone⟩
      · exact ⟨hm.of_same rfl rfl rfl, rfl, hnone⟩
    obtain ⟨hlive, hframes, hidle⟩ := hadvance
    have hcredit : m.advance.credit.frames = m.frames := by
      rw [← hframes]
      unfold Stream.credit
      split <;> rfl
    have hstep := readLoopThen_step m.advance finishDeferredClose
    show (m.advance.readLoopThen finishDeferredClose).frames = m.frames
    generalize m.advance.readLoopThen finishDeferredClose = u at hstep ⊢
    cases hstep with
    | deliver hh _ => exact absurd (hidle.symm.trans hh) (by simp)
    | park _ _ =>
      have hpark : Live m.advance.credit.park.leave := (live_credit hlive).of_same rfl rfl rfl
      rw [hpark.finish]
      exact hcredit
    | eof hh _ _ => exact absurd (hidle.symm.trans hh) (by simp)
    | truncated hh _ _ => exact absurd (hidle.symm.trans hh) (by simp)
    | wait _ _ _ =>
      have hpark : Live m.advance.credit.leave := (live_credit hlive).of_same rfl rfl rfl
      rw [hpark.finish]
      exact hcredit
  | eof =>
    show (m.eofLoopThen finishDeferredClose).frames = m.frames
    unfold Stream.eofLoopThen
    rw [hnone]
    show m.leave.finishDeferredClose.frames = m.frames
    rw [hleave.finish]
    rfl
  | truncated =>
    show m.leave.finishDeferredClose.frames = m.frames
    rw [hleave.finish]
    rfl
  | closing | erasing | erased | failed | done => exact absurd hf (by decide)

/-- After the end of the body, nothing is left of the write that waits. -/
theorem IsSending.unsent_nil (hm : m.IsSending) (hsubmitted : m.tx.eofSubmitted = true)
    (hwrite : m.tx.writeHandler ≠ none) : m.unsent = [] := by
  obtain ⟨_, ws, cur, hs⟩ := hm
  obtain ⟨h, hh⟩ := Option.ne_none_iff_exists'.mp hwrite
  obtain ⟨w, rfl⟩ := hs.some_of hh
  have hw := hs.waiting w rfl
  obtain ⟨_, htaken⟩ := hw.ended (hw.submitted.symm.trans hsubmitted)
  have hposition := hw.position
  unfold unsent
  cases hb : m.backend with
  | v1 =>
    rw [if_pos hb] at hposition
    show m.tx.writeBuffer = []
    rw [hposition, htaken, List.drop_length]
  | v2 mode =>
    rw [if_neg (by rw [hb]; simp)] at hposition
    show m.tx.writeBuffer.drop m.tx.offered = []
    rw [hposition.1, hposition.2, htaken, List.drop_length]

/-- Version 1 gets a byte where it asks for one. -/
theorem producer_gives (hopen : m.open_ = true) (hb : m.backend = .v1)
    (hasking : m.tx.isDeferred = false) (hsubmitted : m.tx.eofSubmitted = false)
    (hwrite : m.tx.writeHandler ≠ none) (hunsent : m.unsent ≠ []) :
    ∃ t x, step m (.producer 1) = some t ∧ x.length = 1 ∧ t.handed = m.handed ++ x := by
  obtain ⟨h, hh⟩ := Option.ne_none_iff_exists'.mp hwrite
  have hbuffer : m.tx.writeBuffer ≠ [] := by
    unfold unsent at hunsent
    rw [hb] at hunsent
    exact hunsent
  have hclosed : m.closed = false := by
    have hgone := (open_eq_true.mp hopen).2
    simp only [gone, Bool.or_eq_false_iff] at hgone
    exact hgone.1.1
  refine ⟨m.producerCallback 1, m.tx.writeBuffer.take 1, ?_, ?_, ?_⟩
  · rw [Stream.step, hopen, hb, hasking, hsubmitted]
    rfl
  · have hpos := List.length_pos_of_ne_nil hbuffer
    rw [List.length_take]
    omega
  · unfold producerCallback
    rw [if_neg (by rw [hclosed]; decide), hh]
    dsimp only
    rw [if_pos hbuffer]
    split
    · split <;> rfl
    · rfl

/-- Version 2 gets some bytes where it asks for them. -/
theorem dataReader_gives (hopen : m.open_ = true) {mode : WriteMode} (hb : m.backend = .v2 mode)
    (hasking : m.tx.isDeferred = false) (hframed : m.framed = m.handed.length)
    (hwrite : m.tx.writeHandler ≠ none) (hunsent : m.unsent ≠ []) :
    ∃ t x, step m (.dataReader 1) = some t ∧ x ≠ [] ∧ t.handed = m.handed ++ x := by
  obtain ⟨h, hh⟩ := Option.ne_none_iff_exists'.mp hwrite
  have hleft : m.tx.writeBuffer.drop m.tx.offered ≠ [] := by
    unfold unsent at hunsent
    rw [hb] at hunsent
    exact hunsent
  have hpos := List.length_pos_of_ne_nil hleft
  have hoffered : ∀ (u : Stream) {x : List UInt8} {ends copied : Bool},
      u.handed = m.handed ++ x →
        (if copied then ((if ends then u.endBody else u).completeWrite h .success).push .done
          else if ends then u.endBody else u).handed = m.handed ++ x := by
    intro u x ends copied hu
    cases ends <;> cases copied <;> exact hu
  have hstep : step m (.dataReader 1) = some (m.dataReader mode 1) := by
    rw [Stream.step, hb]
    dsimp only
    rw [hopen, hasking, hframed, if_pos (by simp)]
  have hgives : ∃ x, x ≠ [] ∧ (m.dataReader mode 1).handed = m.handed ++ x := by
    unfold dataReader
    rw [hh]
    dsimp only
    rw [if_neg hleft, if_neg (by decide)]
    have htake : ∀ n, 0 < n → (m.tx.writeBuffer.drop m.tx.offered).take n ≠ [] := by
      intro n hn
      rw [ne_eq, List.take_eq_nil_iff, not_or]
      exact ⟨by omega, hleft⟩
    cases mode with
    | zeroCopy => exact ⟨_, htake _ hpos, hoffered _ rfl⟩
    | staged =>
      refine ⟨_, htake _ ?_, hoffered _ rfl⟩
      show 0 < min (m.tx.writeBuffer.drop m.tx.offered).length writeChunkSize
      unfold writeChunkSize
      omega
  obtain ⟨x, hx, hhanded⟩ := hgives
  exact ⟨_, x, hstep, hx, hhanded⟩

/-- What arrives leaves at most one handler running, and then no other read waits. -/
theorem settles_event (hm : Live m) {p : Payload} (h : step m p.event = some t) :
    Live t ∧ Settles m t := by
  cases p with
  | bytes data =>
    obtain ⟨_, h⟩ := Option.ite_none_right_eq_some.mp h
    rw [← Option.some.inj h]
    have hsame : Live { m with received := m.received ++ data } := hm.of_same rfl rfl rfl
    exact hsame.callReadHandler data
  | endStream =>
    obtain ⟨_, h⟩ := Option.ite_none_right_eq_some.mp h
    rw [← Option.some.inj h]
    have hsame : Live { m with rx := { m.rx with eofReceived := true } } :=
      hm.of_same rfl rfl rfl
    exact hsame.callReadHandler []

end Stream

/-! ### The connection -/

namespace Transfer

variable {maxStreamData maxData : Nat} {s t u : Transfer maxStreamData maxData} {i j : Nat}
  {l k : Lane maxStreamData}

/-- What the sessions and the connection do on their own, while the handlers that are invoked
return without doing anything. -/
def Action.own : Action → Bool
  | .produce _ _ | .ask _ _ | .transmit _ _ | .endStream _ | .deliver | .windowUpdate _ _
  | .connectionUpdate _ => true
  | .sender _ a | .receiver _ a => a == .ret
  | .streamOpen => false

/-- What nghttp2 relies on, and the readers. -/
structure Able (s : Transfer maxStreamData maxData) : Prop where
  sound : Sound s
  awake : ∀ (i : Nat) (l : Lane maxStreamData), s.lanes[i]? = some l → l.sender.Awake
  answering : ∀ (i : Nat) (l : Lane maxStreamData), s.lanes[i]? = some l → l.receiver.Answering

/-- No handler is running at a receiving end. -/
def Idle (s : Transfer maxStreamData maxData) : Prop :=
  ∀ (i : Nat) (l : Lane maxStreamData), s.lanes[i]? = some l → l.receiver.frames = []

/-- There is more of the body. -/
def More (l : Lane maxStreamData) : Prop :=
  l.window.sent < l.sender.handed.length ∨ l.sender.tx.writeHandler ≠ none ∧ l.sender.unsent ≠ []

/-- The read that waits has been completed, with more of the body. -/
def Served (t : Transfer maxStreamData maxData) (i : Nat) (l : Lane maxStreamData) : Prop :=
  ∃ k bytes, t.lanes[i]? = some k ∧ bytes ≠ [] ∧
    k.receiver.delivered = l.receiver.delivered ++ bytes ∧ k.receiver.rx.readHandler = none

theorem Able.setLane (h : Able s) (hl : s.lanes[i]? = some l) (hsound : Sound t)
    (hlanes : t.lanes = s.lanes.set i k) (hawake : k.sender.Awake)
    (hanswering : k.receiver.Answering) : Able t := by
  refine ⟨hsound, ?_, ?_⟩
  · intro j k' hk'
    rw [hlanes] at hk'
    rcases (getElem?_set_eq_some hl).mp hk' with ⟨_, rfl⟩ | ⟨_, hold⟩
    · exact hawake
    · exact h.awake j k' hold
  · intro j k' hk'
    rw [hlanes] at hk'
    rcases (getElem?_set_eq_some hl).mp hk' with ⟨_, rfl⟩ | ⟨_, hold⟩
    · exact hanswering
    · exact h.answering j k' hold

theorem send_lanes {data : List UInt8} (hs : s.send i l data = some t) :
    ∃ window : Window maxStreamData, t.lanes = s.lanes.set i { l with window := window } := by
  obtain ⟨hroom, hs⟩ := Option.dite_none_right_eq_some.mp hs
  exact ⟨l.window.spend data.length hroom.1, by rw [← Option.some.inj hs]; rfl⟩

theorem Able.init {requests : Bool} {client server : Backend}
    {clientMaxHeaderSize serverMaxHeaderSize : Nat} :
    Able (init requests client server clientMaxHeaderSize serverMaxHeaderSize :
      Transfer maxStreamData maxData) :=
  ⟨.init, fun i l hl => absurd hl (by simp [Transfer.init]),
    fun i l hl => absurd hl (by simp [Transfer.init])⟩

theorem Able.streamOpen (h : Able s) (hsound : Sound { s with lanes := s.lanes ++ [s.newLane] }) :
    Able { s with lanes := s.lanes ++ [s.newLane] } := by
  have hnew : s.newLane.sender.Awake ∧ s.newLane.receiver.Answering := by
    unfold newLane
    dsimp only
    split
    · exact ⟨Stream.awake_fresh ⟨_, _, .inl rfl⟩, Stream.answering_fresh ⟨_, _, .inr rfl⟩⟩
    · exact ⟨Stream.awake_fresh ⟨_, _, .inr rfl⟩, Stream.answering_fresh ⟨_, _, .inl rfl⟩⟩
  refine ⟨hsound, ?_, ?_⟩
  · intro j k hk
    rcases getElem?_concat_eq_some hk with hold | ⟨_, rfl⟩
    · exact h.awake j k hold
    · exact hnew.1
  · intro j k hk
    rcases getElem?_concat_eq_some hk with hold | ⟨_, rfl⟩
    · exact h.answering j k hold
    · exact hnew.2

/-- **Step lemma**: nghttp2 goes on asking, unless it asks for bytes without any room for them. -/
theorem Able.step {a : Action} (h : Able s) (ha : ∀ j, a ≠ .ask j 0) (hs : step s a = some t) :
    Able t := by
  have hsound := h.sound.step hs
  have hawake : ∀ {i : Nat} {l : Lane maxStreamData} {a : H2.Action} {m : Stream},
      s.lanes[i]? = some l → l.sender.step a = some m → a ≠ .dataReader 0 → m.Awake := by
    intro i l a m hl hm hne
    exact ((h.awake i l hl).step_iff hm).mpr fun hstarves => hne hstarves.1
  have hanswering : ∀ {i : Nat} {l : Lane maxStreamData} {a : H2.Action} {m : Stream},
      s.lanes[i]? = some l → l.receiver.step a = some m → m.Answering :=
    fun hl hm => (h.answering _ _ hl).step hm
  cases a with
  | streamOpen =>
    rw [← Option.some.inj hs] at hsound ⊢
    exact h.streamOpen hsound
  | sender i a =>
    obtain ⟨htakes, hs⟩ := Option.ite_none_left_eq_some.mp hs
    obtain ⟨l, hl, hs⟩ := Option.bind_eq_some_iff.mp hs
    obtain ⟨m, hm, rfl⟩ := Option.map_eq_some_iff.mp hs
    refine h.setLane hl hsound rfl (hawake hl hm ?_) (h.answering i l hl)
    rintro rfl
    exact htakes rfl
  | receiver i a =>
    obtain ⟨_, hs⟩ := Option.ite_none_left_eq_some.mp hs
    obtain ⟨l, hl, hs⟩ := Option.bind_eq_some_iff.mp hs
    obtain ⟨m, hm, rfl⟩ := Option.map_eq_some_iff.mp hs
    exact h.setLane hl hsound rfl (h.awake i l hl) (hanswering hl hm)
  | produce i length =>
    obtain ⟨l, hl, hs⟩ := Option.bind_eq_some_iff.mp hs
    obtain ⟨m, hm, hs⟩ := Option.bind_eq_some_iff.mp hs
    obtain ⟨window, hlanes⟩ := send_lanes hs
    exact h.setLane hl hsound hlanes (hawake hl hm (by simp)) (h.answering i l hl)
  | ask i veccnt =>
    obtain ⟨l, hl, hs⟩ := Option.bind_eq_some_iff.mp hs
    obtain ⟨m, hm, rfl⟩ := Option.map_eq_some_iff.mp hs
    refine h.setLane hl hsound rfl (hawake hl hm ?_) (h.answering i l hl)
    intro hzero
    rw [H2.Action.dataReader.inj hzero] at ha
    exact ha i rfl
  | transmit i len =>
    obtain ⟨l, hl, hs⟩ := Option.bind_eq_some_iff.mp hs
    obtain ⟨m, hm, hs⟩ := Option.bind_eq_some_iff.mp hs
    obtain ⟨window, hlanes⟩ := send_lanes hs
    exact h.setLane hl hsound hlanes (hawake hl hm (by simp)) (h.answering i l hl)
  | endStream i =>
    obtain ⟨l, hl, hs⟩ := Option.bind_eq_some_iff.mp hs
    obtain ⟨_, hs⟩ := Option.ite_none_right_eq_some.mp hs
    rw [← Option.some.inj hs] at hsound ⊢
    exact h.setLane hl hsound rfl (h.awake i l hl) (h.answering i l hl)
  | deliver =>
    obtain ⟨requests, client, server, maxClient, maxServer, lanes, wire, window, extended⟩ := s
    cases wire with
    | nil => exact absurd hs (by simp [Transfer.step, Transfer.deliver])
    | cons frame wire =>
      obtain ⟨i, payload⟩ := frame
      obtain ⟨l, hl, hs⟩ := Option.bind_eq_some_iff.mp hs
      split at hs
      · rw [← Option.some.inj hs] at hsound ⊢
        exact ⟨hsound, h.awake, h.answering⟩
      · obtain ⟨m, hm, rfl⟩ := Option.map_eq_some_iff.mp hs
        exact h.setLane hl hsound rfl (h.awake i l hl) (hanswering hl hm)
  | windowUpdate i n =>
    obtain ⟨l, hl, hs⟩ := Option.bind_eq_some_iff.mp hs
    obtain ⟨_, hs⟩ := Option.ite_none_right_eq_some.mp hs
    rw [← Option.some.inj hs] at hsound ⊢
    exact h.setLane hl hsound rfl (h.awake i l hl) (h.answering i l hl)
  | connectionUpdate n =>
    obtain ⟨_, hs⟩ := Option.ite_none_right_eq_some.mp hs
    rw [← Option.some.inj hs] at hsound ⊢
    exact ⟨hsound, h.awake, h.answering⟩

/-! ### What is on its way arrives -/

/-- The next frame arrives at a stream that is there. -/
theorem deliver_eq {p : Payload} {wire : List (Nat × Payload)} (hwire : s.wire = (j, p) :: wire)
    (hk : s.lanes[j]? = some k) (hgone : k.receiver.gone = false) {m : Stream}
    (hm : k.receiver.step p.event = some m) :
    step s .deliver = some ({ s with
      wire := wire
      extended := s.extended + p.data.length }.setLane j { k with receiver := m }) := by
  show s.deliver = _
  unfold Transfer.deliver
  rw [hwire]
  dsimp only
  rw [hk, Option.bind_some, if_neg (by rw [hgone]; decide), hm]
  rfl

/-- The next frame arrives at a stream that is gone. -/
theorem deliver_gone {p : Payload} {wire : List (Nat × Payload)}
    (hwire : s.wire = (j, p) :: wire) (hk : s.lanes[j]? = some k)
    (hgone : k.receiver.gone = true) :
    step s .deliver =
      some { s with wire := wire, extended := s.extended + p.data.length } := by
  show s.deliver = _
  unfold Transfer.deliver
  rw [hwire]
  dsimp only
  rw [hk, Option.bind_some, if_pos hgone]

/-- No stream refuses what is for it. -/
theorem event_possible {p : Payload} {ps : List Payload} (hcarries : k.Carries (p :: ps))
    (hframes : k.receiver.frames = []) (hgone : k.receiver.gone = false) :
    ∃ m, k.receiver.step p.event = some m := by
  have heof : k.receiver.rx.eofReceived = false :=
    Bool.eq_false_of_not_eq_true fun heof => absurd (hcarries.eof heof).2.2 (by simp)
  have hopen := Stream.open_eq_true.mpr ⟨hframes, hgone⟩
  obtain ⟨last, hproper, _⟩ := hcarries.proper
  rcases hproper.tail with ⟨data, rfl, hdata, _⟩ | ⟨rfl, _, _⟩
  · refine ⟨k.receiver.onData data, ?_⟩
    show k.receiver.step (.onData data) = _
    rw [Stream.step, hopen, heof, if_pos (by simpa using hdata)]
  · refine ⟨k.receiver.onEof, ?_⟩
    show k.receiver.step .onEof = _
    rw [Stream.step, hopen, heof, if_pos (by decide)]

/-- A handler that runs at a receiving end returns. -/
theorem leads_to_idle (h : Able s) (hk : s.lanes[j]? = some k) (hlive : k.receiver.Live)
    {m : Stream} (hframes : m.frames = []) (hsettles : Stream.Settles m k.receiver)
    (hothers : ∀ (n : Nat) (l : Lane maxStreamData), n ≠ j → s.lanes[n]? = some l →
      l.receiver.frames = []) :
    ∃ t, Leads step Action.own s t ∧ Able t ∧ Idle t ∧ t.wire = s.wire ∧
      ∀ n, n ≠ j → t.lanes[n]? = s.lanes[n]? := by
  -- a stream whose last handler has returned, or the one whose handler is still running
  rcases hsettles with hnone | ⟨f, hread, hone, hidle⟩
  · refine ⟨s, .refl s, h, ?_, rfl, fun _ _ => rfl⟩
    intro n l hl
    by_cases hn : n = j
    · rw [hn, hk] at hl
      rw [← Option.some.inj hl, hnone]
      exact hframes
    · exact hothers n l hn hl
  · rw [hframes] at hone
    have hpopped : Stream.Live { k.receiver with frames := [] } :=
      ⟨hlive.registered, hlive.closeDeferred, List.not_mem_nil⟩
    obtain ⟨_, hdone⟩ := hpopped.ret_idle hidle hread
    have hret : k.receiver.step .ret =
        some (({ k.receiver with frames := [] } : Stream).ret f) := by
      rw [Stream.step, hone]
    have hstep : step s (.receiver j .ret) =
        some (s.setLane j { k with
          receiver := ({ k.receiver with frames := [] } : Stream).ret f }) := by
      show (s.lanes[j]?.bind _ : Option (Transfer maxStreamData maxData)) = _
      rw [hk, Option.bind_some, hret]
      rfl
    refine ⟨_, .of_step rfl hstep, h.step (by simp) hstep, ?_, rfl, ?_⟩
    · intro n l hl
      rcases (getElem?_set_eq_some hk).mp hl with ⟨_, rfl⟩ | ⟨hn, hold⟩
      · exact hdone
      · exact hothers n l hn hold
    · intro n hn
      exact List.getElem?_set_ne (Ne.symm hn)

/-- Bytes that arrive complete a read that waits. -/
theorem served_of_bytes (h : Able s) (hl : s.lanes[i]? = some l) (hframes : l.receiver.frames = [])
    (hgone : l.receiver.gone = false) {h' : Handler}
    (hread : l.receiver.rx.readHandler = some h') {data : List UInt8} (hdata : data ≠ [])
    {wire : List (Nat × Payload)} (hwire : s.wire = (i, .bytes data) :: wire) :
    ∃ t, Leads step Action.own s t ∧ Served t i l := by
  have hcarries := h.sound.lanes i l hl
  rw [hwire, framesOf_cons, if_pos rfl] at hcarries
  obtain ⟨m, hm⟩ := event_possible hcarries hframes hgone
  have hstep := deliver_eq hwire hl hgone hm
  obtain ⟨_, hm⟩ := Option.ite_none_right_eq_some.mp hm
  have hsize := (h.answering i l hl).size (by rw [hread]; rfl)
  obtain ⟨hnone, bytes, hbytes, hdelivered⟩ :=
    Stream.onData_completes hcarries.rest hframes hread hsize hdata
  rw [Option.some.inj hm] at hnone hdelivered
  refine ⟨_, .of_step rfl hstep, { l with receiver := m }, bytes, ?_, hbytes, hdelivered, hnone⟩
  exact (getElem?_set_eq_some hl).mpr (.inl ⟨rfl, rfl⟩)

/-- The end of a body is not on its way where there is more of it. -/
theorem not_ended {ps : List Payload} (hcarries : l.Carries (.endStream :: ps)) : ¬More l := by
  intro hmore
  obtain ⟨last, hproper, hlast⟩ := hcarries.proper
  have hend : last = true := by
    rcases hproper.tail with ⟨_, hdata, _, _⟩ | ⟨_, _, hend⟩
    · exact absurd hdata (by simp)
    · exact hend
  obtain ⟨hsubmitted, hall⟩ := hcarries.ended (hlast hend)
  rcases hmore with hless | ⟨hwrite, hunsent⟩
  · omega
  · exact hunsent (hcarries.sending.unsent_nil hsubmitted hwrite)

/-- The next frame arrives, whoever it is for. -/
theorem leads_deliver (h : Able s) (hidle : Idle s) (hl : s.lanes[i]? = some l)
    (hgone : l.receiver.gone = false) {h' : Handler}
    (hread : l.receiver.rx.readHandler = some h') (hmore : More l) {frame : Nat × Payload}
    {wire : List (Nat × Payload)} (hwire : s.wire = frame :: wire) :
    (∃ t, Leads step Action.own s t ∧ Served t i l) ∨
      ∃ t, Leads step Action.own s t ∧ Able t ∧ Idle t ∧ t.lanes[i]? = some l ∧ t.wire = wire := by
  obtain ⟨j, p⟩ := frame
  have hj := h.sound.known (j, p) (by rw [hwire]; exact List.mem_cons_self)
  obtain ⟨k, hk⟩ : ∃ k, s.lanes[j]? = some k := ⟨_, List.getElem?_eq_getElem hj⟩
  have hcarries := h.sound.lanes j k hk
  rw [hwire, framesOf_cons, if_pos rfl] at hcarries
  -- what arrives at a stream that is gone is dropped by nghttp2
  by_cases hkgone : k.receiver.gone = true
  · have hstep := deliver_gone hwire hk hkgone
    exact .inr ⟨_, .of_step rfl hstep, h.step (by simp) hstep, hidle, hl, rfl⟩
  · have hkgone := Bool.eq_false_of_not_eq_true hkgone
    obtain ⟨m, hm⟩ := event_possible hcarries (hidle j k hk) hkgone
    have hstep := deliver_eq hwire hk hkgone hm
    by_cases hji : j = i
    · -- it is for the reader that waits
      subst hji
      obtain rfl := Option.some.inj (hk.symm.trans hl)
      cases p with
      | bytes data =>
        obtain ⟨last, hproper, _⟩ := hcarries.proper
        have hdata : data ≠ [] := by
          rcases hproper.tail with ⟨_, hsame, hdata, _⟩ | ⟨hsame, _, _⟩
          · rw [Payload.bytes.inj hsame]
            exact hdata
          · exact absurd hsame (by simp)
        exact .inl (served_of_bytes h hl (hidle _ _ hl) hgone hread hdata hwire)
      | endStream => exact absurd hmore (not_ended hcarries)
    · -- it is for another one, whose handler returns
      have hlive : k.receiver.Live := by
        obtain ⟨hclosed, hdestroyed⟩ := (Lane.gone_eq_false hcarries.lives).mp hkgone
        exact hcarries.lives hclosed hdestroyed
      obtain ⟨hlive, hsettles⟩ := Stream.settles_event hlive hm
      set u := { s with wire := wire, extended := s.extended + p.data.length }.setLane j
        { k with receiver := m } with hu
      have hlanes : u.lanes = s.lanes.set j { k with receiver := m } := rfl
      have hku : u.lanes[j]? = some { k with receiver := m } :=
        (getElem?_set_eq_some hk).mpr (.inl ⟨rfl, rfl⟩)
      have hothers : ∀ (n : Nat) (l : Lane maxStreamData), n ≠ j → u.lanes[n]? = some l →
          l.receiver.frames = [] := by
        intro n l hn hl
        rw [hlanes, List.getElem?_set_ne (Ne.symm hn)] at hl
        exact hidle n l hl
      obtain ⟨t, ht, hable, hidle', hwire', hsame⟩ :=
        leads_to_idle (h.step (by simp) hstep) hku hlive (hidle j k hk) hsettles hothers
      refine .inr ⟨t, (Leads.of_step rfl hstep).trans ht, hable, hidle', ?_, hwire'⟩
      rw [hsame i (Ne.symm hji), hlanes, List.getElem?_set_ne hji]
      exact hl

/-- Everything on its way arrives. -/
theorem leads_to_empty (h : Able s) (hidle : Idle s) (hl : s.lanes[i]? = some l)
    (hgone : l.receiver.gone = false) {h' : Handler}
    (hread : l.receiver.rx.readHandler = some h') (hmore : More l) :
    (∃ t, Leads step Action.own s t ∧ Served t i l) ∨
      ∃ t, Leads step Action.own s t ∧ Able t ∧ Idle t ∧ t.lanes[i]? = some l ∧ t.wire = [] := by
  generalize hwire : s.wire = wire
  induction wire generalizing s with
  | nil => exact .inr ⟨s, .refl s, h, hidle, hl, hwire⟩
  | cons frame wire ih =>
    rcases leads_deliver h hidle hl hgone hread hmore hwire with hserved | ⟨t, ht, h', hidle', hl',
      hwire'⟩
    · exact .inl hserved
    · rcases ih h' hidle' hl' hwire' with ⟨u, hu, hserved⟩ | ⟨u, hu, hrest⟩
      · exact .inl ⟨u, ht.trans hu, hserved⟩
      · exact .inr ⟨u, ht.trans hu, hrest⟩

/-! ### The windows are open -/

/-- What a reader that waits has received, it has got, and the credit has been given back. -/
theorem credited_of_waiting {m : Stream} (hm : m.AtRest) (hframes : m.frames = []) {h : Handler}
    (hread : m.rx.readHandler = some h) : m.credited = m.received.length := by
  have hquiet := hm.quiet hframes
  obtain ⟨hbuffer, _⟩ := hquiet.idle (by rw [hread]; rfl)
  have hunread : m.unread = [] := by
    simp [Stream.unread, hbuffer, hquiet.empty.mp hbuffer, hquiet.view]
  have hcredit := hm.1.credit
  rw [hquiet.consumed] at hcredit
  rw [hm.1.content, hunread, List.append_nil]
  exact hcredit

/-- Once everything has arrived, the windows are as large as they were in the beginning. -/
theorem leads_to_open (h : Able s) (hidle : Idle s) (hl : s.lanes[i]? = some l)
    (hgone : l.receiver.gone = false) {h' : Handler}
    (hread : l.receiver.rx.readHandler = some h') (hwire : s.wire = []) :
    ∃ t k, Leads step Action.own s t ∧ Able t ∧ Idle t ∧ t.wire = [] ∧ t.lanes[i]? = some k ∧
      k.sender = l.sender ∧ k.receiver = l.receiver ∧ k.window.sent = l.window.sent ∧
      k.window.room = maxStreamData ∧ t.window.room = maxData := by
  have hbalance : s.window.Balance 0 0 s.extended 0 := by
    have hall := h.sound.balance
    rw [hwire] at hall
    exact hall
  -- all that has arrived has been given back already, but not been told to the peer
  have hconnection : step s (.connectionUpdate (s.extended - s.window.granted)) =
      some { s with window := s.window.grant (s.extended - s.window.granted) } := by
    have hgranted := hbalance.granted
    rw [Transfer.step, if_pos (by omega)]
  have hcarries := h.sound.lanes i l hl
  rw [hwire] at hcarries
  have hcredited := credited_of_waiting hcarries.rest (hidle i l hl) hread
  -- nothing is lost on the way to a stream that is there
  have hlane : l.window.Balance 0 0 l.receiver.credited 0 := by
    obtain ⟨lost, hlost⟩ := hcarries.balance
    have harriving := congrArg List.length (hcarries.arriving hgone)
    have hle := hcarries.sent_le
    rw [show inFlight (framesOf [] i) = [] from rfl, List.append_nil, List.length_take] at harriving
    rw [show inFlight (framesOf [] i) = [] from rfl] at hlost
    have hsent := hlost.sent
    rw [List.length_nil] at hsent
    exact ⟨by omega, hlost.granted⟩
  set u := { s with window := s.window.grant (s.extended - s.window.granted) } with hu
  have hstream : step u (.windowUpdate i (l.receiver.credited - l.window.granted)) =
      some (u.setLane i { l with
        window := l.window.grant (l.receiver.credited - l.window.granted) }) := by
    have hgranted := hlane.granted
    show (s.lanes[i]?.bind _ : Option (Transfer maxStreamData maxData)) = _
    rw [hl, Option.bind_some, Stream.extended_eq, if_pos (by omega)]
  have hable := h.step (by simp) hconnection
  refine ⟨_, { l with window := l.window.grant (l.receiver.credited - l.window.granted) },
    (Leads.of_step rfl hconnection).trans (.of_step rfl hstream), hable.step (by simp) hstream, ?_,
    hwire, ?_, rfl, rfl, rfl, hlane.full, hbalance.full⟩
  · intro n k hk
    rcases (getElem?_set_eq_some (l := u.lanes) hl).mp hk with ⟨_, rfl⟩ | ⟨_, hold⟩
    · exact hidle i l hl
    · exact hidle n k hold
  · exact (getElem?_set_eq_some hl).mpr (.inl ⟨rfl, rfl⟩)

/-! ### nghttp2 sends -/

theorem send_eq {data : List UInt8} (hdata : data ≠ []) (hwire : s.wire = [])
    (hstream : data.length ≤ l.window.room) (hconnection : data.length ≤ s.window.room) :
    s.send i l data = some { s.setLane i
        { l with window := l.window.spend data.length hstream } with
      wire := [(i, .bytes data)]
      window := s.window.spend data.length hconnection } := by
  unfold Transfer.send
  rw [dif_pos ⟨hstream, hconnection⟩, if_neg hdata, hwire]
  rfl

/-- A byte that nghttp2 has been given, and has not sent, reaches the reader that waits. -/
theorem served_of_given (h : Able s) (hidle : Idle s) (hl : s.lanes[i]? = some l)
    (hopen : l.sender.open_ = true) (hless : l.window.sent < l.sender.handed.length)
    (hgone : l.receiver.gone = false) {h' : Handler}
    (hread : l.receiver.rx.readHandler = some h') (hwire : s.wire = [])
    (hstream : 0 < l.window.room) (hconnection : 0 < s.window.room) :
    ∃ t, Leads step Action.own s t ∧ Served t i l := by
  have hcarries := h.sound.lanes i l hl
  have hframed := hcarries.framed
  cases hb : l.sender.backend with
  | v1 =>
    rw [if_pos hb] at hframed
    omega
  | v2 mode =>
    rw [if_neg (by rw [hb]; simp)] at hframed
    obtain ⟨m, hm⟩ : ∃ m, l.sender.step (.writeOffset 1) = some m := by
      refine ⟨l.sender.onWriteOffset mode 1, ?_⟩
      rw [Stream.step, hb]
      dsimp only
      rw [hopen, if_pos (by simp; omega)]
    have hhanded : m.handed = l.sender.handed := (Stream.still_writeOffset hm).1.handed
    set data := (m.handed.drop l.window.sent).take 1 with hdata
    have hlength : data.length = 1 := by
      rw [hdata, List.length_take, List.length_drop, hhanded]
      omega
    have hne : data ≠ [] := by
      rintro hnil
      rw [hnil] at hlength
      exact absurd hlength (by decide)
    have hsend := send_eq (i := i) (l := { l with sender := m }) hne hwire
      (by rw [hlength]; exact hstream) (by rw [hlength]; exact hconnection)
    have hstep : step s (.transmit i 1) = s.send i { l with sender := m } data := by
      show (s.lanes[i]?.bind _ : Option (Transfer maxStreamData maxData)) = _
      rw [hl, Option.bind_some, hm]
      rfl
    rw [hsend] at hstep
    have hable := h.step (by simp) hstep
    obtain ⟨t, ht, k, bytes, hk⟩ := served_of_bytes hable
      ((getElem?_set_eq_some hl).mpr (.inl ⟨rfl, rfl⟩)) (hidle i l hl) hgone hread hne rfl
    exact ⟨t, (Leads.of_step rfl hstep).trans ht, k, bytes, hk⟩

/-- nghttp2 asks for the bytes of a write that waits, and they reach the reader. -/
theorem served_of_unsent (h : Able s) (hidle : Idle s) (hl : s.lanes[i]? = some l)
    (hopen : l.sender.open_ = true) (hall : l.window.sent = l.sender.handed.length)
    (hwrite : l.sender.tx.writeHandler ≠ none) (hunsent : l.sender.unsent ≠ [])
    (hgone : l.receiver.gone = false) {h' : Handler}
    (hread : l.receiver.rx.readHandler = some h') (hwire : s.wire = [])
    (hstream : 0 < l.window.room) (hconnection : 0 < s.window.room) :
    ∃ t, Leads step Action.own s t ∧ Served t i l := by
  have hcarries := h.sound.lanes i l hl
  have hsgone := (Stream.open_eq_true.mp hopen).2
  have hclosed : l.sender.closed = false := by
    simp only [Stream.gone, Bool.or_eq_false_iff] at hsgone
    exact hsgone.1.1
  have hasking := h.awake i l hl hwrite (.inl hunsent) hclosed
  cases hb : l.sender.backend with
  | v1 =>
    have hsubmitted : l.sender.tx.eofSubmitted = false :=
      Bool.eq_false_of_not_eq_true fun hsub =>
        hunsent (hcarries.sending.unsent_nil hsub hwrite)
    obtain ⟨m, x, hm, hlength, hhanded⟩ :=
      Stream.producer_gives hopen hb hasking hsubmitted hwrite hunsent
    have hdata : m.handed.drop l.window.sent = x := by
      rw [hhanded, hall, List.drop_left]
    have hne : x ≠ [] := by
      rintro rfl
      exact absurd hlength (by decide)
    have hsend := send_eq (i := i) (l := { l with sender := m }) hne hwire
      (by rw [hlength]; exact hstream) (by rw [hlength]; exact hconnection)
    have hstep : step s (.produce i 1) = s.send i { l with sender := m } x := by
      show (s.lanes[i]?.bind _ : Option (Transfer maxStreamData maxData)) = _
      rw [hl, Option.bind_some, hm, ← hdata]
      rfl
    rw [hsend] at hstep
    have hable := h.step (by simp) hstep
    obtain ⟨t, ht, k, bytes, hk⟩ := served_of_bytes hable
      ((getElem?_set_eq_some hl).mpr (.inl ⟨rfl, rfl⟩)) (hidle i l hl) hgone hread hne rfl
    exact ⟨t, (Leads.of_step rfl hstep).trans ht, k, bytes, hk⟩
  | v2 mode =>
    have hframed := hcarries.framed
    rw [if_neg (by rw [hb]; simp)] at hframed
    obtain ⟨m, x, hm, hx, hhanded⟩ :=
      Stream.dataReader_gives hopen hb hasking (hframed.symm.trans hall) hwrite hunsent
    have hask : step s (.ask i 1) = some (s.setLane i { l with sender := m }) := by
      show (s.lanes[i]?.bind _ : Option (Transfer maxStreamData maxData)) = _
      rw [hl, Option.bind_some, hm]
      rfl
    have hable := h.step (by simp) hask
    have hlane : (s.setLane i { l with sender := m }).lanes[i]? = some { l with sender := m } :=
      (getElem?_set_eq_some hl).mpr (.inl ⟨rfl, rfl⟩)
    have hidle' : Idle (s.setLane i { l with sender := m }) := by
      intro n k hk
      rcases (getElem?_set_eq_some hl).mp hk with ⟨_, rfl⟩ | ⟨_, hold⟩
      · exact hidle i l hl
      · exact hidle n k hold
    have hless : l.window.sent < m.handed.length := by
      have hpos := List.length_pos_of_ne_nil hx
      rw [hhanded, List.length_append]
      omega
    -- a staged write may have completed, and then its handler returns
    obtain ⟨tx, writes, handed, ended, framed, frames, cs, rfl, hframes, _⟩ :=
      Stream.outward_step rfl hm
    have hnone := (Stream.open_eq_true.mp hopen).1
    -- asking may have completed the write, whose handler is still running
    rcases hframes with rfl | rfl
    · obtain ⟨t, ht, hserved⟩ := served_of_given hable hidle' hlane
        (Stream.open_eq_true.mpr ⟨hnone, hsgone⟩) hless hgone hread hwire hstream hconnection
      exact ⟨t, (Leads.of_step rfl hask).trans ht, hserved⟩
    · set m : Stream := { l.sender with
        tx := tx
        writes := writes
        handed := handed
        ended := ended
        framed := framed
        frames := .done :: l.sender.frames
        trace := l.sender.trace ++ cs } with hdef
      have hret : step (s.setLane i { l with sender := m }) (.sender i .ret) =
          some ((s.setLane i { l with sender := m }).setLane i
            { l with sender := { m with frames := l.sender.frames } }) := by
        show ((s.setLane i { l with sender := m }).lanes[i]?.bind _ :
          Option (Transfer maxStreamData maxData)) = _
        rw [hlane]
        rfl
      obtain ⟨t, ht, hserved⟩ := served_of_given (hable.step (by simp) hret)
        (l := { l with sender := { m with frames := l.sender.frames } })
        (by
          intro n k hk
          rcases (getElem?_set_eq_some hlane).mp hk with ⟨_, rfl⟩ | ⟨_, hold⟩
          · exact hidle i l hl
          · exact hidle' n k hold)
        ((getElem?_set_eq_some hlane).mpr (.inl ⟨rfl, rfl⟩))
        (Stream.open_eq_true.mpr ⟨hnone, hsgone⟩) hless hgone hread hwire hstream hconnection
      exact ⟨t, ((Leads.of_step rfl hask).trans (.of_step rfl hret)).trans ht, hserved⟩

/-- **A body does not get stuck**: in every state of every run with no handler running, where a
reader waits for more of a body, and there is more of it at the other end, bytes can reach it
without anybody else reading or writing anything, however much the readers of other streams leave
unread, if version 2 of nghttp2 never asks for bytes without any room for them. -/
theorem transfer_proceeds {requests : Bool} {client server : Backend}
    {clientMaxHeaderSize serverMaxHeaderSize : Nat} {as : List Action} {h' : Handler}
    (hrun : run step (init requests client server clientMaxHeaderSize serverMaxHeaderSize :
      Transfer maxStreamData maxData) as = some s) (hroom : ∀ j, .ask j 0 ∉ as)
    (hstream : 0 < maxStreamData) (hconnection : 0 < maxData) (hidle : Idle s)
    (hl : s.lanes[i]? = some l) (hsender : l.sender.open_ = true)
    (hreceiver : l.receiver.open_ = true) (hread : l.receiver.rx.readHandler = some h')
    (hmore : More l) :
    ∃ t, Leads step Action.own s t ∧ Served t i l := by
  have hable : Able s := by
    have hmeets : Meets step (fun (_ : Transfer maxStreamData maxData) a => ∀ j, a ≠ .ask j 0)
        (init requests client server clientMaxHeaderSize serverMaxHeaderSize) as := by
      refine meets_of_forall ?_ _
      rintro a ha _ j rfl
      exact hroom j ha
    exact run_inv_of_meets (fun _ _ _ h ha hs => h.step ha hs) .init hmeets hrun
  have hgone := (Stream.open_eq_true.mp hreceiver).2
  -- first, everything that is on its way arrives
  rcases leads_to_empty hable hidle hl hgone hread hmore with hserved | ⟨t, ht, hable', hidle', hl',
    hwire⟩
  · exact hserved
  obtain ⟨u, k, hu, hable'', hidle'', hwire', hk, hsame, hsame', hsent, hroom', hroom''⟩ :=
    leads_to_open hable' hidle' hl' hgone hread hwire
  have hserve : ∃ v, Leads step Action.own u v ∧ Served v i k := by
    have hlanes := hable''.sound.lanes i k hk
    -- then bytes that nghttp2 has been given are sent, or the writer is asked for more
    by_cases hless : k.window.sent < k.sender.handed.length
    · exact served_of_given hable'' hidle'' hk (hsame ▸ hsender) hless (hsame' ▸ hgone)
        (hsame' ▸ hread) hwire' (by omega) (by omega)
    · have hall : k.window.sent = k.sender.handed.length := by
        have hle := hlanes.sent_le
        omega
      obtain ⟨hwrite, hunsent⟩ : l.sender.tx.writeHandler ≠ none ∧ l.sender.unsent ≠ [] := by
        refine hmore.resolve_left ?_
        rw [← hsame, ← hsent]
        exact hless
      exact served_of_unsent hable'' hidle'' hk (hsame ▸ hsender) hall (hsame ▸ hwrite)
        (hsame ▸ hunsent) (hsame' ▸ hgone) (hsame' ▸ hread) hwire' (by omega) (by omega)
  obtain ⟨v, hv, hserved⟩ := hserve
  refine ⟨v, (ht.trans hu).trans hv, ?_⟩
  unfold Served at hserved ⊢
  rw [← hsame']
  exact hserved

/-- Two streams share the window of their connection, which the body on the one has used up; nobody
reads it. A body on the other is waited for. -/
def unreadBeside : List Action :=
  [.streamOpen, .streamOpen, .sender 1 (.asyncWrite ⟨0, none⟩ [7, 8, 9] false), .produce 1 3,
    .sender 1 .ret, .deliver, .sender 0 (.asyncWrite ⟨1, none⟩ [1, 2] false),
    .receiver 0 (.asyncReadSome ⟨2, none⟩ 10)]

theorem transfer_proceeds_unreadBeside : ∃ (s t : Transfer 3 3) (l : Lane 3),
    run step (init true .v1 (.v2 .zeroCopy) 1000 1000) unreadBeside = some s ∧
      s.window.room = 0 ∧ s.lanes[0]? = some l ∧ Leads step Action.own s t ∧ Served t 0 l := by
  have hread : ((run step (init true .v1 (.v2 .zeroCopy) 1000 1000 : Transfer 3 3)
      unreadBeside).bind fun s => s.lanes[0]?.map fun l =>
        (s.lanes.all (fun l => l.receiver.frames.isEmpty) && l.sender.open_ && l.receiver.open_ &&
          s.window.room == 0 && l.sender.tx.writeHandler.isSome && !l.sender.unsent.isEmpty,
          l.receiver.rx.readHandler)) = some (true, some ⟨2, none⟩) := by decide
  obtain ⟨s, hs, hread⟩ := Option.bind_eq_some_iff.mp hread
  obtain ⟨l, hl, hread⟩ := Option.map_eq_some_iff.mp hread
  obtain ⟨hstate, hread⟩ := Prod.mk.inj hread
  simp only [Bool.and_eq_true, List.all_eq_true, List.isEmpty_iff, beq_iff_eq,
    Bool.not_eq_true', List.isEmpty_eq_false_iff] at hstate
  obtain ⟨⟨⟨⟨⟨hidle, hsender⟩, hreceiver⟩, hroom⟩, hwrite⟩, hunsent⟩ := hstate
  have hmore : More l := .inr ⟨by rw [← Option.isSome_iff_ne_none]; exact hwrite, hunsent⟩
  obtain ⟨t, ht, hserved⟩ := transfer_proceeds hs (by simp [unreadBeside]) (by decide)
    (by decide)
    (fun i k hk => hidle k (List.mem_of_getElem? hk)) hl hsender hreceiver hread hmore
  exact ⟨s, t, l, hs, hroom, hl, ht, hserved⟩

end Transfer

end AnyHttp.H2
