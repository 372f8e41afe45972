import AnyHttp.Lib.Update
import AnyHttp.H2.Equiv.Flow

/-!
# Bodies arrive as they were sent

What a reader at one end of an HTTP/2 connection gets is what the writer at the other end has
written, in order and with its end after it (`transfer_in_order`), and no stream ever keeps more
than its window for a reader that does not ask (`transfer_bounded`).
-/

namespace AnyHttp.H2

open Lib

variable {maxStreamData maxData : Nat}

/-! ### What is on its way -/

/-- The bytes of some frames. -/
def inFlight (ps : List Payload) : List UInt8 := ps.flatMap Payload.data

theorem inFlight_append (ps qs : List Payload) :
    inFlight (ps ++ qs) = inFlight ps ++ inFlight qs := List.flatMap_append

/-- Frames as nghttp2 sends them: some with data, and maybe the end behind them. -/
structure Proper (ps : List Payload) (last : Bool) : Prop where
  shape : ∃ datas : List (List UInt8), (∀ data ∈ datas, data ≠ []) ∧
    ps = datas.map Payload.bytes ++ if last then [.endStream] else []

theorem Proper.nil : Proper [] false := ⟨[], by simp, rfl⟩

theorem Proper.bytes {ps : List Payload} (h : Proper ps false) {data : List UInt8}
    (hdata : data ≠ []) : Proper (ps ++ [.bytes data]) false := by
  obtain ⟨datas, hne, hps⟩ := h.shape
  refine ⟨datas ++ [data], ?_, ?_⟩
  · rintro d hd
    rcases List.mem_append.mp hd with hd | hd
    · exact hne d hd
    · rw [List.mem_singleton.mp hd]
      exact hdata
  · rw [hps]
    simp

theorem Proper.endStream {ps : List Payload} (h : Proper ps false) :
    Proper (ps ++ [.endStream]) true := by
  obtain ⟨datas, hne, hps⟩ := h.shape
  refine ⟨datas, hne, ?_⟩
  rw [hps]
  simp

/-- The first of them arrives. -/
theorem Proper.tail {p : Payload} {ps : List Payload} {last : Bool} (h : Proper (p :: ps) last) :
    (∃ data, p = .bytes data ∧ data ≠ [] ∧ Proper ps last) ∨
      p = .endStream ∧ ps = [] ∧ last = true := by
  obtain ⟨datas, hne, hps⟩ := h.shape
  cases datas with
  | nil =>
    cases last with
    | false => exact absurd hps (by simp)
    | true =>
      obtain ⟨rfl, rfl⟩ := List.cons.inj hps
      exact .inr ⟨rfl, rfl, rfl⟩
  | cons data datas =>
    obtain ⟨rfl, rfl⟩ := List.cons.inj hps
    obtain ⟨hdata, hrest⟩ := List.forall_mem_cons.mp hne
    exact .inl ⟨data, rfl, hdata, datas, hrest, rfl⟩

/-! ### One stream -/

namespace Lane

variable {l : Lane maxStreamData} {ps : List Payload} {m : Stream}

/-- A stream, and its frames that are on their way. -/
structure Carries (l : Lane maxStreamData) (ps : List Payload) : Prop where
  sending : l.sender.IsSending
  rest : l.receiver.AtRest
  lives : l.receiver.Lives
  framed : if l.sender.backend = .v1 then l.window.sent = l.sender.handed.length
    else l.window.sent = l.sender.framed
  sent_le : l.window.sent ≤ l.sender.handed.length
  ended : l.ended = true →
    l.sender.tx.eofSubmitted = true ∧ l.window.sent = l.sender.handed.length
  proper : ∃ last, Proper ps last ∧ (last = true → l.ended = true)
  received : l.receiver.received <+: l.sender.handed.take l.window.sent
  arriving : l.receiver.gone = false →
    l.receiver.received ++ inFlight ps = l.sender.handed.take l.window.sent
  eof : l.receiver.rx.eofReceived = true →
    l.ended = true ∧ l.receiver.received = l.sender.handed ∧ ps = []
  balance : ∃ lost, l.window.Balance (inFlight ps).length
    (l.receiver.received.length - l.receiver.credited) l.receiver.credited lost

theorem Carries.fresh {sender receiver : Stream} (hsender : sender.Fresh)
    (hreceiver : receiver.Fresh) (hhanded : sender.handed = []) (hframed : sender.framed = 0)
    (hreceived : receiver.received = []) (heof : receiver.rx.eofReceived = false)
    (hcredited : receiver.credited = 0) :
    Carries ({ sender := sender, receiver := receiver } : Lane maxStreamData) [] where
  sending := Stream.isSending_fresh hsender
  rest := Stream.atRest_fresh hreceiver
  lives := Stream.lives_fresh hreceiver
  framed := by
    show if sender.backend = .v1 then 0 = sender.handed.length else 0 = sender.framed
    rw [hhanded, hframed]
    split <;> rfl
  sent_le := Nat.zero_le _
  ended := fun h => absurd h (by simp)
  proper := ⟨false, .nil, by simp⟩
  received := by
    rw [hreceived]
    exact List.nil_prefix
  arriving := by
    intro _
    show receiver.received ++ [] = sender.handed.take 0
    rw [hreceived, hhanded]
    rfl
  eof := fun h => absurd (heof.symm.trans h) (by decide)
  balance := by
    refine ⟨0, ?_⟩
    rw [show ({ sender := sender, receiver := receiver } : Lane maxStreamData).receiver = receiver
      from rfl, hreceived, hcredited]
    exact .init

/-- The sender does something, and nghttp2 may be given more of the body. -/
theorem Carries.sender (h : Carries l ps) {a : Action} (hs : l.sender.step a = some m)
    {x : List UInt8} (hhanded : m.handed = l.sender.handed ++ x)
    (hframed : m.framed = l.sender.framed) (hbackend : m.backend = l.sender.backend)
    (hx : l.sender.backend = .v1 → x = []) : Carries { l with sender := m } ps := by
  have htake : m.handed.take l.window.sent = l.sender.handed.take l.window.sent := by
    rw [hhanded, List.take_append_of_le_length h.sent_le]
  have hsealed : l.ended = true → m.tx.eofSubmitted = true ∧ m.handed = l.sender.handed :=
    fun hended => Stream.Sealed.step ⟨(h.ended hended).1, rfl⟩ h.sending hs
  refine ⟨h.sending.step hs, h.rest, h.lives, ?_, ?_, ?_, h.proper, ?_, ?_, ?_, h.balance⟩
  · have hposition := h.framed
    show if m.backend = .v1 then l.window.sent = m.handed.length else l.window.sent = m.framed
    rw [hbackend, hframed]
    split at hposition
    · rename_i hv1
      rw [if_pos hv1, hhanded, hx hv1, List.append_nil]
      exact hposition
    · rename_i hv2
      rw [if_neg hv2]
      exact hposition
  · have hle := h.sent_le
    show l.window.sent ≤ m.handed.length
    rw [hhanded, List.length_append]
    omega
  · intro hended
    obtain ⟨hsubmitted, hsame⟩ := hsealed hended
    show m.tx.eofSubmitted = true ∧ l.window.sent = m.handed.length
    rw [hsame]
    exact ⟨hsubmitted, (h.ended hended).2⟩
  · show l.receiver.received <+: m.handed.take l.window.sent
    rw [htake]
    exact h.received
  · show l.receiver.gone = false → l.receiver.received ++ inFlight ps = m.handed.take l.window.sent
    rw [htake]
    exact h.arriving
  · intro heof
    obtain ⟨hended, hreceived, hps⟩ := h.eof heof
    exact ⟨hended, hreceived.trans (hsealed hended).2.symm, hps⟩

/-- nghttp2 sends the next bytes. -/
theorem Carries.send (h : Carries l ps) {a : Action} (hs : l.sender.step a = some m)
    {data : List UInt8} (hended : l.ended = false)
    (hsame : m.handed.take l.window.sent = l.sender.handed.take l.window.sent)
    (hdata : m.handed.take (l.window.sent + data.length) = m.handed.take l.window.sent ++ data)
    (hle : l.window.sent + data.length ≤ m.handed.length)
    (hframed : if m.backend = .v1 then l.window.sent + data.length = m.handed.length
      else l.window.sent + data.length = m.framed)
    (hroom : data.length ≤ l.window.room) :
    Carries { l with sender := m, window := l.window.spend data.length hroom }
      (if data = [] then ps else ps ++ [.bytes data]) := by
  obtain ⟨last, hproper, hlast⟩ := h.proper
  have hnot : last = false := Bool.eq_false_iff.mpr fun h => absurd (hlast h) (by simp [hended])
  obtain ⟨lost, hbalance⟩ := h.balance
  have hflight : inFlight (if data = [] then ps else ps ++ [.bytes data]) =
      inFlight ps ++ data := by
    split
    · rename_i hnil
      rw [hnil, List.append_nil]
    · rw [inFlight_append]
      simp [inFlight, Payload.data]
  have heof : l.receiver.rx.eofReceived = false :=
    Bool.eq_false_iff.mpr fun heof => absurd (h.eof heof).1 (by simp [hended])
  refine ⟨h.sending.step hs, h.rest, h.lives, hframed, hle, ?_, ?_, ?_, ?_, ?_, lost, ?_⟩
  · exact fun h => absurd (hended.symm.trans h) (by decide)
  · refine ⟨false, ?_, by simp⟩
    rw [hnot] at hproper
    split
    · exact hproper
    · exact hproper.bytes ‹_›
  · show l.receiver.received <+: m.handed.take (l.window.sent + data.length)
    rw [hdata, hsame]
    exact h.received.trans (List.prefix_append _ _)
  · intro hgone
    show l.receiver.received ++ inFlight _ = m.handed.take (l.window.sent + data.length)
    rw [hdata, hsame, hflight, ← List.append_assoc, h.arriving hgone]
  · exact fun h => absurd (heof.symm.trans h) (by decide)
  · rw [hflight, List.length_append]
    exact hbalance.spend hroom

/-- Version 1 sends what `producer_callback()` has come up with. -/
theorem Carries.produce (h : Carries l ps) {length : Nat}
    (hs : l.sender.step (.producer length) = some m)
    (hroom : (m.handed.drop l.window.sent).length ≤ l.window.room) :
    Carries { l with sender := m, window := l.window.spend _ hroom }
      (if m.handed.drop l.window.sent = [] then ps
        else ps ++ [.bytes (m.handed.drop l.window.sent)]) := by
  obtain ⟨x, hgiven⟩ := Stream.given_producer hs
  have hhanded : m.handed = l.sender.handed ++ x := hgiven.handed
  have hbackend : m.backend = l.sender.backend := hgiven.backend
  obtain ⟨hguard, _⟩ := Option.ite_none_right_eq_some.mp hs
  simp only [Bool.and_eq_true, beq_iff_eq, Bool.not_eq_true'] at hguard
  obtain ⟨⟨⟨⟨_, hv1⟩, _⟩, hsubmitted⟩, _⟩ := hguard
  have hsent := h.framed
  rw [if_pos hv1] at hsent
  have hdrop : m.handed.drop l.window.sent = x := by
    rw [hhanded, hsent, List.drop_left]
  refine h.send hs ?_ ?_ ?_ ?_ ?_ hroom
  · refine Bool.eq_false_iff.mpr fun hended => ?_
    exact absurd (hsubmitted.symm.trans (h.ended hended).1) (by decide)
  · rw [hhanded, List.take_append_of_le_length h.sent_le]
  · rw [hdrop, hhanded, hsent, List.take_left, ← List.length_append, List.take_length]
  · rw [hdrop, hhanded, hsent, List.length_append]
  · rw [if_pos (hbackend.trans hv1), hdrop, hhanded, hsent, List.length_append]

/-- Version 2 sends some of what it has got from `data_reader()`. -/
theorem Carries.transmit (h : Carries l ps) {len : Nat}
    (hs : l.sender.step (.writeOffset len) = some m)
    (hroom : ((m.handed.drop l.window.sent).take len).length ≤ l.window.room) :
    Carries { l with sender := m, window := l.window.spend _ hroom }
      (if (m.handed.drop l.window.sent).take len = [] then ps
        else ps ++ [.bytes ((m.handed.drop l.window.sent).take len)]) := by
  obtain ⟨hstill, hv2, hpos, hle⟩ := Stream.still_writeOffset hs
  have hhanded : m.handed = l.sender.handed := hstill.handed
  have hbackend : m.backend = l.sender.backend := hstill.backend
  have hframed : m.framed = l.sender.framed + len := hstill.framed
  have hsent := h.framed
  rw [if_neg hv2] at hsent
  have hlength : ((m.handed.drop l.window.sent).take len).length = len := by
    rw [List.length_take, List.length_drop, hhanded]
    omega
  refine h.send hs ?_ ?_ ?_ ?_ ?_ hroom
  · -- after the end, everything has been framed
    refine Bool.eq_false_iff.mpr fun hended => ?_
    have hall := (h.ended hended).2
    omega
  · rw [hhanded]
  · rw [hlength, List.take_add]
  · rw [hlength, hhanded]
    omega
  · rw [if_neg (by rw [hbackend]; exact hv2), hlength, hframed]
    omega

/-- nghttp2 sends the end of the body. -/
theorem Carries.endStream (h : Carries l ps) (hended : l.ended = false)
    (hsubmitted : l.sender.ended = some l.window.sent) :
    Carries { l with ended := true } (ps ++ [.endStream]) := by
  obtain ⟨last, hproper, hlast⟩ := h.proper
  have hnot : last = false := Bool.eq_false_iff.mpr fun h => absurd (hlast h) (by simp [hended])
  have heof : l.receiver.rx.eofReceived = false :=
    Bool.eq_false_iff.mpr fun heof => absurd (h.eof heof).1 (by simp [hended])
  have hflight : inFlight (ps ++ [.endStream]) = inFlight ps := by
    rw [inFlight_append]
    simp [inFlight, Payload.data]
  refine ⟨h.sending, h.rest, h.lives, h.framed, h.sent_le, ?_, ⟨true, ?_, fun _ => rfl⟩, h.received,
    ?_, ?_, ?_⟩
  · intro _
    obtain ⟨_, ws, cur, hsending⟩ := h.sending
    cases hsub : l.sender.tx.eofSubmitted with
    | false =>
      have hnone := (hsending.unsubmitted hsub).1
      exact absurd (hnone.symm.trans hsubmitted) (by simp)
    | true =>
      have hhanded := (hsending.submitted hsub).2.1
      exact ⟨rfl, Option.some.inj (hsubmitted.symm.trans hhanded)⟩
  · rw [hnot] at hproper
    exact hproper.endStream
  · rw [hflight]
    exact h.arriving
  · exact fun h => absurd (heof.symm.trans h) (by decide)
  · rw [hflight]
    exact h.balance

/-- A stream that lives is gone only once it is closed or destroyed. -/
theorem gone_eq_false (hm : m.Lives) :
    m.gone = false ↔ m.closed = false ∧ m.destroyed = false := by
  unfold Stream.gone
  constructor
  · intro h
    simp only [Bool.or_eq_false_iff] at h
    exact h.1
  · rintro ⟨hclosed, hdestroyed⟩
    rw [hclosed, hdestroyed, (hm hclosed hdestroyed).registered]
    rfl

theorem gone_of_step {t : Stream} {a : Action} (hm : m.Lives) (hs : m.step a = some t)
    (h : t.gone = false) : m.gone = false := by
  obtain ⟨hclosed, hdestroyed⟩ := (gone_eq_false (hm.step hs)).mp h
  obtain ⟨hopen, hthere⟩ := Stream.step_open hs
  exact (gone_eq_false hm).mpr ⟨hopen hclosed, hthere hdestroyed⟩

/-- Credit is for what has been received. -/
theorem credited_le_received (hm : m.AtRest) : m.credited ≤ m.received.length := by
  have hcontent := congrArg List.length hm.1.content
  have hcredit := hm.1.credit
  rw [List.length_append] at hcontent
  omega

/-- The receiver does something, and nothing arrives. -/
theorem Carries.receiver (h : Carries l ps) {a : Action} (ha : a.arrives = false)
    (hs : l.receiver.step a = some m) : Carries { l with receiver := m } ps := by
  obtain ⟨hreceived, heof⟩ := Stream.step_received ha hs
  obtain ⟨lost, hbalance⟩ := h.balance
  refine ⟨h.sending, h.rest.step hs, h.lives.step hs, h.framed, h.sent_le, h.ended, h.proper, ?_,
    ?_, ?_, lost, ?_⟩
  · show m.received <+: _
    rw [hreceived]
    exact h.received
  · intro hgone
    show m.received ++ _ = _
    rw [hreceived]
    exact h.arriving (gone_of_step h.lives hs hgone)
  · show m.rx.eofReceived = true → l.ended = true ∧ m.received = _ ∧ ps = []
    rw [heof, hreceived]
    exact h.eof
  · have hle := credited_le_received h.rest
    have hle' := credited_le_received (h.rest.step hs)
    have hmore := Stream.credited_le hs
    rw [hreceived] at hle'
    show l.window.Balance _ (m.received.length - m.credited) m.credited lost
    rw [hreceived]
    exact hbalance.move hmore (by omega)

/-- A frame arrives at a stream that is gone. -/
theorem Carries.drop {p : Payload} (h : Carries l (p :: ps)) (hgone : l.receiver.gone = true) :
    Carries l ps := by
  obtain ⟨last, hproper, hlast⟩ := h.proper
  obtain ⟨lost, hbalance⟩ := h.balance
  refine ⟨h.sending, h.rest, h.lives, h.framed, h.sent_le, h.ended, ?_, h.received, ?_, ?_,
    lost + p.data.length, ?_⟩
  · rcases hproper.tail with ⟨_, _, _, hrest⟩ | ⟨_, rfl, _⟩
    · exact ⟨last, hrest, hlast⟩
    · exact ⟨false, .nil, by simp⟩
  · exact fun h => absurd (hgone.symm.trans h) (by decide)
  · exact fun heof => absurd (h.eof heof).2.2 (by simp)
  · refine hbalance.move (Nat.le_refl _) ?_
    rw [show inFlight (p :: ps) = p.data ++ inFlight ps from rfl, List.length_append]
    omega

/-- The receiver takes the next bytes of its stream, and what is still on the way is the rest. -/
theorem Carries.data {data : List UInt8} (h : Carries l (.bytes data :: ps))
    (hgone : l.receiver.gone = false) (hs : l.receiver.step (.onData data) = some m) :
    Carries { l with receiver := m } ps := by
  obtain ⟨last, hproper, hlast⟩ := h.proper
  obtain ⟨lost, hbalance⟩ := h.balance
  have hstill := Stream.still_onData hs
  have hreceived : m.received = l.receiver.received ++ data := hstill.received
  have heof : m.rx.eofReceived = l.receiver.rx.eofReceived := hstill.eofReceived
  have harriving : l.receiver.received ++ (data ++ inFlight ps) =
      l.sender.handed.take l.window.sent := h.arriving hgone
  rw [← List.append_assoc] at harriving
  refine ⟨h.sending, h.rest.step hs, h.lives.step hs, h.framed, h.sent_le, h.ended, ?_, ?_, ?_, ?_,
    lost, ?_⟩
  · -- bytes are not the end of the body
    rcases hproper.tail with ⟨_, _, _, hrest⟩ | ⟨hend, _, _⟩
    · exact ⟨last, hrest, hlast⟩
    · exact absurd hend (by simp)
  · show m.received <+: _
    rw [hreceived, ← harriving]
    exact List.prefix_append _ _
  · intro _
    show m.received ++ _ = _
    rw [hreceived]
    exact harriving
  · intro hended
    exact absurd (h.eof (heof ▸ hended)).2.2 (by simp)
  · have hle := credited_le_received h.rest
    have hle' := credited_le_received (h.rest.step hs)
    have hmore := Stream.credited_le hs
    rw [hreceived, List.length_append] at hle'
    show l.window.Balance _ (m.received.length - m.credited) m.credited lost
    rw [hreceived, List.length_append]
    refine hbalance.move hmore ?_
    rw [show inFlight (.bytes data :: ps) = data ++ inFlight ps from rfl, List.length_append]
    omega

/-- The end arrives. -/
theorem Carries.eofArrives (h : Carries l (.endStream :: ps)) (hgone : l.receiver.gone = false)
    (hs : l.receiver.step .onEof = some m) : Carries { l with receiver := m } ps := by
  obtain ⟨last, hproper, hlast⟩ := h.proper
  obtain ⟨lost, hbalance⟩ := h.balance
  have hreceived : m.received = l.receiver.received := (Stream.still_onEof hs).received
  -- END_STREAM is the last frame
  obtain ⟨rfl, hend⟩ : ps = [] ∧ last = true := by
    rcases hproper.tail with ⟨_, hdata, _, _⟩ | ⟨_, hnil, hend⟩
    · exact absurd hdata (by simp)
    · exact ⟨hnil, hend⟩
  have harriving : l.receiver.received = l.sender.handed.take l.window.sent := by
    rw [← h.arriving hgone]
    exact (List.append_nil _).symm
  refine ⟨h.sending, h.rest.step hs, h.lives.step hs, h.framed, h.sent_le, h.ended,
    ⟨false, .nil, by simp⟩, ?_, ?_, ?_, lost, ?_⟩
  · show m.received <+: _
    rw [hreceived]
    exact h.received
  · intro _
    show m.received ++ [] = _
    rw [hreceived, List.append_nil]
    exact harriving
  · intro _
    have hended := hlast hend
    refine ⟨hended, ?_, rfl⟩
    show m.received = _
    rw [hreceived, harriving, (h.ended hended).2, List.take_length]
  · have hle := credited_le_received h.rest
    have hle' := credited_le_received (h.rest.step hs)
    have hmore := Stream.credited_le hs
    rw [hreceived] at hle'
    show l.window.Balance _ (m.received.length - m.credited) m.credited lost
    rw [hreceived]
    refine hbalance.move hmore ?_
    rw [show inFlight [.endStream] = [] from rfl, show inFlight [] = [] from rfl]
    omega

/-- Credit arrives. -/
theorem Carries.grant (h : Carries l ps) {n : Nat}
    (hn : l.window.granted + n ≤ l.receiver.extended) :
    Carries { l with window := l.window.grant n } ps := by
  obtain ⟨lost, hbalance⟩ := h.balance
  rw [Stream.extended_eq] at hn
  exact ⟨h.sending, h.rest, h.lives, h.framed, h.sent_le, h.ended, h.proper, h.received, h.arriving,
    h.eof, lost, hbalance.grant hn⟩

end Lane

/-! ### All of them -/

namespace Transfer

variable {s t : Transfer maxStreamData maxData} {i : Nat} {l l' : Lane maxStreamData}

/-- The frames that are for one stream. -/
def framesOf (wire : List (Nat × Payload)) (i : Nat) : List Payload :=
  wire.filterMap fun frame => if frame.1 = i then some frame.2 else none

theorem framesOf_cons (frame : Nat × Payload) (wire : List (Nat × Payload)) (i : Nat) :
    framesOf (frame :: wire) i =
      if frame.1 = i then frame.2 :: framesOf wire i else framesOf wire i := by
  unfold framesOf
  by_cases hi : frame.1 = i
  · simp [hi]
  · simp [hi]

theorem framesOf_concat (wire : List (Nat × Payload)) (j i : Nat) (p : Payload) :
    framesOf (wire ++ [(j, p)]) i =
      if j = i then framesOf wire i ++ [p] else framesOf wire i := by
  unfold framesOf
  rw [List.filterMap_append]
  by_cases hj : j = i
  · simp [hj]
  · simp [hj]

/-- How many bytes are on their way. -/
def flight (wire : List (Nat × Payload)) : Nat := (inFlight (wire.map Prod.snd)).length

theorem flight_cons (frame : Nat × Payload) (wire : List (Nat × Payload)) :
    flight (frame :: wire) = frame.2.data.length + flight wire := by
  unfold flight
  rw [List.map_cons, show inFlight (frame.2 :: wire.map Prod.snd) =
    frame.2.data ++ inFlight (wire.map Prod.snd) from rfl, List.length_append]

theorem flight_concat (wire : List (Nat × Payload)) (i : Nat) (p : Payload) :
    flight (wire ++ [(i, p)]) = flight wire + p.data.length := by
  unfold flight
  rw [List.map_append, inFlight_append, List.length_append]
  simp [inFlight]

/-- The invariant. -/
structure Sound (s : Transfer maxStreamData maxData) : Prop where
  lanes : ∀ (i : Nat) (l : Lane maxStreamData), s.lanes[i]? = some l →
    l.Carries (framesOf s.wire i)
  known : ∀ frame ∈ s.wire, frame.1 < s.lanes.length
  balance : s.window.Balance (flight s.wire) 0 s.extended 0

/-- Something happens to one stream, and its frames. -/
theorem Sound.update (h : Sound s) (hl : s.lanes[i]? = some l) {wire : List (Nat × Payload)}
    {window : Window maxData} {extended : Nat}
    (hcarries : l'.Carries (framesOf wire i))
    (hothers : ∀ j, j ≠ i → framesOf wire j = framesOf s.wire j)
    (hknown : ∀ frame ∈ wire, frame ∈ s.wire ∨ frame.1 = i)
    (hbalance : window.Balance (flight wire) 0 extended 0) :
    Sound { s.setLane i l' with wire := wire, window := window, extended := extended } := by
  obtain ⟨hi, _⟩ := List.getElem?_eq_some_iff.mp hl
  refine ⟨?_, ?_, hbalance⟩
  · intro j k hk
    rcases (getElem?_set_eq_some hl).mp hk with ⟨rfl, rfl⟩ | ⟨hj, hk⟩
    · exact hcarries
    · rw [hothers j hj]
      exact h.lanes j k hk
  · intro frame hframe
    show frame.1 < (s.lanes.set i l').length
    rw [List.length_set]
    rcases hknown frame hframe with hold | hnew
    · exact h.known frame hold
    · rw [hnew]
      exact hi

theorem Sound.setLane (h : Sound s) (hl : s.lanes[i]? = some l)
    (hcarries : l'.Carries (framesOf s.wire i)) : Sound (s.setLane i l') :=
  h.update hl hcarries (fun _ _ => rfl) (fun _ hframe => .inl hframe) h.balance

/-- A frame is sent. -/
theorem Sound.sent (h : Sound s) (hl : s.lanes[i]? = some l) {p : Payload}
    {window : Window maxData} (hcarries : l'.Carries (framesOf s.wire i ++ [p]))
    (hbalance : window.Balance (flight s.wire + p.data.length) 0 s.extended 0) :
    Sound { s.setLane i l' with wire := s.wire ++ [(i, p)], window := window } := by
  refine h.update hl ?_ ?_ ?_ ?_
  · rw [framesOf_concat, if_pos rfl]
    exact hcarries
  · intro j hj
    rw [framesOf_concat, if_neg (Ne.symm hj)]
  · intro frame hframe
    rcases List.mem_append.mp hframe with hold | hnew
    · exact .inl hold
    · rw [List.mem_singleton.mp hnew]
      exact .inr rfl
  · rw [flight_concat]
    exact hbalance

theorem Sound.init {requests : Bool} {client server : Backend}
    {clientMaxHeaderSize serverMaxHeaderSize : Nat} :
    Sound (init requests client server clientMaxHeaderSize serverMaxHeaderSize :
      Transfer maxStreamData maxData) :=
  ⟨fun i l hl => absurd hl (by simp [Transfer.init]), by simp [Transfer.init], .init⟩

/-- A stream is opened. -/
theorem Sound.streamOpen (h : Sound s) : Sound { s with lanes := s.lanes ++ [s.newLane] } := by
  have hnew : s.newLane.Carries [] := by
    unfold newLane
    dsimp only
    split
    · exact .fresh ⟨_, _, .inl rfl⟩ ⟨_, _, .inr rfl⟩ rfl rfl rfl rfl rfl
    · exact .fresh ⟨_, _, .inr rfl⟩ ⟨_, _, .inl rfl⟩ rfl rfl rfl rfl rfl
  refine ⟨?_, ?_, h.balance⟩
  · intro j k hk
    -- a stream that was there, or the new one
    rcases getElem?_concat_eq_some hk with hold | ⟨rfl, rfl⟩
    · exact h.lanes j k hold
    · -- nothing has been sent on it
      have hnone : framesOf s.wire s.lanes.length = [] := by
        refine List.filterMap_eq_nil_iff.mpr ?_
        intro frame hframe
        have hlt := h.known frame hframe
        rw [if_neg (by omega)]
      rw [hnone]
      exact hnew
  · intro frame hframe
    have hlt := h.known frame hframe
    rw [List.length_append]
    omega

/-- The next frame arrives. -/
theorem Sound.deliver (h : Sound s) (hs : s.deliver = some t) : Sound t := by
  obtain ⟨requests, client, server, maxClient, maxServer, lanes, wire, window, extended⟩ := s
  cases wire with
  | nil => exact absurd hs (by simp [Transfer.deliver])
  | cons frame wire =>
    obtain ⟨i, payload⟩ := frame
    obtain ⟨l, hl, hs⟩ := Option.bind_eq_some_iff.mp hs
    have hcarries := h.lanes i l hl
    rw [framesOf_cons, if_pos rfl] at hcarries
    have hothers : ∀ j, j ≠ i → framesOf wire j = framesOf ((i, payload) :: wire) j := by
      intro j hj
      rw [framesOf_cons, if_neg (Ne.symm hj)]
    have hbalance : window.Balance (flight wire) 0 (extended + payload.data.length) 0 := by
      have hall : window.Balance (payload.data.length + flight wire) 0 extended 0 := by
        rw [← flight_cons (i, payload)]
        exact h.balance
      exact hall.move (by omega) (by omega)
    have hknown : ∀ frame ∈ wire, frame ∈ (i, payload) :: wire ∨ frame.1 = i :=
      fun frame hframe => .inl (List.mem_cons_of_mem _ hframe)
    split at hs
    · -- nobody is there any more, and the frame is lost
      rename_i hgone
      have hdone := h.update hl (hcarries.drop hgone) hothers hknown hbalance
      rw [← Option.some.inj hs]
      unfold Transfer.setLane at hdone
      rw [set_eq_self hl] at hdone
      exact hdone
    · rename_i hgone
      have hgone := Bool.eq_false_of_not_eq_true hgone
      obtain ⟨m, hm, rfl⟩ := Option.map_eq_some_iff.mp hs
      have harrives :
          ({ l with receiver := m } : Lane maxStreamData).Carries (framesOf wire i) := by
        cases payload with
        | bytes data => exact hcarries.data hgone hm
        | endStream => exact hcarries.eofArrives hgone hm
      exact h.update hl harrives hothers hknown hbalance

/-- Data is sent, if there is any. -/
theorem Sound.send (h : Sound s) (hl : s.lanes[i]? = some l) {data : List UInt8}
    (hcarries : ∀ hroom : data.length ≤ l'.window.room,
      ({ l' with window := l'.window.spend data.length hroom } : Lane maxStreamData).Carries
        (if data = [] then framesOf s.wire i else framesOf s.wire i ++ [.bytes data]))
    (hs : s.send i l' data = some t) : Sound t := by
  unfold Transfer.send at hs
  split at hs
  · rename_i hroom
    rw [← Option.some.inj hs]
    have hcarries := hcarries hroom.1
    have hbalance := h.balance.spend hroom.2
    by_cases hdata : data = []
    · -- there is no frame, and no room is used
      rw [if_pos hdata] at hcarries ⊢
      refine h.update hl hcarries (fun _ _ => rfl) (fun _ hframe => .inl hframe) ?_
      refine hbalance.move (Nat.le_refl _) ?_
      show flight s.wire + 0 + s.extended + 0 = flight s.wire + data.length + 0 + s.extended + 0
      rw [hdata]
      rfl
    · rw [if_neg hdata] at hcarries ⊢
      exact h.sent hl hcarries hbalance
  · exact absurd hs (by simp)

/-- **Step lemma**: every step of either end or of the connection preserves `Sound`. -/
theorem Sound.step {a : Action} (h : Sound s) (hs : step s a = some t) : Sound t := by
  cases a with
  | streamOpen =>
    rw [← Option.some.inj hs]
    exact h.streamOpen
  | sender i a =>
    obtain ⟨htakes, hs⟩ := Option.ite_none_left_eq_some.mp hs
    obtain ⟨l, hl, hs⟩ := Option.bind_eq_some_iff.mp hs
    obtain ⟨m, hm, rfl⟩ := Option.map_eq_some_iff.mp hs
    obtain ⟨hhanded, _, hframed, hbackend⟩ :=
      Stream.step_given (Bool.eq_false_of_not_eq_true htakes) hm
    refine h.setLane hl ((h.lanes i l hl).sender hm (x := []) ?_ hframed hbackend fun _ => rfl)
    rw [List.append_nil, hhanded]
  | receiver i a =>
    obtain ⟨harrives, hs⟩ := Option.ite_none_left_eq_some.mp hs
    obtain ⟨l, hl, hs⟩ := Option.bind_eq_some_iff.mp hs
    obtain ⟨m, hm, rfl⟩ := Option.map_eq_some_iff.mp hs
    exact h.setLane hl ((h.lanes i l hl).receiver (Bool.eq_false_of_not_eq_true harrives) hm)
  | produce i length =>
    obtain ⟨l, hl, hs⟩ := Option.bind_eq_some_iff.mp hs
    obtain ⟨m, hm, hs⟩ := Option.bind_eq_some_iff.mp hs
    have hcarries := h.lanes i l hl
    refine h.send hl ?_ hs
    exact hcarries.produce hm
  | ask i veccnt =>
    obtain ⟨l, hl, hs⟩ := Option.bind_eq_some_iff.mp hs
    obtain ⟨m, hm, rfl⟩ := Option.map_eq_some_iff.mp hs
    obtain ⟨x, hgiven⟩ := Stream.given_dataReader hm
    refine h.setLane hl ((h.lanes i l hl).sender hm hgiven.handed hgiven.framed hgiven.backend ?_)
    intro hv1
    rw [Stream.step, hv1] at hm
    exact absurd hm (by simp)
  | transmit i len =>
    obtain ⟨l, hl, hs⟩ := Option.bind_eq_some_iff.mp hs
    obtain ⟨m, hm, hs⟩ := Option.bind_eq_some_iff.mp hs
    refine h.send hl ?_ hs
    exact (h.lanes i l hl).transmit hm
  | endStream i =>
    obtain ⟨l, hl, hs⟩ := Option.bind_eq_some_iff.mp hs
    obtain ⟨⟨hended, hsubmitted⟩, hs⟩ := Option.ite_none_right_eq_some.mp hs
    rw [← Option.some.inj hs]
    exact h.sent hl ((h.lanes i l hl).endStream hended hsubmitted) h.balance
  | deliver => exact h.deliver hs
  | windowUpdate i n =>
    obtain ⟨l, hl, hs⟩ := Option.bind_eq_some_iff.mp hs
    obtain ⟨hn, hs⟩ := Option.ite_none_right_eq_some.mp hs
    rw [← Option.some.inj hs]
    exact h.setLane hl ((h.lanes i l hl).grant hn)
  | connectionUpdate n =>
    obtain ⟨hn, hs⟩ := Option.ite_none_right_eq_some.mp hs
    rw [← Option.some.inj hs]
    exact ⟨h.lanes, h.known, h.balance.grant hn⟩

/-- **Run lemma**: every state of a run is `Sound`. -/
theorem sound_of_run {requests : Bool} {client server : Backend}
    {clientMaxHeaderSize serverMaxHeaderSize : Nat} {as : List Action}
    (h : run step (Transfer.init requests client server clientMaxHeaderSize serverMaxHeaderSize :
      Transfer maxStreamData maxData) as = some s) : Sound s :=
  run_inv (fun _ _ _ h hs => h.step hs) .init h

/-! ### From end to end -/

/-- What the two ends of a stream make of a body. -/
structure InOrder (l : Lane maxStreamData) : Prop where
  /-- What has been delivered comes from the writes, in order, and from each as far as nghttp2 has
  taken it, ... -/
  delivered : l.receiver.delivered <+: l.sender.writes.flatMap Stream.takenOf
  /-- ... which is the whole of a write that has succeeded. -/
  success : ∀ w ∈ l.sender.writes, w.result = some .success → Stream.takenOf w = w.buffer
  /-- A reader that is told about the end has got all of it, and the last of the writes has been
  one that ends the body. -/
  ended : (∃ c ∈ l.receiver.trace, Stream.IsEof c) →
    l.receiver.delivered = l.sender.writes.flatMap Stream.takenOf ∧
      ∃ w ∈ l.sender.writes.getLast?, w.eof = true ∧ Stream.takenOf w = w.buffer

theorem Sound.inOrder (h : Sound s) (hl : s.lanes[i]? = some l) : InOrder l := by
  have hcarries := h.lanes i l hl
  have hsending := hcarries.sending.bodyHandedOver
  have hrest := hcarries.rest.bodyIntact
  have htaken : ∀ w : WriteRec, w.taken = w.buffer.length → Stream.takenOf w = w.buffer := by
    intro w hw
    rw [Stream.takenOf, hw, List.take_length]
  refine ⟨?_, fun w hw hresult => htaken w (hsending.success w hw hresult), ?_⟩
  · rw [← hsending.handed]
    have hdelivered : l.receiver.delivered <+: l.receiver.received := by
      rw [hrest.bytes]
      exact List.prefix_append _ _
    have hsent : l.receiver.received <+: l.sender.handed :=
      hcarries.received.trans (List.take_prefix _ _)
    exact hdelivered.trans hsent
  · intro htold
    obtain ⟨heof, hunread, _⟩ := hcarries.rest.1.told htold
    obtain ⟨hended, hreceived, _⟩ := hcarries.eof heof
    have hall : l.receiver.delivered = l.sender.handed := by
      rw [← hreceived, hrest.bytes, hunread, List.append_nil]
    -- END_STREAM is sent only once the end has been submitted
    obtain ⟨_, ws, cur, hs⟩ := hcarries.sending
    obtain ⟨_, hsubmitted, _⟩ := hs.submitted (hcarries.ended hended).1
    obtain ⟨_, w, hw, heof, _, hwhole⟩ := hsending.ended _ hsubmitted
    exact ⟨hall.trans hsending.handed, w, hw, heof, htaken w hwhole⟩

/-- **Bodies arrive as they were sent**: at every point of every run of the two ends and the
connection between them, each reader has got a part of what has been written at the other end of its
stream, from the beginning and without a gap, and it is told about the end only after everything. -/
theorem transfer_in_order {requests : Bool} {client server : Backend}
    {clientMaxHeaderSize serverMaxHeaderSize : Nat} {as : List Action}
    (hrun : run step (Transfer.init requests client server clientMaxHeaderSize serverMaxHeaderSize :
      Transfer maxStreamData maxData) as = some s) (hl : s.lanes[i]? = some l) : InOrder l :=
  (sound_of_run hrun).inOrder hl

/-- A body of four bytes goes from a client with version 1 to a server with version 2, through
windows of three and of five bytes. -/
def fourBytes : List Action :=
  [.streamOpen, .streamOpen, .sender 0 (.asyncWrite ⟨0, none⟩ [1, 2, 3, 4] true), .produce 0 3,
    .receiver 0 (.asyncReadSome ⟨1, none⟩ 10), .deliver, .receiver 0 .ret, .windowUpdate 0 3,
    .produce 0 1, .sender 0 .ret, .endStream 0, .deliver, .deliver,
    .receiver 0 (.asyncReadSome ⟨1, none⟩ 10), .receiver 0 .ret,
    .receiver 0 (.asyncReadSome ⟨1, none⟩ 10)]

theorem transfer_in_order_fourBytes : ∃ (t : Transfer 3 5) (l : Lane 3),
    run step (Transfer.init true .v1 (.v2 .zeroCopy) 1000 1000) fourBytes = some t ∧
      t.lanes[0]? = some l ∧ InOrder l ∧ l.receiver.delivered = [1, 2, 3, 4] := by
  have hread : ((run step (Transfer.init true .v1 (.v2 .zeroCopy) 1000 1000 : Transfer 3 5)
      fourBytes).bind fun t => t.lanes[0]?.map fun l => l.receiver.delivered) =
        some [1, 2, 3, 4] := by decide
  obtain ⟨t, ht, hread⟩ := Option.bind_eq_some_iff.mp hread
  obtain ⟨l, hl, hdelivered⟩ := Option.map_eq_some_iff.mp hread
  exact ⟨t, l, ht, hl, transfer_in_order ht hl, hdelivered⟩

/-! ### Back pressure -/

/-- What there is of a body between the two ends, and at the one that receives it. -/
def pending (s : Transfer maxStreamData maxData) (i : Nat) (l : Lane maxStreamData) : Nat :=
  (inFlight (framesOf s.wire i)).length + l.receiver.unread.length

/-- **Back pressure**: at every point of every run, what has been sent on a stream, and not been
read there, fits into the window of the stream, and what is on its way on all streams into that of
the connection. -/
theorem transfer_bounded {requests : Bool} {client server : Backend}
    {clientMaxHeaderSize serverMaxHeaderSize : Nat} {as : List Action}
    (hrun : run step (Transfer.init requests client server clientMaxHeaderSize serverMaxHeaderSize :
      Transfer maxStreamData maxData) as = some s) :
    (∀ (i : Nat) (l : Lane maxStreamData), s.lanes[i]? = some l → s.pending i l ≤ maxStreamData) ∧
      flight s.wire ≤ maxData := by
  have h := sound_of_run hrun
  constructor
  · intro i l hl
    have hcarries := h.lanes i l hl
    obtain ⟨lost, hbalance⟩ := hcarries.balance
    have hbounded := hbalance.bounded
    have hcontent := congrArg List.length hcarries.rest.1.content
    have hcredit := hcarries.rest.1.credit
    rw [List.length_append] at hcontent
    show (inFlight (framesOf s.wire i)).length + l.receiver.unread.length ≤ maxStreamData
    omega
  · exact h.balance.bounded

theorem transfer_bounded_fourBytes : ∃ t : Transfer 3 5,
    run step (Transfer.init true .v1 (.v2 .zeroCopy) 1000 1000) (fourBytes.take 6) = some t ∧
      (∀ (i : Nat) (l : Lane 3), t.lanes[i]? = some l → t.pending i l ≤ 3) ∧ flight t.wire ≤ 5 := by
  have hsome : (run step (Transfer.init true .v1 (.v2 .zeroCopy) 1000 1000 : Transfer 3 5)
      (fourBytes.take 6)).isSome = true := by decide
  obtain ⟨t, ht⟩ := Option.isSome_iff_exists.mp hsome
  exact ⟨t, ht, transfer_bounded ht⟩

end Transfer

end AnyHttp.H2
