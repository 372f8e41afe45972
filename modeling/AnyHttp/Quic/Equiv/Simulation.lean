import AnyHttp.Quic.Equiv.Frame
import AnyHttp.Quic.Equiv.Sender

/-!
# A stream sends as its sender does
-/

namespace AnyHttp.Quic

open Lib

/-! ### What the functions do, in terms of the positions -/

namespace QuicStream

open Sender

variable {q : QuicStream}

/-- The completion of a write is a call, for the handler that there is. -/
theorem completeWrite_eq (q : QuicStream) (h : Option Handler) (ec : ErrorCode) :
    q.completeWrite h ec = { q with calls := q.calls ++ completion h ec } := by
  cases h with
  | none => simp [QuicStream.completeWrite, completion]
  | some h => rfl

/-- So is the binding of its cancellation. -/
theorem bindWriteCancellation_eq (q : QuicStream) (h : Option Handler) (token : Nat) :
    q.bindWriteCancellation h token = { q with calls := q.calls ++ binding h token } := by
  cases h with
  | none => simp [QuicStream.bindWriteCancellation, binding]
  | some h => rfl

/-- `q'` is `q` with its positions moved to `t`; if that is all the active write was waiting for,
it is completed. -/
def Settles (q : QuicStream) (t : Outgoing) (q' : QuicStream) : Prop :=
  (∃ cs, q' = { q with tx := t, calls := q.calls ++ cs } ∧
    ∀ c ∈ cs, c.aboutWriting = false) ∨
  (t.writeActive = true ∧ t.Done q.writeMode ∧
    q' = { q with tx := t.release, calls := q.calls ++ completion t.writeHandler .success })

/-- The FIN completes the write it belongs to if there is nothing else to it. -/
theorem onOffered_cases (q : QuicStream) (stop : Nat) (fin : Bool) :
    q.onOffered stop fin = { q with tx := q.tx.offered stop fin } ∨
      (fin = true ∧ q.tx.writeActive = true ∧ q.tx.writeSource = [] ∧
        q.onOffered stop fin =
          { q with
            tx := (q.tx.offered stop fin).release
            calls := q.calls ++ completion q.tx.writeHandler .success }) := by
  unfold QuicStream.onOffered
  dsimp only
  split
  case isTrue h =>
    refine Or.inr ⟨h.1, h.2.1, h.2.2, ?_⟩
    rw [finishActiveWrite, completeWrite_eq]
    rfl
  case isFalse => exact Or.inl rfl

/-- Bytes that are offered move the position, and complete a bare end of the body with its FIN. -/
theorem onOffered_settles (q : QuicStream) (stop : Nat) (fin : Bool) :
    q.Settles (q.tx.offered stop fin) (q.onOffered stop fin) := by
  rcases q.onOffered_cases stop fin with heq | ⟨hfin, hactive, hbare, heq⟩
  · exact Or.inl ⟨[], by rw [heq, List.append_nil], by simp⟩
  · exact Or.inr ⟨hactive, Or.inl ⟨hbare, by simp [Outgoing.offered, hfin]⟩, heq⟩

/-- Bytes that are sent move the other position, and complete a staged write with the last
of them. -/
theorem onSent_settles (q : QuicStream) (stop : Nat) (hstop : q.tx.txSent < stop) :
    q.Settles (q.tx.sent stop) (q.onSent stop) := by
  unfold QuicStream.onSent
  rw [if_neg (Nat.not_le.mpr hstop)]
  dsimp only
  split
  · exact Or.inl ⟨[], by simp, by simp⟩
  case isFalse hwait =>
    split
    · exact Or.inl ⟨[], by simp, by simp⟩
    case isFalse hdata =>
      split
      case isTrue hcopied =>
        rw [not_or, not_or, not_not, Bool.not_eq_false, Nat.not_lt] at hwait
        refine Or.inr ⟨hwait.2.1, Or.inr ⟨hwait.1, hdata, hwait.2.2, hcopied⟩, ?_⟩
        rw [finishActiveWrite, completeWrite_eq]
      case isFalse => exact Or.inl ⟨[.onWritable], rfl, by simp [Call.aboutWriting]⟩

/-- The token that `start_write()` binds, if it gets to that. -/
def boundToken (q : QuicStream) (buffer : List UInt8) (eof : Bool) : Option Nat :=
  if buffer = [] ∧ eof = false ∨ q.sendingOver = true then
    none
  else if q.tx.eofSubmitted then
    if buffer = [] ∧ q.tx.writeActive = true ∧ q.tx.writeIsEof = true then some q.tx.writeToken
    else none
  else
    some q.tx.nextWriteToken

/-- The entry ladder: a write is answered at once, adopts a FIN that is still pending, or begins. -/
theorem startWrite_cases (q : QuicStream) (h : Option Handler) (buffer : List UInt8) (eof : Bool) :
    (q.boundToken buffer eof = none ∧
      ∃ ec, q.startWrite h buffer eof = { q with calls := q.calls ++ completion h ec }) ∨
    (q.boundToken buffer eof = some q.tx.writeToken ∧
      q.sendingOver = false ∧ q.tx.writeActive = true ∧ q.tx.writeIsEof = true ∧
      q.tx.eofSubmitted = true ∧ buffer = [] ∧ eof = true ∧
      q.startWrite h buffer eof =
        { q with
          tx := { q.tx with writeHandler := h }
          calls := q.calls ++ binding h q.tx.writeToken }) ∨
    (q.boundToken buffer eof = some q.tx.nextWriteToken ∧
      q.sendingOver = false ∧ q.tx.eofSubmitted = false ∧ (buffer ≠ [] ∨ eof = true) ∧
      q.startWrite h buffer eof =
        { q with
          tx := q.tx.begin q.writeMode h buffer eof
          calls := q.calls ++ (binding h q.tx.nextWriteToken ++ [.onWritable]) }) := by
  unfold QuicStream.startWrite
  simp only [completeWrite_eq, bindWriteCancellation_eq]
  split
  case isTrue hnothing => exact Or.inl ⟨if_pos (Or.inl hnothing), _, rfl⟩
  case isFalse hcarries =>
    split
    case isTrue hended =>
      split
      case isTrue hbuffer => exact Or.inl ⟨by simp [boundToken, hbuffer, hended], _, rfl⟩
      case isFalse hbuffer =>
        rw [not_not] at hbuffer
        have heof : eof = true := by
          by_contra hne
          exact hcarries ⟨hbuffer, Bool.not_eq_true _ ▸ hne⟩
        split
        case isTrue hadopt =>
          simp only [Bool.and_eq_true, Bool.not_eq_true'] at hadopt
          refine Or.inr (Or.inl ⟨?_, hadopt.2, hadopt.1.1, hadopt.1.2, hended, hbuffer, heof, rfl⟩)
          simp [boundToken, hadopt, hended, hbuffer, heof]
        case isFalse hnot =>
          refine Or.inl ⟨?_, _, rfl⟩
          simp only [boundToken, hended, hbuffer, heof]
          grind
    case isFalse heof =>
      split
      case isTrue hover => exact Or.inl ⟨if_pos (Or.inr hover), _, rfl⟩
      case isFalse hover =>
        refine Or.inr (Or.inr ⟨?_, Bool.not_eq_true _ ▸ hover, Bool.not_eq_true _ ▸ heof, ?_, ?_⟩)
        · rw [boundToken, if_neg (not_or.mpr ⟨hcarries, hover⟩), if_neg heof]
        · by_contra hnot
          rw [not_or, not_not, Bool.not_eq_true] at hnot
          exact hcarries hnot
        · simp only [QuicStream.call, List.append_assoc]

/-- Cancellation hits the write with this token only, and only while its handler is waiting. -/
theorem cancelWrite_cases (q : QuicStream) (token : Nat) :
    (q.tx.writeToken ≠ token ∨ q.tx.writeHandler = none) ∧ q.cancelWrite token = q ∨
    ∃ h, q.tx.writeHandler = some h ∧ q.tx.writeToken = token ∧
      (q.tx.writeIsEof = true ∧ q.tx.writeSource = [] ∧
        q.cancelWrite token =
          { q with
            tx := { q.tx with writeHandler := none }
            calls := q.calls ++ completion (some h) .canceled } ∨
      ¬(q.tx.writeIsEof = true ∧ q.tx.writeSource = []) ∧
        q.cancelWrite token =
          { q.letGo with
            tx := q.tx.cancel q.writeMode
            calls := q.letGo.calls ++ completion (some h) .canceled }) := by
  unfold QuicStream.cancelWrite
  simp only [completeWrite_eq]
  split
  case isTrue hmiss => exact Or.inl ⟨hmiss, rfl⟩
  case isFalse hcond =>
    rw [not_or, not_not] at hcond
    obtain ⟨htoken, hsome⟩ := hcond
    obtain ⟨h, hh⟩ := Option.ne_none_iff_exists'.mp hsome
    refine Or.inr ⟨h, hh, htoken, ?_⟩
    rw [hh]
    split
    case isTrue hbare => exact Or.inl ⟨hbare.1, hbare.2, rfl⟩
    case isFalse hdata => exact Or.inr ⟨hdata, rfl⟩

/-- What has been sent already is not sent again. -/
theorem onSent_of_le {stop : Nat} (hstop : stop ≤ q.tx.txSent) : q.onSent stop = q := by
  rw [QuicStream.onSent, if_pos hstop]

/-- Without an active write, there is only the position to be moved. -/
theorem onSent_of_idle (q : QuicStream) (stop : Nat) (hstop : q.tx.txSent < stop)
    (hidle : q.tx.writeActive = false) : q.onSent stop = { q with tx := q.tx.sent stop } := by
  rw [QuicStream.onSent, if_neg (Nat.not_le.mpr hstop)]
  exact if_pos (Or.inr (Or.inl hidle))

/-- A plain stream puts what it is asked for into a packet at once. -/
theorem onStreamDataWritten_settles (q : QuicStream) (n : Nat) (fin : Bool)
    (hsent : q.tx.txSent = q.tx.txOffered) :
    q.Settles ((q.tx.offered (q.tx.txOffered + n) fin).sent (q.tx.txOffered + n))
      (q.onStreamDataWritten n fin) := by
  have hstop : q.tx.txSent + n = q.tx.txOffered + n := by rw [hsent]
  have hnone : n = 0 → (q.tx.offered (q.tx.txOffered + n) fin).sent (q.tx.txOffered + n) =
      q.tx.offered (q.tx.txOffered + n) fin := by
    -- nothing but the FIN: `on_sent()` has nothing to do
    intro hzero
    simp only [Outgoing.sent, Outgoing.offered, Outgoing.mk.injEq, true_and, and_true]
    omega
  unfold QuicStream.onStreamDataWritten
  rw [hstop]
  -- a bare end of the body is finished by handing it over
  rcases q.onOffered_cases (q.tx.txOffered + n) fin with heq | ⟨hfin, hactive, hbare, heq⟩
  · rw [heq]
    by_cases hzero : n = 0
    · refine Or.inl ⟨[], ?_, by simp⟩
      rw [hnone hzero, List.append_nil]
      exact onSent_of_le (by simp [hzero])
    · have := ({ q with tx := q.tx.offered (q.tx.txOffered + n) fin } : QuicStream).onSent_settles
        (q.tx.txOffered + n) (by simp only [Outgoing.offered]; omega)
      simp only [Outgoing.offered, hstop]
      exact this
  · rw [heq]
    have hdone : ((q.tx.offered (q.tx.txOffered + n) fin).sent (q.tx.txOffered + n)).Done
        q.writeMode := Or.inl ⟨hbare, by simp [Outgoing.sent, Outgoing.offered, hfin]⟩
    refine Or.inr ⟨hactive, hdone, ?_⟩
    by_cases hzero : n = 0
    · rw [hnone hzero]
      exact onSent_of_le (by simp [hzero])
    · have := onSent_of_idle
        { q with
          tx := (q.tx.offered (q.tx.txOffered + n) fin).release
          calls := q.calls ++ completion q.tx.writeHandler .success }
        (q.tx.txOffered + n)
        (by simp only [Outgoing.offered, Outgoing.release]; omega) rfl
      simp only [Outgoing.offered, Outgoing.release, hstop]
      exact this

/-- HTTP/3: some of what goes into a packet may be bytes of the body. -/
theorem onWriteOffered_settles (q : QuicStream) (hle : q.tx.txSent ≤ q.tx.txOffered) (n : Nat) :
    q.Settles (q.tx.sent (q.tx.txSent + n)) (q.onWriteOffered n) := by
  -- it may be that all of it has been reported before
  by_cases hmore : q.tx.txSent < min (q.tx.txSent + n) q.tx.txOffered
  · have hset := q.onSent_settles (q.tx.txSent + min n (q.tx.txOffered - q.tx.txSent)) (by omega)
    have heq : q.tx.sent (q.tx.txSent + min n (q.tx.txOffered - q.tx.txSent)) =
        q.tx.sent (q.tx.txSent + n) := by
      simp only [Outgoing.sent, Outgoing.mk.injEq, true_and, and_true]
      omega
    rw [onWriteOffered, if_pos (by omega)]
    exact heq ▸ hset
  · have hsame : q.onWriteOffered n = q := by
      unfold QuicStream.onWriteOffered
      split
      · exact onSent_of_le (by omega)
      · rfl
    have heq : q.tx.sent (q.tx.txSent + n) = q.tx := by
      have : min (q.tx.txSent + n) q.tx.txOffered = q.tx.txSent := by omega
      rw [Outgoing.sent, this]
    rw [hsame, heq]
    exact Or.inl ⟨[], by simp, by simp⟩

/-- `on_acked()`, by what it does to the positions. -/
theorem onAcked_cases (q : QuicStream) (stop : Nat) :
    (min stop q.tx.txOffered ≤ q.tx.txAcked ∧ q.onAcked stop = q) ∨
      (q.tx.txAcked < min stop q.tx.txOffered ∧
        (q.writeMode = .zeroCopy → q.tx.writeActive = true → q.tx.writeSource ≠ [] →
          min stop q.tx.txOffered < q.tx.writeBase + q.tx.writeSource.length) ∧
        q.onAcked stop = { q with tx := q.tx.acked (min stop q.tx.txOffered) }) ∨
      (q.writeMode = .zeroCopy ∧ q.tx.writeActive = true ∧ q.tx.writeSource ≠ [] ∧
        q.tx.writeBase + q.tx.writeSource.length ≤ min stop q.tx.txOffered ∧
        q.onAcked stop =
          { q with
            tx := (q.tx.acked (min stop q.tx.txOffered)).release
            calls := q.calls ++ completion q.tx.writeHandler .success }) := by
  unfold QuicStream.onAcked
  dsimp only
  split
  case isTrue hle => exact Or.inl ⟨hle, rfl⟩
  case isFalse hlt =>
    split
    case isTrue hlast =>
      refine Or.inr (Or.inr ⟨hlast.1, hlast.2.1, hlast.2.2.1, hlast.2.2.2, ?_⟩)
      rw [finishActiveWrite, completeWrite_eq]
      rfl
    case isFalse hmore =>
      refine Or.inr (Or.inl ⟨Nat.not_le.mp hlt, fun hm ha hs => ?_, rfl⟩)
      by_contra hge
      exact hmore ⟨hm, ha, hs, Nat.not_lt.mp hge⟩

end QuicStream

/-! ### Every step of a stream is a sequence of steps of its sender -/

namespace Stream

open Sender (completion binding Step Steps Turn)

variable {m m' m'' : Stream}

/-- What happens between `m` and `m'` is, for the sending side, a sequence of steps. -/
def Sends (m m' : Stream) : Prop :=
  ∃ cs, m'.q.calls = m.q.calls ++ cs ∧ Steps m.sender (cs.filter Call.aboutWriting) m'.sender

/-- One sequence of steps may follow another one. -/
theorem Sends.trans (h₁ : Sends m m') (h₂ : Sends m' m'') : Sends m m'' := by
  obtain ⟨cs, hcs, hsteps⟩ := h₁
  obtain ⟨ds, hds, hsteps'⟩ := h₂
  refine ⟨cs ++ ds, by rw [hds, hcs, List.append_assoc], ?_⟩
  rw [List.filter_append]
  exact hsteps.trans hsteps'

/-- Where nothing happens to the sending side, there are no steps. -/
theorem sends_of_txSame (h : TxSame m m') : Sends m m' := by
  obtain ⟨cs, hcs, hquiet⟩ := h.calls
  refine ⟨cs, hcs, ?_⟩
  rw [h.sender, List.filter_eq_nil_iff.mpr (by simpa using hquiet)]
  exact Steps.refl _

/-- A step with calls about writing only. -/
theorem sends_of_step (cs : List Call) (h : Step m.sender cs m'.sender)
    (hcalls : m'.q.calls = m.q.calls ++ cs) (hcs : ∀ c ∈ cs, c.aboutWriting = true) :
    Sends m m' := by
  refine ⟨cs, hcalls, ?_⟩
  rw [List.filter_eq_self.mpr hcs]
  exact Steps.single h

/-- A step without any calls about writing. -/
theorem sends_of_quiet (cs : List Call) (h : Step m.sender [] m'.sender)
    (hcalls : m'.q.calls = m.q.calls ++ cs) (hcs : ∀ c ∈ cs, c.aboutWriting = false) :
    Sends m m' := by
  refine ⟨cs, hcalls, ?_⟩
  rw [List.filter_eq_nil_iff.mpr (by simpa using hcs)]
  exact Steps.single h

/-- A completion is about writing, ... -/
theorem mem_completion {c : Call} {h : Option Handler} {ec : ErrorCode}
    (hc : c ∈ completion h ec) : c.aboutWriting = true := by
  obtain ⟨h, _, rfl⟩ := List.mem_map.mp hc
  rfl

/-- ... and so is the binding of a cancellation. -/
theorem mem_binding {c : Call} {h : Option Handler} {token : Nat} (hc : c ∈ binding h token) :
    c.aboutWriting = true := by
  obtain ⟨h, _, rfl⟩ := List.mem_map.mp hc
  rfl

/-- A stream that is ready for a write may have one that is active, which has been detached and has
no data. -/
theorem sender_inv_ready (hready : m.q.writeReady = true) (ha : m.q.tx.writeActive = true) :
    m.q.tx.writeHandler = none ∧ m.q.tx.writeSource = [] := by
  simpa [QuicStream.writeReady, ha] using hready

/-- What happens between `m` and `m'` is, for the sending side, one turn. -/
def Turns (a : Act) (m m' : Stream) : Prop :=
  ∃ cs, m'.q.calls = m.q.calls ++ cs ∧ Turn m.sender a (cs.filter Call.aboutWriting) m'.sender

/-- A sequence of steps is a turn. -/
theorem Sends.turns {a : Act} (h : Sends m m') : Turns a m m' := by
  obtain ⟨cs, hcs, hsteps⟩ := h
  exact ⟨cs, hcs, Turn.steps hsteps⟩

/-- **A write begins**: it is refused, adopts the end of the body that is pending, or becomes the
active one. -/
theorem turns_startWrite (hwriter : m.q.writer = true) (hready : m.q.writeReady = true)
    (h : Option Handler) (buffer : List UInt8) (eof : Bool) :
    Turns (.startWrite h buffer eof) m (m.startWrite h buffer eof) := by
  have hready' := sender_inv_ready hready
  unfold Stream.startWrite
  -- refused, adopting the FIN that is pending, or begun
  rcases m.q.startWrite_cases h buffer eof with ⟨_, ec, heq⟩ |
    ⟨_, hover, hactive, heof, hended, hbuffer, hend, heq⟩ | ⟨_, hover, heof, hcarries, heq⟩
  · rw [heq]
    refine ⟨completion h ec, rfl, ?_⟩
    rw [List.filter_eq_self.mpr fun c => mem_completion]
    simp only [Stream.sender, if_true]
    exact Turn.refuse m.sender h buffer eof ec hready'
  · rw [heq]
    refine ⟨binding h m.q.tx.writeToken, rfl, ?_⟩
    rw [List.filter_eq_self.mpr fun c => mem_binding]
    simp only [Stream.sender, if_true]
    exact Turn.adopt m.sender h buffer eof hwriter hover hended hbuffer hend hactive heof
      (hready' hactive).1 (hready' hactive).2
  · rw [heq]
    have hnew : ¬(m.q.tx.begin m.q.writeMode h buffer eof).nextWriteToken =
        m.q.tx.nextWriteToken := by simp [Outgoing.begin]
    have hquiet : List.filter Call.aboutWriting [.onWritable] = [] := rfl
    refine ⟨binding h m.q.tx.nextWriteToken ++ [.onWritable], rfl, ?_⟩
    rw [List.filter_append, List.filter_eq_self.mpr fun c => mem_binding, hquiet, List.append_nil]
    simp only [Stream.sender, if_neg hnew]
    exact Turn.begin m.sender h buffer eof hwriter hover heof hready' hcarries

/-- The stream is closed or reset, with nothing else happening to the sending side. -/
theorem sends_over (closed writeAborted : Bool) (cs : List Call)
    (hsender : m'.sender = { m.sender with closed := closed, writeAborted := writeAborted })
    (hclosed : m.q.closed = true → closed = true)
    (haborted : m.q.writeAborted = true → writeAborted = true)
    (hcalls : m'.q.calls = m.q.calls ++ cs) (hcs : ∀ c ∈ cs, c.aboutWriting = false) :
    Sends m m' := by
  refine sends_of_quiet cs ?_ hcalls hcs
  rw [hsender]
  exact Step.flags m.sender closed writeAborted m.q.writer hclosed haborted id
    fun hw hnw => absurd (hw.symm.trans hnw) (by simp)

/-- The end of the active write, if there is one, on a stream that does not send any more. -/
theorem sends_release (hover : m.sender.isOver = true) (hactive : m.q.tx.writeActive = true)
    (ec : ErrorCode) :
    Sends m { m with q :=
      { m.q with tx := m.q.tx.release }.completeWrite m.q.tx.writeHandler ec } := by
  rw [QuicStream.completeWrite_eq]
  exact sends_of_step _ (Step.release m.sender ec hover hactive) rfl fun c => mem_completion

/-- Letting go of the caller's buffer closes or resets the stream, if it has to. -/
structure LetsGo (q q' : QuicStream) : Prop where
  same : q' = { q with closed := q'.closed, writeAborted := q'.writeAborted, calls := q'.calls }
  closed : q.closed = true → q'.closed = true
  writeAborted : q.writeAborted = true → q'.writeAborted = true
  isOver : q.writeMode = .zeroCopy → q.tx.txAcked < q.tx.txOffered → q'.sendingOver = true
  keep : ¬(q.writeMode = .zeroCopy ∧ q.tx.txAcked < q.tx.txOffered) →
    q'.closed = q.closed ∧ q'.writeAborted = q.writeAborted
  calls : QuicStream.CallsAvoid Call.aboutWriting q q'

/-- Letting go of a buffer is a reset, or nothing. -/
theorem letGo_letsGo (q : QuicStream) : LetsGo q q.letGo := by
  unfold QuicStream.letGo
  split
  case isTrue h =>
    have hkeep : ∀ {p : Prop}, ¬(q.writeMode = .zeroCopy ∧ q.tx.txAcked < q.tx.txOffered) → p :=
      fun hn => absurd ⟨h.1, h.2.1⟩ hn
    unfold QuicStream.resetWriting
    split
    · exact ⟨rfl, id, fun _ => rfl, fun _ _ => by simp [QuicStream.sendingOver], hkeep,
        QuicStream.callsAvoid_call rfl⟩
    · exact ⟨rfl, fun _ => rfl, id, fun _ _ => by simp [QuicStream.sendingOver], hkeep,
        QuicStream.callsAvoid_call rfl⟩
  case isFalse h =>
    refine ⟨rfl, id, id, fun hmode hheld => ?_, fun _ => ⟨rfl, rfl⟩, .refl⟩
    by_contra hover
    exact h ⟨hmode, hheld, by simpa using hover⟩

/-- **A write is cancelled**: it is not the active one, is detached from the pending end of the
body, or is abandoned. -/
theorem turns_cancelWrite (hinv : m.sender.Inv) (token : Nat) :
    Turns (.cancelWrite token) m (m.cancelWrite token) := by
  unfold Stream.cancelWrite
  -- no such write, a handler that is detached, or a write that is abandoned
  rcases m.q.cancelWrite_cases token with
    ⟨_, heq⟩ | ⟨h, hh, htoken, ⟨heof, hbare, heq⟩ | ⟨hdata, heq⟩⟩
  · rw [heq]
    refine (sends_of_txSame ?_).turns
    exact ⟨by simp [Stream.sender], .refl, rfl, fun _ => id⟩
  · rw [heq]
    refine (sends_of_step (completion (some h) .canceled) ?_ rfl fun c => mem_completion).turns
    simp only [Stream.sender, Bool.and_not_self, Bool.false_eq_true, if_false]
    exact Step.detach m.sender h hh heof hbare
  · rw [heq, ← htoken]
    have hgo := letGo_letsGo m.q
    obtain ⟨cs, hcs, hquiet⟩ := hgo.calls
    have hactive : m.q.tx.writeActive = true := hinv.tx.handler_active (by simp [Stream.sender, hh])
    have hturn := Turn.cancel m.sender m.q.letGo.closed m.q.letGo.writeAborted h hh hdata
      hgo.closed hgo.writeAborted hgo.isOver hgo.keep
    refine ⟨cs ++ completion (some h) .canceled, by rw [← List.append_assoc, ← hcs], ?_⟩
    rw [List.filter_append, List.filter_eq_nil_iff.mpr (by simpa using hquiet), List.nil_append,
      List.filter_eq_self.mpr fun c => mem_completion]
    rw [hgo.same]
    have hgone : (m.q.tx.cancel m.q.writeMode).writeActive = false := rfl
    simp only [Stream.sender, hactive, hgone, Bool.not_false, Bool.and_self, if_true]
    exact hturn

/-- The end of the sending side releases the active write. -/
theorem sends_abortWriting (m : Stream) (ec : ErrorCode) :
    Sends m { m with q := m.q.abortWriting ec } := by
  have hmark : Sends m { m with q := { m.q with writeAborted := true } } :=
    sends_over m.q.closed true [] rfl id (fun _ => rfl) (by simp) (by simp)
  unfold QuicStream.abortWriting
  dsimp only
  split
  · exact hmark
  case isFalse hactive =>
    rw [Bool.not_eq_false] at hactive
    refine hmark.trans (sends_release (m := { m with q := { m.q with writeAborted := true } }) ?_
      hactive ec)
    simp [Stream.sender, Sender.isOver]

/-- `shutdown_stream()` does the same, and calls ngtcp2 before. -/
theorem sends_userReset (m : Stream) (code : Nat) : Sends m { m with q := m.q.userReset code } := by
  unfold QuicStream.userReset
  split
  · exact sends_of_txSame (TxSame.refl m)
  · exact (sends_of_txSame (TxSame.call m rfl)).trans (sends_abortWriting _ _)

/-- The first half of `fail()` closes the stream. -/
theorem sends_failReading (m : Stream) (ec : ErrorCode) (frames : List Frame) :
    Sends m { m with q := m.q.failReading ec, frames := frames } := by
  unfold QuicStream.failReading
  dsimp only
  split
  · exact sends_over true m.q.writeAborted [] rfl (fun _ => rfl) id (by simp) (by simp)
  · exact sends_over true m.q.writeAborted _ rfl (fun _ => rfl) id rfl (by simp [Call.aboutWriting])

/-- The second half releases the active write of a stream that is closed. -/
theorem sends_failWriting (hclosed : m.q.closed = true) (ec : ErrorCode) :
    Sends m { m with q := m.q.failWriting ec } := by
  unfold QuicStream.failWriting
  dsimp only
  split
  case isTrue hactive =>
    exact (sends_release (by simp [Stream.sender, Sender.isOver, hclosed]) hactive _).trans
      (sends_of_txSame (TxSame.maybeClose _))
  case isFalse => exact sends_of_txSame (TxSame.maybeClose m)

theorem failReading_closed (q : QuicStream) (ec : ErrorCode) :
    (q.failReading ec).closed = true := by
  unfold QuicStream.failReading
  dsimp only
  split <;> rfl

/-- Both halves, or the first one only, if a handler runs between them. -/
theorem sends_fail (m : Stream) (ec : ErrorCode) : Sends m (m.fail ec) := by
  unfold Stream.fail
  dsimp only
  split
  · exact sends_failReading m ec _
  · exact (sends_failReading m ec m.frames).trans
      (sends_failWriting (m := { m with q := m.q.failReading ec }) (failReading_closed _ _) ec)

/-- The writer is dropped: the body has been ended, or sending is over. -/
theorem sends_drop (closed writeAborted : Bool) (cs : List Call)
    (hsender : m'.sender =
      { m.sender with closed := closed, writeAborted := writeAborted, writer := false })
    (hclosed : m.q.closed = true → closed = true)
    (haborted : m.q.writeAborted = true → writeAborted = true)
    (hdrop : (closed || writeAborted) = true ∨ m.q.tx.eofSubmitted = true)
    (hcalls : m'.q.calls = m.q.calls ++ cs) (hcs : ∀ c ∈ cs, c.aboutWriting = false) :
    Sends m m' := by
  refine sends_of_quiet cs ?_ hcalls hcs
  rw [hsender]
  exact Step.flags m.sender closed writeAborted false hclosed haborted (by simp) fun _ _ => hdrop

theorem sends_deleteWriter (m : Stream) :
    Sends m { m with q := { m.q with writer := false }.deleteWriter } := by
  have hstay : m.q.sendingOver = true ∨ m.q.tx.eofSubmitted = true →
      Sends m { m with q := { m.q with writer := false } } := fun h =>
    sends_drop m.q.closed m.q.writeAborted [] rfl id id h (by simp) (by simp)
  unfold QuicStream.deleteWriter
  split
  case isTrue hover =>
    exact (hstay (Or.inl hover)).trans (sends_of_txSame (TxSame.maybeClose _))
  case isFalse =>
    dsimp only
    split
    case isTrue heof =>
      exact (hstay (Or.inr heof)).trans (sends_of_txSame (TxSame.maybeClose _))
    case isFalse =>
      have hreset : Sends m { m with q := { m.q with writer := false }.resetWriting } := by
        unfold QuicStream.resetWriting
        split
        · exact sends_drop m.q.closed true _ rfl id (fun _ => rfl) (by simp) rfl
            (by simp [Call.aboutWriting])
        · exact sends_drop true m.q.writeAborted _ rfl (fun _ => rfl) id (by simp) rfl
            (by simp [Call.aboutWriting])
      exact hreset.trans ((sends_abortWriting _ _).trans (sends_of_txSame (TxSame.maybeClose _)))

/-- The destructor of the writing adapter calls `delete_writer()`, if the stream is there. -/
theorem sends_dropWriter (m : Stream) : Sends m m.dropWriter := by
  unfold Stream.dropWriter
  dsimp only
  split
  · exact sends_deleteWriter m
  split
  case isTrue hclosed =>
    exact (sends_drop m.q.closed m.q.writeAborted [] rfl id id (by simp [hclosed]) (by simp)
      (by simp)).trans (sends_of_txSame
        (TxSame.maybeClose { m with q := { m.q with writer := false } }))
  split
  · refine Sends.trans ?_ (sends_of_txSame (TxSame.maybeClose { m with
      q := { ({ m.q with writer := false }.call (.shutdownStream 0x100)).call .wakeWrite with
        closed := true } }))
    exact sends_drop true m.q.writeAborted [.shutdownStream 0x100, .wakeWrite] rfl (fun _ => rfl) id
      (by simp) (by simp [QuicStream.call]) (by simp [Call.aboutWriting])
  split
  · -- `fail()` closes the stream before anything else, so it may as well be closed already
    have hclose : Sends m { m with q := { { m.q with writer := false }.call
        (.resetStream { m.q with writer := false }.resetErrorCode) with closed := true } } :=
      sends_drop true m.q.writeAborted _ rfl (fun _ => rfl) id (by simp) rfl
        (by simp [Call.aboutWriting])
    exact hclose.trans (sends_fail _ .partialMessage)
  case isFalse heof =>
    refine Sends.trans ?_ (sends_of_txSame (TxSame.maybeClose { m with
      q := { m.q with writer := false } }))
    exact sends_drop m.q.closed m.q.writeAborted [] rfl id id (Or.inr (by simpa using heof))
      (by simp) (by simp)

/-- What `detach()` tells the reader does not concern the sending side. -/
theorem detachReading_txSame (m : Stream) : TxSame m { m with q := m.q.detachReading } := by
  unfold QuicStream.detachReading
  split
  · exact TxSame.refl m
  · exact ⟨rfl, QuicStream.callsAvoid_call rfl, rfl, fun _ => id⟩

theorem sends_detachWriting (hinv : m.sender.Inv) (reader : ReaderHandle) :
    Sends m { m with
      q := { m.q with reader := false, writer := false }.detachWriting
      reader := reader
      destroyed := true } := by
  have hstep := Step.destroy m.sender
  unfold QuicStream.detachWriting
  dsimp only
  split
  case isTrue =>
    rw [QuicStream.completeWrite_eq]
    exact sends_of_step _ hstep rfl fun c => mem_completion
  case isFalse hactive =>
    have hnone : m.q.tx.writeHandler = none := by
      by_contra hh
      exact hactive (hinv.tx.handler_active hh)
    have htx : { m.q.tx with writeHandler := none } = m.q.tx := by rw [← hnone]
    simp only [Stream.sender, hnone, htx, completion, Option.toList_none, List.map_nil] at hstep
    exact sends_of_step [] hstep (by simp) (by simp)

/-- `detach_all()` completes the write with its handler, and leaves the body as it is. -/
theorem sends_detachAll (hinv : m.sender.Inv) : Sends m m.detachAll := by
  -- reading is over before the adapters are gone, as far as the sending side can tell
  have hcomm : { m.q with reader := false, writer := false }.detachReading =
      { m.q.detachReading with reader := false, writer := false } := by
    unfold QuicStream.detachReading
    dsimp only
    split <;> rfl
  have hread := detachReading_txSame m
  unfold Stream.detachAll
  rw [hcomm]
  exact (sends_of_txSame hread).trans (sends_detachWriting (hread.sender ▸ hinv) _)

/-- A position that moves is a step, and the completion of the write that waited for that is another
one. -/
theorem sends_settles {q q' : QuicStream} {t : Outgoing} (h : q.Settles t q') :
    Sends { m with q := { q with tx := t } } { m with q := q' } := by
  rcases h with ⟨cs, rfl, hcs⟩ | ⟨hactive, hdone, rfl⟩
  · exact sends_of_txSame ⟨rfl, ⟨cs, rfl, hcs⟩, rfl, fun _ => id⟩
  · exact sends_of_step _ (Step.finish { m with q := { q with tx := t } }.sender hactive hdone) rfl
      fun c => mem_completion

/-- Once sending is over, `pending_data()` returns nothing. -/
theorem pendingData_over {q : QuicStream} (hover : q.sendingOver = true) (start room : Nat) :
    q.pendingData start room = (q, [], false) := by
  rw [QuicStream.pendingData, if_pos (Or.inr hover)]

/-- Before that, it carves chunks, and returns vecs and whether these end the body. -/
theorem pendingData_alive {q : QuicStream} (hover : q.sendingOver = false) (start : Nat)
    {room : Nat} (hroom : 0 < room) :
    q.pendingData start room =
      ({ q with tx := q.tx.carve q.writeMode },
        ((q.tx.carve q.writeMode).sourceVecs q.writeMode start room).1,
        (q.tx.carve q.writeMode).endsAt q.writeMode
          ((q.tx.carve q.writeMode).sourceVecs q.writeMode start room).2) := by
  rw [QuicStream.pendingData, if_neg]
  rintro (h | h)
  · omega
  · rw [hover] at h
    exact absurd h (by simp)

/-- `pending_data()` without the stack taking anything. -/
theorem sends_poll (hover : m.q.sendingOver = false) {room : Nat} (hroom : 0 < room)
    (hhttp3 : m.q.kind = .http3 → (m.sender.vecs room).1 = []) :
    Sends m { m with
      q := { m.q with tx := m.q.tx.carve m.q.writeMode }
      offers := m.offers ++ [⟨m.q.tx.txOffered, (m.sender.vecs room).1, m.sender.fin room, 0⟩] } :=
  sends_of_quiet [] (Step.poll m.sender room hroom hover hhttp3) (by simp) (by simp)

/-- What ngtcp2 takes of the vecs is offered and sent at once. -/
theorem sends_writePkt (hinv : m.sender.Inv) (hkind : m.q.kind ≠ .http3) {r : PktResult}
    (h : m.writePkt r = some m') : Sends m m' := by
  have hsent : m.q.tx.txSent = m.q.tx.txOffered := hinv.tx.plain_sent hkind
  unfold Stream.writePkt QuicStream.nextStreamData at h
  rw [hsent] at h
  have hpoll : m.q.kind = .http3 → (m.sender.vecs 16).1 = [] := fun hk => absurd hk hkind
  -- a stream that is over has nothing to send
  cases hover : m.q.sendingOver with
  | true =>
    rw [pendingData_over hover] at h
    simp only [QuicStream.hasStreamData, List.isEmpty_nil, Bool.not_false, Bool.true_or,
      Bool.and_self, Bool.not_true, Bool.false_eq_true, if_false, Option.some.injEq] at h
    rw [← h]
    exact sends_of_quiet [] (Step.nothing m.sender) (by simp) (by simp)
  | false =>
    have hroom : 0 < 16 := by decide
    rw [pendingData_alive hover _ hroom] at h
    dsimp only at h
    split at h
    case isFalse =>
      rw [← Option.some.inj h]
      exact sends_poll hover hroom hpoll
    cases r with
    | notWritten =>
      rw [← Option.some.inj h]
      exact sends_poll hover hroom hpoll
    | shutWr =>
      rw [← Option.some.inj h]
      exact (sends_poll hover hroom hpoll).trans (sends_abortWriting _ _)
    | written n =>
      dsimp only at h
      split at h
      case isFalse => exact absurd h (by simp)
      case isTrue hn =>
        rw [← Option.some.inj h]
        have htake := Step.take m.sender 16 n 0 hroom hover hn (fun _ => rfl)
          fun hk => absurd hk hkind
        have hset := QuicStream.onStreamDataWritten_settles
          { m.q with tx := m.q.tx.carve m.q.writeMode } n
          (m.sender.fin 16 && n == vecLen (m.sender.vecs 16).1)
          (hinv.tx.carve.plain_sent hkind)
        refine Sends.trans ?_ (sends_settles (m := { m with
          offers := m.offers ++ [⟨m.q.tx.txOffered, (m.sender.vecs 16).1, m.sender.fin 16, n⟩]
          wire := m.wire ++ List.replicate n true
          sent := m.sent + n }) hset)
        refine sends_of_quiet [] ?_ (by simp) (by simp)
        have hkind' : m.sender.kind ≠ .http3 := hkind
        simp only [Sender.taken, if_neg hkind', List.replicate_zero, List.append_nil] at htake
        simp only [Stream.sender, Outgoing.carve_txOffered]
        exact htake

/-- No handler runs in the meantime. -/
theorem writePkt_frames {r : PktResult} (h : m.writePkt r = some m') :
    m'.frames = m.frames ∧ m'.trace = m.trace := by
  unfold Stream.writePkt at h
  dsimp only at h
  split at h
  · split at h
    · obtain ⟨_, heq⟩ := Option.ite_none_right_eq_some.mp h
      rw [← Option.some.inj heq]
      exact ⟨rfl, rfl⟩
    · rw [← Option.some.inj h]
      exact ⟨rfl, rfl⟩
    · rw [← Option.some.inj h]
      exact ⟨rfl, rfl⟩
  · rw [← Option.some.inj h]
    exact ⟨rfl, rfl⟩

/-- None does while nghttp3 asks for data. -/
theorem dataReader_frames (m : Stream) (veccnt header : Nat) :
    (m.dataReader veccnt header).frames = m.frames ∧
      (m.dataReader veccnt header).trace = m.trace := by
  unfold Stream.dataReader
  dsimp only
  split
  · exact ⟨rfl, rfl⟩
  · split <;> exact ⟨rfl, rfl⟩

/-- What nghttp3 takes is offered, in frames. -/
theorem sends_dataReader (hkind : m.q.kind = .http3) (veccnt header : Nat) :
    Sends m (m.dataReader veccnt header) := by
  unfold Stream.dataReader
  split
  case isTrue => exact sends_of_txSame (TxSame.refl m)
  case isFalse hcount =>
    have hroom : 0 < veccnt := Nat.pos_of_ne_zero hcount
    cases hover : m.q.sendingOver with
    | true =>
      rw [pendingData_over hover]
      simp only [and_self, if_true]
      exact sends_of_quiet [] (Step.nothing m.sender) (by simp) (by simp)
    | false =>
      rw [pendingData_alive hover _ hroom]
      dsimp only
      split
      case isTrue hnone => exact sends_poll hover hroom fun _ => hnone.1
      case isFalse =>
        have htake := Step.take m.sender veccnt (vecLen (m.sender.vecs veccnt).1) header hroom hover
          le_rfl (fun hk => absurd hkind hk) fun _ => rfl
        have hset := QuicStream.onOffered_settles { m.q with tx := m.q.tx.carve m.q.writeMode }
          (m.q.tx.txOffered + vecLen (m.sender.vecs veccnt).1) (m.sender.fin veccnt)
        simp only [QuicStream.takeOffer, Outgoing.carve_txOffered]
        refine Sends.trans ?_ (sends_settles (m := { m with
          offers := m.offers ++ [⟨m.q.tx.txOffered, (m.sender.vecs veccnt).1, m.sender.fin veccnt,
            vecLen (m.sender.vecs veccnt).1⟩]
          wire := m.wire ++ List.replicate header false ++
            List.replicate (vecLen (m.sender.vecs veccnt).1) true }) hset)
        refine sends_of_quiet [] ?_ (by simp) (by simp)
        have hkind' : m.sender.kind = .http3 := hkind
        simp only [Sender.taken, if_pos hkind', beq_self_eq_true, Bool.and_true] at htake
        exact htake

/-- An acknowledgement is of bytes that have been sent. -/
theorem sends_onAcked {stop : Nat} (hstop : stop ≤ m.bodySent) :
    Sends m { m with q := m.q.onAcked stop } := by
  have hstop' : min stop m.q.tx.txOffered ≤ m.sender.bodySent := le_trans (min_le_left _ _) hstop
  rcases m.q.onAcked_cases stop with ⟨_, heq⟩ | ⟨hold, hmore, heq⟩ |
    ⟨hmode, hactive, hdata, hlast, heq⟩
  · rw [heq]
    exact sends_of_txSame (TxSame.refl m)
  · rw [heq]
    exact sends_of_quiet [] (Step.acked m.sender _ hold hstop' hmore) (by simp) (by simp)
  · rw [heq]
    exact sends_of_step _ (Step.ackedLast m.sender _ hmode hactive hdata hstop' hlast) rfl
      fun c => mem_completion

/-- Of what nghttp3 has framed, ngtcp2 puts the next bytes into a packet. -/
theorem sends_packet (hinv : m.sender.Inv) (hkind : m.q.kind = .http3) {n : Nat}
    (hn : m.sent + n ≤ m.wire.length) :
    Sends m { m with q := m.q.onWriteOffered n, sent := m.sent + n } := by
  have hset := m.q.onWriteOffered_settles hinv.tx.sent_le_offered n
  refine Sends.trans ?_ (sends_settles (m := { m with sent := m.sent + n }) hset)
  exact sends_of_quiet [] (Step.packet m.sender n hkind hn) (by simp) (by simp)

/-! ### Steps and runs -/

/-- `fail()` closes the stream before it resumes anyone. -/
def FailingClosed (m : Stream) : Prop := ∀ ec, .failing ec ∈ m.frames → m.q.closed = true

/-- A change with what it does to the sending side, and with `FailingClosed` kept; nothing happens
to what is past. -/
structure Acts (a : Act) (m m' : Stream) : Prop where
  turns : Turns a m m'
  failing : ∀ ec, .failing ec ∈ m'.frames → .failing ec ∈ m.frames ∨ m'.q.closed = true
  trace : m'.trace = m.trace

/-- An action that does not concern the sending side. -/
theorem acts_of_txSame {a : Act} (h : TxSame m m') : Acts a m m' :=
  ⟨(sends_of_txSame h).turns, fun ec hec => Or.inl (h.failing ec hec), h.trace⟩

/-- An action in which no handler runs. -/
theorem acts_of_sends {a : Act} (h : Sends m m')
    (hframes : m'.frames = m.frames ∧ m'.trace = m.trace) : Acts a m m' :=
  ⟨h.turns, fun _ hec => Or.inl (hframes.1 ▸ hec), hframes.2⟩

theorem fail_trace (m : Stream) (ec : ErrorCode) : (m.fail ec).trace = m.trace := by
  unfold Stream.fail
  dsimp only
  split <;> rfl

/-- `fail()` closes the stream first, whoever runs after that. -/
theorem acts_fail {a : Act} (m : Stream) (ec : ErrorCode) : Acts a m (m.fail ec) := by
  refine ⟨(sends_fail m ec).turns, fun ec' hec => ?_, fail_trace m ec⟩
  unfold Stream.fail at hec ⊢
  dsimp only at hec ⊢
  split at hec
  · rename_i h
    rw [if_pos h]
    exact Or.inr (failReading_closed _ _)
  · exact Or.inl hec

theorem dropWriter_trace (m : Stream) : m.dropWriter.trace = m.trace := by
  unfold Stream.dropWriter
  dsimp only
  split
  · rfl
  · split
    · rfl
    · split
      · rfl
      · split
        · exact fail_trace _ _
        · rfl

theorem acts_dropWriter {a : Act} (m : Stream) : Acts a m m.dropWriter := by
  refine ⟨(sends_dropWriter m).turns, fun ec hec => ?_, dropWriter_trace m⟩
  unfold Stream.dropWriter at hec ⊢
  dsimp only at hec ⊢
  split at hec
  · exact Or.inl hec
  split at hec
  · exact Or.inl hec
  split at hec
  · exact Or.inl hec
  split at hec
  case isTrue hclosed hheaders heof =>
    rw [if_neg hclosed, if_neg hheaders, if_pos heof]
    exact (acts_fail (a := .dropWriter) _ _).failing ec hec
  case isFalse => exact Or.inl hec

/-- At its end, `fail()` completes the write that waits with the error that it was called with. -/
theorem acts_failing {a : Act} (hfail : FailingClosed m) {ec : ErrorCode} {frames : List Frame}
    (hframes : m.frames = .failing ec :: frames) :
    Acts a m { m with frames := frames, q := m.q.failWriting ec } := by
  have hclosed : m.q.closed = true := hfail ec (by rw [hframes]; exact List.mem_cons_self)
  refine ⟨(sends_failWriting hclosed ec).turns, fun ec' hec => Or.inl ?_, rfl⟩
  rw [hframes]
  exact List.mem_cons_of_mem _ hec

/-- The loop of `call_read_handler()` goes on after the handler it has invoked. -/
theorem acts_loop {a : Act} {consumed : Nat} {k : Cont} {frames : List Frame}
    (hframes : m.frames = .loop consumed k :: frames) :
    Acts a m ({ m with frames := frames }.readLoop consumed k fun m => m.resume k) := by
  have hpop : TxSame m { m with frames := frames } :=
    ⟨rfl, .refl, rfl, fun ec hec => by rw [hframes]; exact List.mem_cons_of_mem _ hec⟩
  exact acts_of_txSame (hpop.trans (TxSame.readLoop _ _ _ fun m => TxSame.resume m k))

/-- **Every action** on a stream that is there is one turn, ... -/
theorem acts_act (hinv : m.sender.Inv) (hfail : FailingClosed m) {a : Act}
    (h : m.act a = some m') : Acts a m m' := by
  unfold Stream.act at h
  cases a with
  | startWrite handler buffer eof =>
    obtain ⟨⟨hwriter, hready⟩, heq⟩ := Option.ite_none_right_eq_some.mp h
    rw [← Option.some.inj heq]
    exact ⟨turns_startWrite hwriter hready handler buffer eof, fun _ => Or.inl, rfl⟩
  | cancelWrite token =>
    rw [← Option.some.inj h]
    exact ⟨turns_cancelWrite hinv token, fun _ => Or.inl, rfl⟩
  | asyncReadSome handler size =>
    obtain ⟨_, heq⟩ := Option.ite_none_right_eq_some.mp h
    rw [← Option.some.inj heq]
    exact acts_of_txSame (TxSame.asyncReadSome m handler size)
  | cancelRead =>
    obtain ⟨_, heq⟩ := Option.ite_none_right_eq_some.mp h
    rw [← Option.some.inj heq]
    exact acts_of_txSame (TxSame.cancelRead m)
  | resetStream code =>
    obtain ⟨_, heq⟩ := Option.ite_none_right_eq_some.mp h
    rw [← Option.some.inj heq]
    exact acts_of_sends (sends_userReset m code) ⟨rfl, rfl⟩
  | stopSending code =>
    obtain ⟨_, heq⟩ := Option.ite_none_right_eq_some.mp h
    split at heq
    · rw [← Option.some.inj heq]
      exact acts_of_txSame (TxSame.refl m)
    · rw [← Option.some.inj heq]
      exact acts_of_txSame ((TxSame.call m rfl).trans (TxSame.abortReading _))
  | submitHeaders =>
    obtain ⟨_, heq⟩ := Option.ite_none_right_eq_some.mp h
    rw [← Option.some.inj heq]
    exact acts_of_txSame ⟨rfl, .of_eq rfl, rfl, fun _ => id⟩
  | dropReader =>
    obtain ⟨_, heq⟩ := Option.ite_none_right_eq_some.mp h
    rw [← Option.some.inj heq]
    exact acts_of_txSame (TxSame.dropReader m)
  | dropWriter =>
    obtain ⟨_, heq⟩ := Option.ite_none_right_eq_some.mp h
    rw [← Option.some.inj heq]
    exact acts_dropWriter m
  | ret =>
    dsimp only at h
    split at h
    · exact absurd h (by simp)
    case h_2 consumed k frames hframes =>
      rw [← Option.some.inj h]
      exact acts_loop hframes
    case h_3 ec frames hframes =>
      rw [← Option.some.inj h]
      exact acts_failing hfail hframes
  | recvStreamData data fin =>
    obtain ⟨_, heq⟩ := Option.ite_none_right_eq_some.mp h
    split at heq
    · rw [← Option.some.inj heq]
      exact acts_of_txSame (TxSame.refl m)
    · rw [← Option.some.inj heq]
      exact acts_of_txSame (TxSame.onDataChunk m data fin)
  | recvData data =>
    obtain ⟨_, heq⟩ := Option.ite_none_right_eq_some.mp h
    rw [← Option.some.inj heq]
    exact acts_of_txSame (TxSame.onDataChunk m data false)
  | endStream =>
    obtain ⟨_, heq⟩ := Option.ite_none_right_eq_some.mp h
    rw [← Option.some.inj heq]
    exact acts_of_txSame (TxSame.onEof m)
  | streamReset =>
    have hmark : TxSame m { m with peerReset := true } := ⟨rfl, .of_eq rfl, rfl, fun _ => id⟩
    obtain ⟨_, heq⟩ := Option.ite_none_right_eq_some.mp h
    split at heq
    · rw [← Option.some.inj heq]
      exact acts_of_txSame (hmark.trans (TxSame.abortReading _))
    · rw [← Option.some.inj heq]
      exact acts_of_txSame hmark
  | streamStopSending =>
    obtain ⟨_, heq⟩ := Option.ite_none_right_eq_some.mp h
    rw [← Option.some.inj heq]
    exact acts_of_txSame (TxSame.abortReading m)
  | recvStopSending =>
    obtain ⟨_, heq⟩ := Option.ite_none_right_eq_some.mp h
    rw [← Option.some.inj heq]
    exact acts_of_sends (sends_abortWriting m .connectionReset) ⟨rfl, rfl⟩
  | writePkt r =>
    obtain ⟨⟨hplain, _⟩, heq⟩ := Option.ite_none_right_eq_some.mp h
    have hkind : m.q.kind ≠ .http3 := by simpa [Stream.isPlain] using hplain
    exact acts_of_sends (sends_writePkt hinv hkind heq) (writePkt_frames heq)
  | acked stop =>
    obtain ⟨⟨_, _, hstop⟩, heq⟩ := Option.ite_none_right_eq_some.mp h
    rw [← Option.some.inj heq]
    exact acts_of_sends (sends_onAcked hstop) ⟨rfl, rfl⟩
  | frame n =>
    obtain ⟨hkind, heq⟩ := Option.ite_none_right_eq_some.mp h
    rw [← Option.some.inj heq]
    exact acts_of_sends (sends_of_quiet [] (Step.framing m.sender n hkind) (by simp)
      (by simp)) ⟨rfl, rfl⟩
  | dataReader veccnt header =>
    obtain ⟨⟨hkind, _⟩, heq⟩ := Option.ite_none_right_eq_some.mp h
    rw [← Option.some.inj heq]
    exact acts_of_sends (sends_dataReader hkind veccnt header) (dataReader_frames m veccnt header)
  | packet n =>
    obtain ⟨⟨hkind, _, hn⟩, heq⟩ := Option.ite_none_right_eq_some.mp h
    rw [← Option.some.inj heq]
    exact acts_of_sends (sends_packet hinv hkind hn) ⟨rfl, rfl⟩
  | writeAcked n =>
    obtain ⟨⟨_, _, hn⟩, heq⟩ := Option.ite_none_right_eq_some.mp h
    rw [← Option.some.inj heq]
    unfold QuicStream.onWriteAcked
    split
    · exact acts_of_sends (sends_onAcked hn) ⟨rfl, rfl⟩
    · exact acts_of_txSame (TxSame.refl m)
  | fail ec =>
    rw [← Option.some.inj h]
    exact acts_fail m ec
  | destroy =>
    obtain ⟨_, heq⟩ := Option.ite_none_right_eq_some.mp h
    rw [← Option.some.inj heq]
    exact acts_of_sends (sends_detachAll hinv) ⟨rfl, rfl⟩

/-- ... what happens to the handles of one that is gone is none, ... -/
theorem txSame_actDetached {a : Act} (h : m.actDetached a = some m') : TxSame m m' := by
  unfold Stream.actDetached at h
  split at h
  · obtain ⟨_, heq⟩ := Option.ite_none_right_eq_some.mp h
    rw [← Option.some.inj heq]
    exact TxSame.asyncReadSome m _ _
  · rw [← Option.some.inj h]
    exact ⟨rfl, .of_eq rfl, rfl, fun _ => id⟩
  · exact absurd h (by simp)

/-- What holds of every reachable stream. -/
structure Sound (m : Stream) : Prop where
  sender : m.sender.Inv
  failing : FailingClosed m

/-- ... and so is a step, either way. -/
theorem acts_of_step (hm : m.Sound) {a : Act}
    (h : (if m.destroyed then m.fresh.actDetached a else m.fresh.act a) = some m') :
    Acts a m.fresh m' := by
  split at h
  · exact acts_of_txSame (txSame_actDetached h)
  · exact acts_act (m := m.fresh) hm.sender hm.failing h

/-- What a step does is recorded. -/
theorem step_trace (hm : m.Sound) {a : Act} (h : m.step a = some m') :
    m'.trace = m.trace ++ m'.q.calls := by
  obtain ⟨u, hu, rfl⟩ := Option.map_eq_some_iff.mp h
  show u.trace ++ u.q.calls = _
  rw [(acts_of_step hm hu).trace]
  rfl

/-- **Simulation**: a step of a stream is, for its sending side, one turn, with the calls about
writing that the stream has made. -/
theorem step_turn (hm : m.Sound) {a : Act} (h : m.step a = some m') :
    Turn m.sender a (m'.q.calls.filter Call.aboutWriting) m'.sender ∧ m'.Sound := by
  have hinv : m.fresh.sender.Inv := hm.sender
  have hfail : FailingClosed m.fresh := hm.failing
  obtain ⟨u, hu, rfl⟩ := Option.map_eq_some_iff.mp h
  obtain ⟨⟨cs, hcs, hturn⟩, hfailing, _⟩ := acts_of_step hm hu
  have hcalls : u.q.calls = cs := hcs
  rw [← hcalls] at hturn
  refine ⟨hturn, hturn.inv hinv, fun ec hec => ?_⟩
  rcases hfailing ec hec with hold | hclosed
  · exact hturn.later.closed (hfail ec hold)
  · exact hclosed

/-- A stream that has been destroyed does not send. -/
theorem step_destroyed (hd : m.destroyed = true) {a : Act} (h : m.step a = some m') :
    m'.sender = m.sender := by
  obtain ⟨u, hu, rfl⟩ := Option.map_eq_some_iff.mp h
  rw [if_pos hd] at hu
  exact (txSame_actDetached hu).sender

/-- A new stream is sound, ... -/
theorem sound_init (kind : Kind) (mode : WriteMode) (headers : Bool) :
    (init kind mode headers).Sound where
  sender :=
    { tx := Outgoing.Inv.init
      wire := rfl
      sent_le := le_rfl
      bodySent_le := le_rfl
      active := by simp [init, Stream.sender]
      tokens := List.Pairwise.nil
      tokens_lt := by simp [init, Stream.sender] }
  failing := by simp [FailingClosed, init]

/-- ... and so is every one that is reached from it. -/
theorem Reachable.sound {kind : Kind} {mode : WriteMode} (h : Reachable kind mode m) : m.Sound := by
  obtain ⟨headers, acts, hrun⟩ := h
  exact run_inv (fun _ _ _ hs hstep => (step_turn hs hstep).2) (sound_init kind mode headers) hrun

/-- The kind of a stream and its write mode do not change. -/
theorem Reachable.kind_mode {kind : Kind} {mode : WriteMode} (h : Reachable kind mode m) :
    m.q.kind = kind ∧ m.q.writeMode = mode := by
  obtain ⟨headers, acts, hrun⟩ := h
  have hinv : m.Sound ∧ m.sender.kind = kind ∧ m.sender.mode = mode :=
    run_inv (P := fun m => m.Sound ∧ m.sender.kind = kind ∧ m.sender.mode = mode)
      (fun _ _ _ hs hstep => by
        obtain ⟨hturn, hsound⟩ := step_turn hs.1 hstep
        exact ⟨hsound, hturn.later.kind.trans hs.2.1, hturn.later.mode.trans hs.2.2⟩)
      ⟨sound_init kind mode headers, rfl, rfl⟩ hrun
  exact hinv.2

end Stream

end AnyHttp.Quic
