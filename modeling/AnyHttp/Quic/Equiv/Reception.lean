import AnyHttp.Quic.Equiv.Frame
import AnyHttp.Quic.Equiv.Receiver

/-!
# Every action is a turn of the receiving side

One lemma for each function of the driver that has to do with reading says which `Receiver.Step`s
it comes down to; what is only about writing is a change of `closed`, at most, and some calls.
`Stream.reception` puts them together: whatever a stream does, its receiving side takes a `Turn`,
of the conduct that the action shows.

* `Stream.Fair`: what the user and the stack must not do for the reader's contract to be kept.
* `Stream.Undisturbed`: nothing but data and its end, as far as reading goes.
* `Stream.Reachable.rep`: the representation invariant holds in every reachable state.
-/

namespace AnyHttp.Quic

open Lib

namespace Receiver

variable {c : Conduct} {p p₁ p₂ p₃ : Phase} {r r' r₁ r₂ r₃ : Receiver}

theorem Steps.single (h : Step c p₁ r₁ p₂ r₂) : Steps c p₁ r₁ p₂ r₂ := .cons h (.refl _ _)

theorem Steps.trans (h₁ : Steps c p₁ r₁ p₂ r₂) (h₂ : Steps c p₂ r₂ p₃ r₃) :
    Steps c p₁ r₁ p₃ r₃ := by
  induction h₁ with
  | refl => exact h₂
  | cons hstep _ ih => exact .cons hstep (ih h₂)

end Receiver

open Receiver

/-- The frame of a read that was completed with data which came with the end of the body. -/
def Frame.carriesEnd : Frame → Bool
  | .loop _ (.chunk true) => true
  | _ => false

theorem Frame.carriesEnd_iff {f : Frame} :
    f.carriesEnd = true ↔ ∃ n, f = .loop n (.chunk true) := by
  cases f with
  | failing ec => simp [Frame.carriesEnd]
  | loop n k =>
    cases k with
    | caller => simp [Frame.carriesEnd]
    | chunk fin => cases fin <;> simp [Frame.carriesEnd]

theorem not_carriesEnd {frames : List Frame} (h : frames.any Frame.carriesEnd = false) (n : Nat) :
    .loop n (.chunk true) ∉ frames := by
  intro hmem
  have htrue : frames.any Frame.carriesEnd = true := List.any_eq_true.mpr ⟨_, hmem, rfl⟩
  exact absurd (h.symm.trans htrue) Bool.false_ne_true

namespace Stream

variable {c : Conduct} {m m' : Stream}

/-- There is nothing that a read which waits could be completed with, and nothing of that kind is on
its way up from the chunk that is being delivered. -/
def Awaiting (m : Stream) : Prop :=
  m.q.rx.unread = [] ∧ m.q.rx.eofReceived = false ∧ m.frames.any Frame.carriesEnd = false

/-- The receiving side between two steps. -/
def past (m : Stream) : Receiver := { m.receiver with trace := m.trace }

theorem fresh_receiver (m : Stream) : m.fresh.receiver = m.past := by
  simp [Stream.receiver, Stream.past, Stream.fresh]

theorem record_past (m : Stream) : m.record.past = m.receiver := rfl

@[simp] theorem receiver_call (m : Stream) (c : Call) :
    { m with q := m.q.call c }.receiver = m.receiver.call c := by
  simp [Stream.receiver, Receiver.call, QuicStream.call, List.append_assoc]

/-! ### Reading -/

/-- A step that ends in a receiving side which is the right one up to how its trace is put
together. -/
theorem steps_of_eq {p p' : Phase} {r r' r'' : Receiver} (h : Step c p r p' r')
    (heq : r'' = r') : Steps c p r p' r'' := by
  rw [heq]
  exact .single h

theorem steps_readLoop (m : Stream) (consumed : Nat) (k : Cont) {after : Stream → Stream}
    (hlast : c ≠ .any → m.q.closed = true → m.q.rx.readHandler ≠ none →
      m.q.rx.readHead = [] ∧ m.q.rx.incoming = [] → k ≠ .chunk true)
    (hafter : ∀ m, Steps c (.left k) m.receiver .rest (after m).receiver) :
    Steps c (.loop consumed k) m.receiver .rest (m.readLoop consumed k after).receiver := by
  unfold Stream.readLoop
  split
  case h_1 q n hpass =>
    unfold QuicStream.readPass at hpass
    split at hpass
    · exact absurd hpass (by simp)
    case h_2 h hh =>
      dsimp only at hpass
      split at hpass
      case isTrue hunread =>
        obtain ⟨rfl, rfl⟩ := Prod.mk.inj (Option.some.inj hpass)
        refine steps_of_eq (Step.data m.receiver consumed k h hh hunread) ?_
        simp [Stream.receiver, Receiver.pass, QuicStream.call, afterRead, readBytes]
      case isFalse hunread =>
        have hread : m.q.rx.readHead = [] ∧ m.q.rx.incoming = [] := by
          simpa [not_or] using hunread
        split at hpass
        case isTrue heof =>
          obtain ⟨rfl, rfl⟩ := Prod.mk.inj (Option.some.inj hpass)
          refine steps_of_eq (Step.eof m.receiver consumed k h hh hread heof) ?_
          simp [Stream.receiver, Receiver.pass, QuicStream.call]
        case isFalse heof =>
          obtain ⟨hover, heq⟩ := Option.ite_none_right_eq_some.mp hpass
          obtain ⟨rfl, rfl⟩ := Prod.mk.inj (Option.some.inj heq)
          refine steps_of_eq (Step.truncated m.receiver consumed k h hh hread
            (Bool.not_eq_true _ ▸ heof) (Bool.or_eq_true_iff.mp hover)
            fun hf hclosed => hlast hf hclosed (by simp [hh]) hread) ?_
          simp [Stream.receiver, Receiver.pass, QuicStream.call]
  case h_2 hnone =>
    refine (Steps.single (Step.leave m.receiver consumed k ?_)).trans ?_
    · unfold QuicStream.readPass at hnone
      split at hnone
      case h_1 hh => exact Or.inl hh
      case h_2 h hh =>
        dsimp only at hnone
        split at hnone
        · exact absurd hnone (by simp)
        case isFalse hunread =>
          split at hnone
          · exact absurd hnone (by simp)
          case isFalse heof =>
            split at hnone
            · exact absurd hnone (by simp)
            case isFalse hover =>
              right
              simp only [ne_eq, not_or, not_not] at hunread
              simp only [Bool.or_eq_true, not_or, Bool.not_eq_true] at heof hover
              exact ⟨hunread.1, hunread.2, heof, hover.1, hover.2⟩
    · convert hafter { m with q := m.q.leaveReadLoop consumed } using 1
      simp [Stream.receiver, QuicStream.leaveReadLoop, QuicStream.call]

theorem steps_callReadHandlerThen (m : Stream) (k : Cont) {after : Stream → Stream}
    (hlast : m.q.closed = true → k ≠ .chunk true)
    (hafter : ∀ m, Steps c (.left k) m.receiver .rest (after m).receiver) :
    Steps c (.calling k) m.receiver .rest (m.callReadHandlerThen k after).receiver := by
  unfold Stream.callReadHandlerThen
  split
  case isTrue hskip => exact (Steps.single (Step.skip m.receiver k hskip)).trans (hafter m)
  case isFalse hgo =>
    rw [not_or] at hgo
    obtain ⟨h, hh⟩ := Option.ne_none_iff_exists'.mp hgo.1
    refine (Steps.single (Step.enter m.receiver k h hh (Bool.not_eq_true _ ▸ hgo.2))).trans ?_
    exact steps_readLoop { m with q := { m.q with rx := { m.q.rx with
      callReadHandlerActive := true } } } 0 k (fun _ hclosed _ _ => hlast hclosed) hafter

/-- `on_eof()`, from where it has set `eof_received` on. -/
theorem steps_onEof (m : Stream) :
    Steps c (.calling .caller)
      { m.receiver with rx := { m.receiver.rx with eofReceived := true } } .rest m.onEof.receiver :=
  steps_callReadHandlerThen
    { m with q := { m.q with rx := { m.q.rx with eofReceived := true } } } .caller (fun _ => nofun)
    fun m => .single (Step.back m.receiver)

theorem receiver_parkIncoming (m : Stream) :
    { m with q := m.q.parkIncoming }.receiver = { m.receiver with rx := park m.q.rx } := by
  unfold QuicStream.parkIncoming Receiver.park
  split <;> rfl

theorem steps_resume (m : Stream) (k : Cont) :
    Steps c (.left k) m.receiver .rest (m.resume k).receiver := by
  cases k with
  | caller => exact .single (Step.back m.receiver)
  | chunk fin =>
    cases fin with
    | false => exact steps_of_eq (Step.park m.receiver) (receiver_parkIncoming m)
    | true =>
      have heof : Steps c _ _ _ _ := steps_onEof { m with q := m.q.parkIncoming }
      rw [receiver_parkIncoming] at heof
      exact (Steps.single (Step.parkEnd m.receiver)).trans heof

theorem steps_callReadHandler (m : Stream) (k : Cont)
    (hlast : m.q.closed = true → k ≠ .chunk true) :
    Steps c (.calling k) m.receiver .rest (m.callReadHandler k).receiver :=
  steps_callReadHandlerThen m k hlast fun m => steps_resume m k

theorem steps_abortReading (m : Stream) (hcalm : c ≠ .calm) (hlive : m.destroyed = false)
    (hkind : m.q.kind ≠ .http3)
    (hfair : c ≠ .any → ∀ n, .loop n (.chunk true) ∉ m.frames) :
    Steps c .rest m.receiver .rest m.abortReading.receiver := by
  unfold Stream.abortReading
  split
  · exact .refl _ _
  case isFalse hcond =>
    simp only [Bool.or_eq_true, not_or, Bool.not_eq_true] at hcond
    refine (Steps.single (Step.abort m.receiver hcalm hlive hkind hcond.1 hfair)).trans ?_
    exact steps_callReadHandler { m with q :=
      { m.q.clearIncoming with readAborted := true } } .caller fun _ => nofun

/-- A read is answered without looking at the stream, or it is armed, and the loop gets to it. -/
theorem asyncReadSome_cases (m : Stream) (h : Handler) (size : Nat)
    (hreader : m.reader ≠ .released) :
    (∃ ec, (size = 0 ∧ ec = .success ∨ m.reader = .detached ec) ∧
      m.asyncReadSome h size = { m with q := m.q.call (.completeRead h size ec []) }) ∨
    size ≠ 0 ∧ m.reader = .attached ∧
      Steps c (.calling .caller) (m.receiver.arm h size) .rest
        (m.asyncReadSome h size).receiver := by
  unfold Stream.asyncReadSome
  -- a read of no bytes is answered at once, ...
  split
  case isTrue hsize => exact Or.inl ⟨.success, Or.inl ⟨hsize, rfl⟩, by rw [hsize]⟩
  case isFalse hsize =>
    -- ... and one of a reader that has been detached
    split
    case h_1 ec hr => exact Or.inl ⟨ec, Or.inr hr, rfl⟩
    case h_2 hne =>
      have hr : m.reader = .attached := by
        cases hr : m.reader with
        | attached => rfl
        | detached ec => exact absurd hr (hne ec)
        | released => exact absurd hr hreader
      have harm : m.receiver.arm h size =
          { m with q := { m.q.call (.onCancel h .read) with rx := { m.q.rx with
            readHandler := some h
            readHandlerBuffer := size } } }.receiver := by
        simp [Stream.receiver, Receiver.arm, QuicStream.call]
      refine Or.inr ⟨hsize, hr, ?_⟩
      rw [harm]
      exact steps_callReadHandler _ .caller fun _ => nofun

theorem turn_asyncReadSome (m : Stream) (h : Handler) (size : Nat) (hreader : m.reader ≠ .released)
    (hh : m.reader = .attached → m.q.rx.readHandler = none) :
    Turn c m.receiver (.asyncReadSome h size) (m.asyncReadSome h size).receiver := by
  rcases m.asyncReadSome_cases h size hreader with ⟨ec, hanswer, heq⟩ | ⟨hsize, hr, hsteps⟩
  · rw [heq, receiver_call]
    exact .answer m.receiver h size ec hanswer
  · exact .read h size hsize hr (hh hr) hsteps

theorem steps_cancelRead (m : Stream) :
    Steps c .rest m.receiver .rest m.cancelRead.receiver := by
  unfold Stream.cancelRead
  split
  · exact .refl _ _
  case h_2 h hh =>
    refine steps_of_eq (Step.cancel m.receiver h hh) ?_
    simp [Stream.receiver, QuicStream.call]

/-! ### Writing -/

/-- What is only about writing. -/
theorem steps_rxSame {q : QuicStream} (h : QuicStream.RxSame m.q q) :
    Steps c .rest m.receiver .rest { m with q := q }.receiver := by
  obtain ⟨cs, hcalls, hcs⟩ := h.calls
  have hclosed : m.q.closed = true → q.closed = true := by
    rcases h.closed with h | ⟨_, h⟩
    · exact fun hc => h.trans hc
    · exact fun _ => h
  have hcalm : c = .calm → m.q.kind = .http3 ∨ q.closed = m.q.closed := by
    rcases h.closed with h | ⟨h, _⟩
    · exact fun _ => Or.inr h
    · exact fun _ => Or.inl h
  refine (Steps.single (Step.close m.receiver q.closed hclosed hcalm)).trans
    (steps_of_eq (Step.calls _ cs hcs) ?_)
  simp [Stream.receiver, h.rx, h.readAborted, h.kind, hcalls]

/-! ### Lifecycle -/

/-- The step `fail()` takes, if nothing but a frame is to be pushed. -/
theorem steps_fail (m : Stream) (ec : ErrorCode) (hcalm : c = .calm → m.q.kind = .http3)
    (hfair : c ≠ .any → m.q.rx.readHandler ≠ none → ec ≠ ErrorCode.success ∧
      (m.frames ≠ [] → m.Awaiting)) :
    Steps c .rest m.receiver .rest (m.fail ec).receiver := by
  have hread : Steps c .rest m.receiver .rest { m with q := m.q.failReading ec }.receiver := by
    unfold QuicStream.failReading
    dsimp only
    -- without a read that waits, the stream is only closed
    split
    case h_1 hh =>
      exact .single (Step.close m.receiver true (fun _ => rfl) fun hf => Or.inl (hcalm hf))
    case h_2 h hh =>
      have hh' : m.q.rx.readHandler = some h := hh
      refine steps_of_eq (Step.fail m.receiver ec h hh hcalm fun hf => ?_) ?_
      · obtain ⟨hec, hawaiting⟩ := hfair hf (by simp [hh'])
        refine ⟨hec, fun hframes => ?_⟩
        obtain ⟨hunread, heof, hnoend⟩ := hawaiting hframes
        exact ⟨hunread, heof, not_carriesEnd hnoend⟩
      simp [Stream.receiver, QuicStream.call]
      rfl
  unfold Stream.fail
  dsimp only
  split
  · exact hread.trans (.single (Step.failing _ ec))
  · exact hread.trans (steps_rxSame (QuicStream.RxSame.failWriting _ ec))

theorem steps_dropReader (m : Stream) (hcalm : c ≠ .calm) (hreader : m.reader = .attached)
    (hfair : c ≠ .any → m.q.rx.readHandler ≠ none → m.q.rx.unread = []) :
    Steps c .rest m.receiver .rest m.dropReader.receiver := by
  have hdrop : Steps c .rest m.receiver .rest
      { m with
        q := { m.q with reader := false }.clearIncoming
        reader := .released }.receiver :=
    .single (Step.drop m.receiver hcalm hreader hfair)
  exact hdrop.trans (steps_rxSame (m := { m with
    q := { m.q with reader := false }.clearIncoming
    reader := .released }) (QuicStream.RxSame.deleteReader _))

theorem steps_detachAll (m : Stream) (hframes : m.frames = []) (hlive : m.destroyed = false) :
    Steps c .rest m.receiver .rest m.detachAll.receiver := by
  have hdetach : Steps c .rest m.receiver .rest
      { m with
        q := { m.q with reader := false, writer := false }.detachReading
        reader := m.detachAll.reader
        destroyed := true }.receiver := by
    refine steps_of_eq (Step.destroy m.receiver hframes hlive) ?_
    have hreader : m.detachAll.reader = m.receiver.detachAll.reader := by
      show _ = if m.reader = .attached then .detached m.receiver.latched else m.reader
      unfold Stream.detachAll
      dsimp only
      cases m.reader with
      | attached => rfl
      | detached ec => rfl
      | released => rfl
    rw [hreader]
    unfold QuicStream.detachReading
    split
    case h_1 hh =>
      have hh' : m.q.rx.readHandler = none := hh
      have hrx : { m.q.rx with readHandler := none } = m.q.rx := by rw [← hh']
      simp [Stream.receiver, Receiver.detachAll, detachCalls, hh', hrx]
    case h_2 h hh =>
      have hh' : m.q.rx.readHandler = some h := hh
      simp [Stream.receiver, Receiver.detachAll, detachCalls, hh', QuicStream.call]
  exact hdetach.trans (steps_rxSame (QuicStream.RxSame.detachWriting _))

end Stream

/-! ### What is fair -/

namespace Stream

variable {c : Conduct} {m m' : Stream}

/-- Fair are all actions but these: to close the stream without an error although a read is waiting;
to fail it (from `delete_writer()`, or with its session), to stop it, or to drop its reader from
inside the completion of a read, while there is something that the read which waits already, or a
later one, should get; and, on a stream that was closed from inside the completion of a read of its
last chunk, to leave another one waiting there for nothing but the end. -/
def Fair (m : Stream) : Act → Prop
  | .fail ec =>
    m.q.rx.readHandler ≠ none → ec ≠ ErrorCode.success ∧ (m.frames ≠ [] → m.Awaiting)
  | .dropWriter =>
    m.q.kind = .http3 → m.q.closed = false → m.q.headersSubmitted = true →
      m.q.tx.eofSubmitted = false → m.frames ≠ [] → m.q.rx.readHandler ≠ none → m.Awaiting
  | .stopSending _ =>
    m.q.closed = false → m.q.readAborted = false → m.q.rx.eofReceived = false →
      m.frames.any Frame.carriesEnd = false
  | .dropReader => m.q.rx.readHandler ≠ none → m.q.rx.unread = []
  | .ret =>
    m.frames.head?.any Frame.carriesEnd = true → m.q.closed = true → m.q.rx.readHandler ≠ none →
      m.q.rx.readHead ≠ [] ∨ m.q.rx.incoming ≠ []
  | _ => True

instance : Decidable m.Awaiting := by
  unfold Awaiting
  infer_instance

instance Fair.decidable : ∀ (m : Stream) (a : Act), Decidable (m.Fair a)
  | m, .fail _ => inferInstanceAs (Decidable (m.q.rx.readHandler ≠ none → _))
  | m, .dropWriter => inferInstanceAs (Decidable (m.q.kind = .http3 → _))
  | m, .stopSending _ => inferInstanceAs (Decidable (m.q.closed = false → _))
  | m, .dropReader => inferInstanceAs (Decidable (m.q.rx.readHandler ≠ none → _))
  | m, .ret => inferInstanceAs (Decidable (m.frames.head?.any Frame.carriesEnd = true → _))
  | _, .startWrite .. | _, .cancelWrite _ | _, .asyncReadSome .. | _, .cancelRead
  | _, .resetStream _ | _, .submitHeaders | _, .recvStreamData .. | _, .recvData _ | _, .endStream
  | _, .streamReset | _, .streamStopSending | _, .recvStopSending | _, .writePkt _ | _, .acked _
  | _, .frame _ | _, .dataReader .. | _, .packet _ | _, .writeAcked _ | _, .destroy =>
    inferInstanceAs (Decidable True)

/-- Nothing that the reader could notice, but data and the end of it: no `abort_reading()`, no
`fail()`, and no `delete_reader()`. -/
def Undisturbed (m : Stream) : Act → Prop
  | .fail _ | .dropReader | .streamStopSending => False
  | .stopSending _ => m.q.closed = true ∨ m.q.readAborted = true ∨ m.q.rx.eofReceived = true
  | .streamReset => m.q.kind = .http3
  | .dropWriter =>
    m.q.kind = .http3 → m.q.closed = false → m.q.headersSubmitted = true →
      m.q.tx.eofSubmitted = true
  | _ => True

end Stream

/-- What the degrees of consideration come down to: a plain stream is never closed by a run that
does not disturb its reader. -/
def Conduct.Allows (c : Conduct) (m : Stream) (a : Act) : Prop :=
  match c with
  | .any => True
  | .fair => m.Fair a
  | .calm => m.Undisturbed a ∧ (m.q.kind ≠ .http3 → m.q.closed = false)

namespace Stream

variable {c : Conduct} {m m' : Stream}

/-- Not to disturb the reader at all is fair. -/
theorem Undisturbed.fair {a : Act} (h : m.Undisturbed a) (hrep : m.past.Rep .rest)
    (hopen : m.q.kind ≠ .http3 → m.q.closed = false) : m.Fair a := by
  cases a with
  | ret =>
    intro hcarries hclosed
    have hplain : m.q.kind ≠ .http3 := by
      obtain ⟨f, hf, hcarries⟩ := (Option.any_eq_true _ _).mp hcarries
      obtain ⟨n, rfl⟩ := Frame.carriesEnd_iff.mp hcarries
      exact (hrep.ending (mem_conts_rest.mpr ⟨n, List.mem_of_head? hf⟩)).1
    exact absurd ((hopen hplain).symm.trans hclosed) Bool.false_ne_true
  | fail ec => exact absurd h id
  | dropReader => exact absurd h id
  | dropWriter =>
    intro hkind hclosed hheaders hnoeof
    exact absurd (hnoeof.symm.trans (h hkind hclosed hheaders)) Bool.false_ne_true
  | stopSending code =>
    intro hclosed haborted hnoeof
    rcases h with h | h | h
    · exact absurd (hclosed.symm.trans h) Bool.false_ne_true
    · exact absurd (haborted.symm.trans h) Bool.false_ne_true
    · exact absurd (hnoeof.symm.trans h) Bool.false_ne_true
  | _ => trivial

theorem fair_of_allows {a : Act} (h : c.Allows m a) (hrep : m.past.Rep .rest) (hc : c ≠ .any) :
    m.Fair a := by
  cases c with
  | any => exact absurd rfl hc
  | fair => exact h
  | calm => exact h.1.fair hrep h.2

theorem steps_dropWriter (m : Stream) (hfair : c ≠ .any → m.Fair .dropWriter) :
    Steps c .rest m.receiver .rest m.dropWriter.receiver := by
  have hsame : QuicStream.RxSame m.q { m.q with writer := false } :=
    ⟨rfl, rfl, rfl, rfl, rfl, Or.inl rfl, .of_eq rfl⟩
  unfold Stream.dropWriter
  dsimp only
  -- a plain stream calls `delete_writer()`, one of HTTP/3 has its own rules
  split
  · exact steps_rxSame (hsame.trans (QuicStream.RxSame.deleteWriter _))
  case h_2 hkind =>
    split
    · exact steps_rxSame (hsame.trans (QuicStream.RxSame.maybeClose _))
    case isFalse hclosed =>
      split
      · refine steps_rxSame (hsame.trans (QuicStream.RxSame.trans ?_
          (QuicStream.RxSame.maybeClose _)))
        have hcalls := (QuicStream.RxSame.call { m.q with writer := false }
          (c := .shutdownStream 0x100) rfl).trans
          (QuicStream.RxSame.call _ (c := .wakeWrite) rfl)
        exact ⟨rfl, rfl, rfl, rfl, rfl, Or.inr ⟨hkind, rfl⟩, hcalls.calls⟩
      case isFalse hheaders =>
        split
        case isTrue heof =>
          have hreset := hsame.trans (QuicStream.RxSame.call _
            (c := .resetStream (QuicStream.resetErrorCode { m.q with writer := false })) rfl)
          refine (steps_rxSame hreset).trans (steps_fail _ .partialMessage (fun _ => hkind) ?_)
          intro hf hh
          have hfair' := hfair hf hkind (Bool.not_eq_true _ ▸ hclosed) (by simpa using hheaders)
            (by simpa using heof)
          exact ⟨by simp, fun hframes => hfair' hframes hh⟩
        · exact steps_rxSame (hsame.trans (QuicStream.RxSame.maybeClose _))

/-- `on_data_chunk()`, with what the stack guarantees when it is called. -/
theorem turn_onDataChunk {a : Act} (m : Stream) (data : List UInt8) (fin : Bool)
    (hlive : m.destroyed = false) (hreceiving : m.receiving = true)
    (haborted : m.q.kind ≠ .http3 → m.q.readAborted = false)
    (hfin : fin = true → m.q.kind ≠ .http3) :
    Turn c m.receiver a (m.onDataChunk data fin).receiver := by
  simp only [Stream.receiving, Stream.idle, Bool.and_eq_true, List.isEmpty_iff, Bool.not_eq_true']
    at hreceiving
  obtain ⟨⟨⟨hframes, hclosed⟩, heof⟩, _⟩ := hreceiving
  unfold Stream.onDataChunk
  split
  · split
    · exact .steps ((Steps.single (Step.ended m.receiver hlive hframes hclosed heof haborted)).trans
        (steps_onEof m))
    · exact .steps (.refl _ _)
  case isFalse hdata =>
    exact .arrive data fin hdata hlive hframes hclosed heof haborted hfin
      (steps_callReadHandler { m with
        q := { m.q with rx := { m.q.rx with incoming := data } }
        received := m.received ++ data } (.chunk fin)
        fun hover => absurd (hclosed.symm.trans hover) Bool.false_ne_true)

/-! ### Actions -/

/-- What `receiving` says about the incoming side. -/
theorem receiving_iff : m.receiving = true ↔
    m.frames = [] ∧ m.q.closed = false ∧ m.q.rx.eofReceived = false ∧ m.peerReset = false := by
  simp [Stream.receiving, Stream.idle, and_assoc]

theorem isPlain_iff : m.isPlain = true ↔ m.q.kind ≠ .http3 := by
  simp [Stream.isPlain]

theorem steps_writePkt {r : PktResult} (h : m.writePkt r = some m') :
    Steps c .rest m.receiver .rest m'.receiver := by
  have hpending := QuicStream.RxSame.pendingData m.q m.q.tx.txSent 16
  unfold Stream.writePkt QuicStream.nextStreamData at h
  dsimp only at h
  split at h
  · cases r with
    | written n =>
      obtain ⟨_, heq⟩ := Option.ite_none_right_eq_some.mp h
      rw [← Option.some.inj heq]
      exact steps_rxSame (hpending.trans (QuicStream.RxSame.onStreamDataWritten _ n _))
    | notWritten =>
      rw [← Option.some.inj h]
      exact steps_rxSame hpending
    | shutWr =>
      rw [← Option.some.inj h]
      exact steps_rxSame (hpending.trans (QuicStream.RxSame.abortWriting _ _))
  · rw [← Option.some.inj h]
    exact steps_rxSame hpending

theorem steps_dataReader (m : Stream) (veccnt header : Nat) :
    Steps c .rest m.receiver .rest (m.dataReader veccnt header).receiver := by
  have hpending := QuicStream.RxSame.pendingData m.q m.q.tx.txOffered veccnt
  unfold Stream.dataReader
  dsimp only
  split
  · exact .refl _ _
  split
  · exact steps_rxSame hpending
  · exact steps_rxSame (hpending.trans (QuicStream.RxSame.onOffered _ _ _))

theorem turn_act (hlive : m.destroyed = false) {a : Act} (hallows : c.Allows m a)
    (hfair : c ≠ .any → m.Fair a) (h : m.act a = some m') :
    Turn c m.receiver a m'.receiver := by
  have hcalm : ¬m.Undisturbed a → c ≠ .calm := by
    rintro hnot rfl
    exact hnot hallows.1
  unfold Stream.act at h
  cases a with
  | startWrite handler buffer eof =>
    obtain ⟨_, heq⟩ := Option.ite_none_right_eq_some.mp h
    rw [← Option.some.inj heq]
    exact .steps (steps_rxSame (QuicStream.RxSame.startWrite m.q handler buffer eof))
  | cancelWrite token =>
    rw [← Option.some.inj h]
    exact .steps (steps_rxSame (QuicStream.RxSame.cancelWrite m.q token))
  | asyncReadSome handler size =>
    obtain ⟨⟨hreader, hh⟩, heq⟩ := Option.ite_none_right_eq_some.mp h
    rw [← Option.some.inj heq]
    exact turn_asyncReadSome m handler size hreader fun _ => hh
  | cancelRead =>
    obtain ⟨_, heq⟩ := Option.ite_none_right_eq_some.mp h
    rw [← Option.some.inj heq]
    exact .steps (steps_cancelRead m)
  | resetStream code =>
    obtain ⟨_, heq⟩ := Option.ite_none_right_eq_some.mp h
    rw [← Option.some.inj heq]
    exact .steps (steps_rxSame (QuicStream.RxSame.userReset m.q code))
  | stopSending code =>
    -- the receiving side of a plain stream is aborted, without the user
    obtain ⟨⟨hplain, _⟩, heq⟩ := Option.ite_none_right_eq_some.mp h
    split at heq
    · rw [← Option.some.inj heq]
      exact .steps (.refl _ _)
    case isFalse hcond =>
      simp only [Bool.or_eq_true, not_or, Bool.not_eq_true] at hcond
      obtain ⟨⟨hclosed, haborted⟩, heof⟩ := hcond
      rw [← Option.some.inj heq]
      exact .steps ((steps_rxSame (QuicStream.RxSame.call m.q rfl)).trans
        (steps_abortReading _ (hcalm (by simp [Undisturbed, hclosed, haborted, heof])) hlive
          (isPlain_iff.mp hplain) fun hf => not_carriesEnd (hfair hf hclosed haborted heof)))
  | submitHeaders =>
    obtain ⟨_, heq⟩ := Option.ite_none_right_eq_some.mp h
    rw [← Option.some.inj heq]
    exact .steps (.refl _ _)
  | dropReader =>
    obtain ⟨hreader, heq⟩ := Option.ite_none_right_eq_some.mp h
    rw [← Option.some.inj heq]
    exact .steps (steps_dropReader m (hcalm id) hreader hfair)
  | dropWriter =>
    obtain ⟨_, heq⟩ := Option.ite_none_right_eq_some.mp h
    rw [← Option.some.inj heq]
    exact .steps (steps_dropWriter m hfair)
  | ret =>
    dsimp only at h
    split at h
    · exact absurd h (by simp)
    case h_2 consumed k frames hframes =>
      rw [← Option.some.inj h]
      refine .steps ((Steps.single (Step.again m.receiver consumed k frames hframes)).trans ?_)
      refine steps_readLoop { m with frames := frames } consumed k (fun hf hclosed hh hread => ?_)
        fun m => steps_resume m k
      rintro rfl
      have hmore := hfair hf (by simp [hframes, Frame.carriesEnd]) hclosed hh
      exact hmore.elim (fun hne => hne hread.1) fun hne => hne hread.2
    case h_3 ec frames hframes =>
      rw [← Option.some.inj h]
      refine .steps ((Steps.single (Step.failed m.receiver ec frames hframes)).trans ?_)
      exact steps_rxSame (m := { m with frames := frames }) (QuicStream.RxSame.failWriting m.q ec)
  | recvStreamData data fin =>
    obtain ⟨⟨hplain, hreceiving⟩, heq⟩ := Option.ite_none_right_eq_some.mp h
    split at heq
    · rw [← Option.some.inj heq]
      exact .steps (.refl _ _)
    case isFalse haborted =>
      rw [← Option.some.inj heq]
      exact turn_onDataChunk m data fin hlive hreceiving (fun _ => Bool.not_eq_true _ ▸ haborted)
        fun _ => isPlain_iff.mp hplain
  | recvData data =>
    obtain ⟨⟨hkind, hreceiving⟩, heq⟩ := Option.ite_none_right_eq_some.mp h
    rw [← Option.some.inj heq]
    exact turn_onDataChunk m data false hlive hreceiving (fun hne => absurd hkind hne) (by simp)
  | endStream =>
    obtain ⟨⟨hkind, hreceiving⟩, heq⟩ := Option.ite_none_right_eq_some.mp h
    obtain ⟨hframes, hclosed, heof, _⟩ := receiving_iff.mp hreceiving
    rw [← Option.some.inj heq]
    exact .steps ((Steps.single (Step.ended m.receiver hlive hframes hclosed heof
      fun hne => absurd hkind hne)).trans (steps_onEof m))
  | streamReset =>
    obtain ⟨hreceiving, heq⟩ := Option.ite_none_right_eq_some.mp h
    obtain ⟨hframes, _⟩ := receiving_iff.mp hreceiving
    split at heq
    case isTrue hplain =>
      rw [← Option.some.inj heq]
      exact .steps (steps_abortReading { m with peerReset := true } (hcalm (isPlain_iff.mp hplain))
        hlive (isPlain_iff.mp hplain) fun _ _ => by simp [hframes])
    · rw [← Option.some.inj heq]
      exact .steps (.refl _ _)
  | streamStopSending =>
    obtain ⟨⟨hplain, hidle⟩, heq⟩ := Option.ite_none_right_eq_some.mp h
    have hframes : m.frames = [] := List.isEmpty_iff.mp hidle
    rw [← Option.some.inj heq]
    exact .steps (steps_abortReading m (hcalm id) hlive (isPlain_iff.mp hplain)
      fun _ _ => by simp [hframes])
  | recvStopSending =>
    obtain ⟨_, heq⟩ := Option.ite_none_right_eq_some.mp h
    rw [← Option.some.inj heq]
    exact .steps (steps_rxSame (QuicStream.RxSame.abortWriting m.q _))
  | writePkt result =>
    obtain ⟨_, heq⟩ := Option.ite_none_right_eq_some.mp h
    exact .steps (steps_writePkt heq)
  | acked stop =>
    obtain ⟨_, heq⟩ := Option.ite_none_right_eq_some.mp h
    rw [← Option.some.inj heq]
    exact .steps (steps_rxSame (QuicStream.RxSame.onAcked m.q stop))
  | frame n =>
    obtain ⟨_, heq⟩ := Option.ite_none_right_eq_some.mp h
    rw [← Option.some.inj heq]
    exact .steps (.refl _ _)
  | dataReader veccnt header =>
    obtain ⟨_, heq⟩ := Option.ite_none_right_eq_some.mp h
    rw [← Option.some.inj heq]
    exact .steps (steps_dataReader m veccnt header)
  | packet n =>
    obtain ⟨_, heq⟩ := Option.ite_none_right_eq_some.mp h
    rw [← Option.some.inj heq]
    exact .steps (steps_rxSame (QuicStream.RxSame.onWriteOffered m.q n))
  | writeAcked n =>
    obtain ⟨_, heq⟩ := Option.ite_none_right_eq_some.mp h
    rw [← Option.some.inj heq]
    exact .steps (steps_rxSame (QuicStream.RxSame.onWriteAcked m.q n))
  | fail ec =>
    rw [← Option.some.inj h]
    exact .steps (steps_fail m ec (fun hc => absurd hc (hcalm id)) hfair)
  | destroy =>
    obtain ⟨hidle, heq⟩ := Option.ite_none_right_eq_some.mp h
    rw [← Option.some.inj heq]
    exact .steps (steps_detachAll m (List.isEmpty_iff.mp hidle) hlive)

theorem turn_actDetached (hdead : m.destroyed = true) (hattached : m.reader ≠ .attached) {a : Act}
    (hallows : c.Allows m a) (h : m.actDetached a = some m') :
    Turn c m.receiver a m'.receiver := by
  unfold Stream.actDetached at h
  split at h
  case h_1 handler size =>
    obtain ⟨hreader, heq⟩ := Option.ite_none_right_eq_some.mp h
    rw [← Option.some.inj heq]
    exact turn_asyncReadSome m handler size hreader fun ha => absurd ha hattached
  case h_2 =>
    rw [← Option.some.inj h]
    have hcalm : c ≠ .calm := by
      rintro rfl
      exact hallows.1
    exact .steps (.single (Step.release m.receiver hcalm hdead))
  case h_3 => exact absurd h (by simp)

/-- **Simulation**: a step of a stream is, for its receiving side, one turn, as considerate as the
action is. -/
theorem reception (hrep : m.past.Rep .rest) {a : Act} (hallows : c.Allows m a)
    (h : m.step a = some m') : Turn c m.past a m'.past := by
  have hfresh : c.Allows m.fresh a := by
    cases c with
    | any => trivial
    | fair => cases a <;> exact hallows
    | calm => cases a <;> exact hallows
  have hfair : c ≠ .any → m.fresh.Fair a := fair_of_allows hfresh hrep
  obtain ⟨u, hu, rfl⟩ := Option.map_eq_some_iff.mp h
  rw [record_past, ← fresh_receiver]
  split at hu
  case isTrue hdead =>
    exact turn_actDetached (m := m.fresh) hdead (hrep.gone hdead).2 hfresh hu
  case isFalse hlive => exact turn_act (Bool.not_eq_true _ ▸ hlive) hfresh hfair hu

theorem rep_init (kind : Kind) (mode : WriteMode) (headers : Bool) :
    (init kind mode headers).past.Rep .rest where
  running := rfl
  alone := by simp [Phase.conts]
  parked := Or.inl ⟨rfl, rfl⟩
  incoming := fun hne => absurd rfl hne
  pending := fun _ _ hh => absurd rfl hh
  credit := rfl
  ending := fun hend => absurd hend (by simp [Receiver.conts, Phase.conts, Stream.past,
    Stream.receiver, init, loops])
  aborted := fun ha => absurd ha (by simp [Stream.past, Stream.receiver, init])
  gone := fun hd => absurd hd (by simp [Stream.past, Stream.receiver, init])
  detached := fun _ hec => absurd hec (by simp [Stream.past, Stream.receiver, init])

theorem step_rep (hrep : m.past.Rep .rest) {a : Act} (h : m.step a = some m') :
    m'.past.Rep .rest :=
  (reception (c := .any) hrep trivial h).rep hrep

theorem Reachable.rep {kind : Kind} {mode : WriteMode} (h : Reachable kind mode m) :
    m.past.Rep .rest := by
  obtain ⟨headers, acts, hrun⟩ := h
  exact run_inv (fun s a t hs ht => step_rep hs ht) (rep_init kind mode headers) hrun

end Stream

end AnyHttp.Quic
