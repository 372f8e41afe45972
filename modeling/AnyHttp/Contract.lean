import AnyHttp.Common
import AnyHttp.Lib.Run

/-!
# The contract of the writers

What every writer promises, whatever protocol is behind it ("All three protocols answer in the same
order"): an empty write that does not end the body succeeds always; once the body has been ended,
data is answered with `broken_pipe`; and ending it again without data succeeds once the end has been
handed to the protocol engine.  A writer that has been detached keeps to that.

`WriterModel` is what a protocol has to say for that, and `EndPhase` what there is to know about the
past of a writer: whether a `write_eof()` has been accepted, and whether something has taken its end
back since (`withdraws`).  There are two contracts: `Promise`, in which an end that has been
accepted is there for good, and `Contract`, in which it may be taken back.
-/

namespace AnyHttp

open Lib

/-- What has become of the end of a body, as far as the user has asked for it. -/
inductive EndPhase
  | unended
  | ended
  | withdrawn
deriving DecidableEq, Repr

/-- A writer, with everything that can happen to it. -/
structure WriterModel (σ α : Type) where
  step : σ → α → Option σ
  /-- Which actions are writes: the data, and whether it ends the body. -/
  write : α → Option (List UInt8 × Bool)
  /-- What a write is answered with right away; otherwise, it has been accepted. -/
  answer : σ → List UInt8 → Bool → Option ErrorCode
  /-- The user has the writer, and none of its writes is in progress. -/
  ready : σ → Bool
  /-- The end of the body has been handed to the protocol engine. -/
  handed : σ → Bool
  /-- The end of the body that was asked for is taken back. -/
  withdraws : σ → α → Bool
  /-- The session or the stream goes away, and the writer stays. -/
  detaches : α → Bool

namespace WriterModel

variable {σ α : Type} (B : WriterModel σ α) {s : σ} {a : α}

/-- A `write_eof()` that is accepted. -/
def accepts (s : σ) (a : α) : Bool :=
  match B.write a with
  | some (data, true) => (B.answer s data true).isNone
  | _ => false

def next (s : σ) (a : α) (phase : EndPhase) : EndPhase :=
  if B.withdraws s a then .withdrawn else if B.accepts s a then .ended else phase

/-- Everything that can happen to a writer, with what has become of the end of the body. -/
def history : σ × EndPhase → α → Option (σ × EndPhase) := noting B.next B.step

/-- The answers of a writer whose body has been ended if `ended`, and whose engine knows of the end
if `handed`. -/
structure Answers (ended handed : Prop) (s : σ) : Prop where
  empty : B.answer s [] false = some .success
  data : ended → B.ready s = true → ∀ data ≠ [], ∀ eof, B.answer s data eof = some .brokenPipe
  again : handed → B.ready s = true → B.answer s [] true = some .success

/-- An end that has been accepted cannot be taken back. -/
def Promise (s : σ) (phase : EndPhase) : Prop :=
  B.Answers (phase ≠ .unended) (B.handed s = true) s

/-- An end that has been accepted counts unless it has been taken back; and then, the body has not
been ended. -/
structure Contract (s : σ) (phase : EndPhase) : Prop extends
    B.Answers (phase = .ended) (B.handed s = true ∧ phase ≠ .withdrawn) s where
  withdrawn : phase = .withdrawn → B.ready s = true →
    ∀ data ≠ [], ∀ eof, B.answer s data eof ≠ some .brokenPipe

/-- What the engine has been told of stays, and does so when the writer is detached: that takes back
no end but one which the engine has not been told of. -/
structure Kept (s : σ) (a : α) (t : σ) : Prop where
  handed : B.handed s = true → B.handed t = true
  detached : B.detaches a = true → B.handed s = true → B.withdraws s a = false

/-- The promise holds in every state that a run from `s` can reach. -/
def Promises (s : σ) : Prop :=
  ∀ acts t phase, run B.history (s, .unended) acts = some (t, phase) → B.Promise t phase

/-- The contract holds in every state that a run from `s` can reach. -/
def Honours (s : σ) : Prop :=
  ∀ acts t phase, run B.history (s, .unended) acts = some (t, phase) →
    B.Contract t phase ∧ ∀ a u, B.step t a = some u → B.Kept t a u

/-- **The contract by an invariant** between the state of a writer and what has become of
the end. -/
theorem honours_of_inv {I : σ → EndPhase → Prop} (hinit : I s .unended)
    (hstep : ∀ s a t phase, I s phase → B.step s a = some t → I t (B.next s a phase))
    (hcontract : ∀ s phase, I s phase → B.Contract s phase)
    (hkept : ∀ s a t phase, I s phase → B.step s a = some t → B.Kept s a t) : B.Honours s := by
  intro acts t phase hrun
  have hinv : I t phase := noting_inv B.next hstep hinit hrun
  exact ⟨hcontract t phase hinv, fun a u hu => hkept t a u phase hinv hu⟩

/-- The promise is broken by a writer that takes data again, after a `write_eof()`. -/
theorem not_promises (acts : List α) (data : List UInt8) {t : σ} {phase : EndPhase}
    (hrun : run B.history (s, .unended) acts = some (t, phase)) (hphase : phase ≠ .unended)
    (hready : B.ready t = true) (hdata : data ≠ [])
    (hanswer : B.answer t data false ≠ some .brokenPipe) : ¬B.Promises s := by
  intro h
  exact hanswer ((h acts t phase hrun).data hphase hready data hdata false)

theorem next_of_withdraws (h : B.withdraws s a = true) (phase : EndPhase) :
    B.next s a phase = .withdrawn := if_pos h

theorem next_of_neither (hw : B.withdraws s a = false) (h : B.accepts s a = false)
    (phase : EndPhase) : B.next s a phase = phase := by
  rw [next, hw, h, if_neg Bool.false_ne_true, if_neg Bool.false_ne_true]

/-- What is not a write leaves things as they are, unless it takes the end back. -/
theorem next_of_not_write (hwrite : B.write a = none) (hw : B.withdraws s a = false)
    (phase : EndPhase) : B.next s a phase = phase := by
  apply B.next_of_neither hw
  rw [accepts, hwrite]

/-- A write that takes nothing back ends the body if it is to end it and is accepted. -/
theorem next_of_write {data : List UInt8} {eof : Bool} (hwrite : B.write a = some (data, eof))
    (hw : B.withdraws s a = false) (phase : EndPhase) :
    B.next s a phase = if eof && (B.answer s data eof).isNone then .ended else phase := by
  rw [next, hw, if_neg Bool.false_ne_true, accepts, hwrite]
  cases eof with
  | true => rfl
  | false => rfl

end WriterModel

end AnyHttp
