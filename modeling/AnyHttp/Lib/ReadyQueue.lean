import Mathlib.Data.List.Count
import Mathlib.Logic.Function.Basic

/-!
# Queues of what is ready

A component queues the keys of what is ready to go on, and keeps a flag with each of them that tells
if it is in the queue, so that nobody has to search for it.  `Tracks flag queue` says that the flags
are right.  What has no flag has been given up: it may still be in the queue, any number of times,
and is dropped when it gets to the front.

There is one rule for each way in which the flags and the queue change together.
-/

namespace AnyHttp.Lib

variable {κ : Type*} [DecidableEq κ]

/-- What has its flag set is in the queue once, and what has it cleared is not in there. -/
def Tracks (flag : κ → Option Bool) (queue : List κ) : Prop :=
  ∀ k b, flag k = some b → queue.count k = if b = true then 1 else 0

namespace Tracks

variable {flag : κ → Option Bool} {queue rest : List κ} {k : κ} {b : Bool}

theorem mem_iff (h : Tracks flag queue) (hk : flag k = some b) : k ∈ queue ↔ b = true := by
  have hcount := h k b hk
  rw [← List.count_pos_iff, hcount]
  cases b <;> simp

theorem push (h : Tracks flag queue) (hk : flag k = some false) :
    Tracks (Function.update flag k (some true)) (queue ++ [k]) := by
  intro j b hj
  rw [List.count_append]
  by_cases hjk : j = k
  · subst hjk
    rw [Function.update_self, Option.some.injEq] at hj
    rw [h j false hk, ← hj, List.count_singleton_self]
    rfl
  · rw [Function.update_of_ne hjk] at hj
    rw [h j b hj, List.count_singleton, if_neg fun heq => hjk (beq_iff_eq.mp heq).symm,
      Nat.add_zero]

/-- The key at the front leaves the queue. -/
theorem pop (h : Tracks flag (k :: rest)) (hk : flag k = some b) :
    Tracks (Function.update flag k (some false)) rest := by
  intro j c hj
  by_cases hjk : j = k
  · subst hjk
    rw [Function.update_self, Option.some.injEq] at hj
    have hcount := h j b hk
    rw [List.count_cons_self] at hcount
    rw [← hj, if_neg Bool.false_ne_true]
    split at hcount <;> omega
  · rw [Function.update_of_ne hjk] at hj
    rw [← h j c hj, List.count_cons_of_ne (Ne.symm hjk)]

/-- What has been given up is dropped from the front. -/
theorem drop (h : Tracks flag (k :: rest)) (hk : flag k = none) : Tracks flag rest := by
  intro j b hj
  have hjk : k ≠ j := by
    rintro rfl
    exact nomatch hk.symm.trans hj
  rw [← h j b hj, List.count_cons_of_ne hjk]

theorem add (h : Tracks flag queue) (hk : k ∉ queue) :
    Tracks (Function.update flag k (some false)) queue := by
  intro j b hj
  by_cases hjk : j = k
  · subst hjk
    rw [Function.update_self, Option.some.injEq] at hj
    rw [List.count_eq_zero_of_not_mem hk, ← hj]
    rfl
  · rw [Function.update_of_ne hjk] at hj
    exact h j b hj

/-- A key is given up, wherever it is. -/
theorem forget (h : Tracks flag queue) : Tracks (Function.update flag k none) queue := by
  intro j b hj
  by_cases hjk : j = k
  · subst hjk
    rw [Function.update_self] at hj
    exact nomatch hj
  · rw [Function.update_of_ne hjk] at hj
    exact h j b hj

end Tracks

end AnyHttp.Lib
