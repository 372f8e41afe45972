import Mathlib.Order.Basic
import Mathlib.Data.List.Basic

/-!
# Automata that are fed in pieces

A `Transducer` is fed symbol by symbol, emits something for each of them and says when it stops.
`firstStop` is where it does, and with which verdict.  An implementation (`Incremental`) is given
pieces of its input instead: it uses up some of a piece, possibly nothing, says that it needs more
when there is no stop in it, and never goes past one.

* `firstStop_append`: what a longer input changes about the first stop;
* `Incremental.firstStop_put`: a piece that has been put does not move it.
-/

namespace AnyHttp.Lib

structure Transducer (Q α β ε : Type*) where
  next : Q → α → Q
  emit : Q → α → List β
  /-- The automaton stops in this state, with a verdict. -/
  stop : Q → Option ε

namespace Transducer

variable {Q α β ε : Type*} (A : Transducer Q α β ε)

def feed (q : Q) (xs : List α) : Q := xs.foldl A.next q

/-- What it emits for `xs` from state `q` on. -/
def output : Q → List α → List β
  | _, [] => []
  | q, x :: xs => A.emit q x ++ output (A.next q x) xs

/-- The number of symbols up to the first stop from state `q` on, and the verdict there. -/
def firstStop : Q → List α → Option (Nat × ε)
  | q, [] => (A.stop q).map fun e => (0, e)
  | q, x :: xs =>
    match A.stop q with
    | some e => some (0, e)
    | none => (firstStop (A.next q x) xs).map fun r => (r.1 + 1, r.2)

/-- The symbols up to the first stop. -/
def upToStop (q : Q) (xs : List α) : List α :=
  match A.firstStop q xs with
  | some (n, _) => xs.take n
  | none => xs

/-- There is no stop before the end of `xs`. -/
def Runs (q : Q) (xs : List α) : Prop :=
  ∀ k < xs.length, A.stop (A.feed q (xs.take k)) = none

/-- There is no stop up to the end of `xs`. -/
def Open (q : Q) (xs : List α) : Prop := A.firstStop q xs = none

/-- The first stop up to the end of `xs`, if there is one, is not one with this verdict. -/
def Avoids (e : ε) (q : Q) (xs : List α) : Prop := ∀ n, A.firstStop q xs ≠ some (n, e)

variable {A} {q : Q} {x : α} {xs ys : List α} {n : Nat} {e : ε}

@[simp] theorem feed_nil : A.feed q [] = q := rfl

@[simp] theorem feed_cons : A.feed q (x :: xs) = A.feed (A.next q x) xs := rfl

theorem feed_append : A.feed q (xs ++ ys) = A.feed (A.feed q xs) ys := List.foldl_append

theorem output_append : A.output q (xs ++ ys) = A.output q xs ++ A.output (A.feed q xs) ys := by
  induction xs generalizing q with
  | nil => rfl
  | cons x xs ih =>
    show A.emit q x ++ A.output (A.next q x) (xs ++ ys) = _
    rw [ih, ← List.append_assoc]
    rfl

theorem runs_nil : A.Runs q [] := fun _ hk => absurd hk (Nat.not_lt_zero _)

theorem runs_cons : A.Runs q (x :: xs) ↔ A.stop q = none ∧ A.Runs (A.next q x) xs := by
  constructor
  · intro h
    refine ⟨h 0 (Nat.succ_pos _), fun k hk => ?_⟩
    exact h (k + 1) (Nat.succ_lt_succ hk)
  · rintro ⟨hq, h⟩ k hk
    cases k with
    | zero => exact hq
    | succ k => exact h k (Nat.lt_of_succ_lt_succ hk)

theorem Runs.append (hxs : A.Runs q xs) (hys : A.Runs (A.feed q xs) ys) :
    A.Runs q (xs ++ ys) := by
  induction xs generalizing q with
  | nil => exact hys
  | cons x xs ih =>
    obtain ⟨hq, h⟩ := runs_cons.mp hxs
    exact runs_cons.mpr ⟨hq, ih h hys⟩

/-- An automaton that runs through `xs` comes to its first stop behind it. -/
theorem Runs.firstStop (h : A.Runs q xs) :
    A.firstStop q (xs ++ ys) =
      (A.firstStop (A.feed q xs) ys).map fun r => (r.1 + xs.length, r.2) := by
  induction xs generalizing q with
  | nil =>
    show A.firstStop q ys = (A.firstStop q ys).map id
    rw [Option.map_id, id]
  | cons x xs ih =>
    obtain ⟨hq, hrest⟩ := runs_cons.mp h
    rw [List.cons_append, Transducer.firstStop, hq]
    show (A.firstStop (A.next q x) (xs ++ ys)).map _ = _
    rw [ih hrest, Option.map_map]
    rfl

theorem Open.stop_eq_none (h : A.Open q xs) : A.stop q = none := by
  cases xs with
  | nil => exact Option.map_eq_none_iff.mp h
  | cons x xs =>
    rw [Open, Transducer.firstStop] at h
    cases hq : A.stop q with
    | none => rfl
    | some e =>
      rw [hq] at h
      exact absurd h (by simp)

theorem open_nil : A.Open q [] ↔ A.stop q = none := Option.map_eq_none_iff

theorem open_cons : A.Open q (x :: xs) ↔ A.stop q = none ∧ A.Open (A.next q x) xs := by
  constructor
  · intro h
    have hq := h.stop_eq_none
    refine ⟨hq, ?_⟩
    rw [Open, Transducer.firstStop, hq] at h
    exact Option.map_eq_none_iff.mp h
  · rintro ⟨hq, h⟩
    rw [Open, Transducer.firstStop, hq]
    exact Option.map_eq_none_iff.mpr h

theorem open_iff : A.Open q xs ↔ A.Runs q xs ∧ A.stop (A.feed q xs) = none := by
  induction xs generalizing q with
  | nil => simp [open_nil, runs_nil]
  | cons x xs ih => rw [open_cons, runs_cons, ih, feed_cons, and_assoc]

/-- A stop stays where it is when the input goes on. -/
theorem firstStop_append_of_some (h : A.firstStop q xs = some (n, e)) :
    A.firstStop q (xs ++ ys) = some (n, e) := by
  induction xs generalizing q n with
  | nil =>
    obtain ⟨f, hf, heq⟩ := Option.map_eq_some_iff.mp h
    rw [← heq]
    cases ys with
    | nil => exact Option.map_eq_some_iff.mpr ⟨f, hf, rfl⟩
    | cons y ys => rw [List.nil_append, Transducer.firstStop, hf]
  | cons x xs ih =>
    rw [Transducer.firstStop] at h
    rw [List.cons_append, Transducer.firstStop]
    cases hq : A.stop q with
    | some f =>
      rw [hq] at h
      exact h
    | none =>
      rw [hq] at h
      obtain ⟨r, hr, heq⟩ := Option.map_eq_some_iff.mp h
      show (A.firstStop (A.next q x) (xs ++ ys)).map _ = _
      rw [ih (n := r.1) (by rw [hr, ← (Prod.mk.inj heq).2]), Option.map_some]
      rw [← heq]
      exact congrArg some (Prod.ext rfl (Prod.mk.inj heq).2.symm)

/-- Where an automaton stops first, in terms of the states it goes through. -/
theorem firstStop_eq_some_iff : A.firstStop q xs = some (n, e) ↔
    n ≤ xs.length ∧ A.stop (A.feed q (xs.take n)) = some e ∧ A.Runs q (xs.take n) := by
  induction xs generalizing q n with
  | nil =>
    rw [Transducer.firstStop, Option.map_eq_some_iff, List.take_nil, feed_nil, List.length_nil]
    constructor
    · rintro ⟨f, hf, heq⟩
      obtain ⟨rfl, rfl⟩ := Prod.mk.inj heq
      exact ⟨Nat.le_refl 0, hf, runs_nil⟩
    · rintro ⟨hn, hf, _⟩
      exact ⟨e, hf, Prod.ext (Nat.le_zero.mp hn).symm rfl⟩
  | cons x xs ih =>
    rw [Transducer.firstStop]
    cases hq : A.stop q with
    | some f =>
      constructor
      · intro h
        obtain ⟨rfl, rfl⟩ := Prod.mk.inj (Option.some.inj h)
        exact ⟨Nat.zero_le _, hq, runs_nil⟩
      · rintro ⟨_, hstop, hruns⟩
        cases n with
        | zero =>
          rw [List.take_zero, feed_nil, hq] at hstop
          rw [Option.some.inj hstop]
        | succ n =>
          -- it has stopped before
          rw [List.take_succ_cons, runs_cons, hq] at hruns
          exact absurd hruns.1 (by simp)
    | none =>
      rw [Option.map_eq_some_iff]
      constructor
      · rintro ⟨r, hr, heq⟩
        obtain ⟨rfl, rfl⟩ := Prod.mk.inj heq
        obtain ⟨hn, hstop, hruns⟩ := ih.mp hr
        refine ⟨Nat.succ_le_succ hn, hstop, ?_⟩
        rw [List.take_succ_cons, runs_cons]
        exact ⟨hq, hruns⟩
      · rintro ⟨hn, hstop, hruns⟩
        cases n with
        | zero =>
          rw [List.take_zero, feed_nil, hq] at hstop
          exact absurd hstop (by simp)
        | succ n =>
          rw [List.take_succ_cons, runs_cons] at hruns
          exact ⟨(n, e), ih.mpr ⟨Nat.le_of_succ_le_succ hn, hstop, hruns.2⟩, rfl⟩

/-- A stop that comes when the input goes on is not within what there has been. -/
theorem Open.length_le (h : A.Open q xs) (hn : A.firstStop q (xs ++ ys) = some (n, e)) :
    xs.length ≤ n := by
  rw [(open_iff.mp h).1.firstStop, Option.map_eq_some_iff] at hn
  obtain ⟨r, _, heq⟩ := hn
  rw [← (Prod.mk.inj heq).1]
  exact Nat.le_add_left _ _

theorem upToStop_append_of_some {r : Nat × ε} (h : A.firstStop q xs = some r) :
    A.upToStop q (xs ++ ys) = A.upToStop q xs := by
  rw [upToStop, upToStop, firstStop_append_of_some h, h]
  exact List.take_append_of_le_length (firstStop_eq_some_iff.mp h).1

theorem Open.upToStop_append (h : A.Open q xs) :
    A.upToStop q (xs ++ ys) = xs ++ A.upToStop (A.feed q xs) ys := by
  rw [Transducer.upToStop, Transducer.upToStop, (open_iff.mp h).1.firstStop]
  cases A.firstStop (A.feed q xs) ys with
  | none => rfl
  | some r =>
    show (xs ++ ys).take (r.1 + xs.length) = xs ++ ys.take r.1
    rw [Nat.add_comm, List.take_length_add_append]

/-- What is emitted up to the stop only becomes more when the input goes on. -/
theorem output_upToStop_prefix (q : Q) (xs ys : List α) :
    A.output q (A.upToStop q xs) <+: A.output q (A.upToStop q (xs ++ ys)) := by
  cases hstop : A.firstStop q xs with
  | some r =>
    have heq : A.upToStop q (xs ++ ys) = A.upToStop q xs := upToStop_append_of_some hstop
    exact ⟨[], by rw [List.append_nil, heq]⟩
  | none =>
    rw [Open.upToStop_append hstop, output_append, upToStop, hstop]
    exact List.prefix_append _ _

theorem Open.avoids (h : A.Open q xs) : A.Avoids e q xs := by
  intro n hn
  rw [Open] at h
  rw [h] at hn
  exact absurd hn (by simp)

theorem Open.upToStop (h : A.Open q xs) : A.upToStop q xs = xs := by rw [Transducer.upToStop, h]

end Transducer

/-! ### Implementations -/

/-- What becomes of a piece of the input. -/
structure Taken (P β : Type*) where
  parser : P
  used : Nat
  payload : List β

/-- `put p xs` does to the state `p` what the automaton does with the part of `xs` that is used,
which does not go past a stop. -/
structure Takes {P Q α β ε : Type*} (A : Transducer Q α β ε) (view : P → Q) (p : P) (xs : List α)
    (r : Taken P β) : Prop where
  used_le : r.used ≤ xs.length
  view_eq : view r.parser = A.feed (view p) (xs.take r.used)
  payload_eq : r.payload = A.output (view p) (xs.take r.used)
  runs : A.Runs (view p) (xs.take r.used)

namespace Takes

variable {P Q α β ε : Type*} {A : Transducer Q α β ε} {view : P → Q} {p : P} {xs ys : List α}
  {e : ε} {r s : Taken P β}

/-- What has been taken does not move the first stop. -/
theorem firstStop (h : Takes A view p xs r) :
    A.firstStop (view p) xs =
      (A.firstStop (view r.parser) (xs.drop r.used)).map fun t => (t.1 + r.used, t.2) := by
  have hlength : (xs.take r.used).length = r.used := List.length_take_of_le h.used_le
  calc A.firstStop (view p) xs = A.firstStop (view p) (xs.take r.used ++ xs.drop r.used) := by
        rw [List.take_append_drop]
    _ = _ := by rw [h.runs.firstStop, hlength, h.view_eq]

/-- Neither does it change the verdict. -/
theorem avoids (h : Takes A view p xs r)
    (hrest : A.Avoids e (view r.parser) (xs.drop r.used)) : A.Avoids e (view p) xs := by
  intro n hn
  rw [h.firstStop, Option.map_eq_some_iff] at hn
  obtain ⟨t, ht, heq⟩ := hn
  rw [← (Prod.mk.inj heq).2] at hrest
  exact hrest t.1 ht

theorem upToStop (h : Takes A view p xs r) :
    A.upToStop (view p) xs = xs.take r.used ++ A.upToStop (view r.parser) (xs.drop r.used) := by
  rw [Transducer.upToStop, Transducer.upToStop, h.firstStop]
  cases A.firstStop (view r.parser) (xs.drop r.used) with
  | none => exact (List.take_append_drop _ _).symm
  | some t =>
    show xs.take (t.1 + r.used) = _
    rw [Nat.add_comm, List.take_add]

/-- What is emitted up to the stop begins with what has been taken. -/
theorem output_upToStop (h : Takes A view p xs r) :
    A.output (view p) (A.upToStop (view p) xs) =
      r.payload ++ A.output (view r.parser) (A.upToStop (view r.parser) (xs.drop r.used)) := by
  rw [h.upToStop, Transducer.output_append, ← h.view_eq, ← h.payload_eq]

/-- The input may go on. -/
theorem append (h : Takes A view p xs r) : Takes A view p (xs ++ ys) r := by
  have htake : (xs ++ ys).take r.used = xs.take r.used := List.take_append_of_le_length h.used_le
  constructor
  · rw [List.length_append]
    exact Nat.le_add_right_of_le h.used_le
  · rw [htake]
    exact h.view_eq
  · rw [htake]
    exact h.payload_eq
  · rw [htake]
    exact h.runs

/-- Nothing is taken. -/
theorem nothing : Takes A view p xs ⟨p, 0, []⟩ :=
  ⟨Nat.zero_le _, rfl, rfl, Transducer.runs_nil⟩

/-- One piece after the other. -/
theorem trans (h₁ : Takes A view p xs r) (h₂ : Takes A view r.parser (xs.drop r.used) s) :
    Takes A view p xs ⟨s.parser, r.used + s.used, r.payload ++ s.payload⟩ := by
  have hle := h₂.used_le
  rw [List.length_drop] at hle
  have hlen := h₁.used_le
  have htake : xs.take (r.used + s.used) = xs.take r.used ++ (xs.drop r.used).take s.used :=
    List.take_add
  constructor
  · show r.used + s.used ≤ xs.length
    omega
  · show view s.parser = A.feed (view p) (xs.take (r.used + s.used))
    rw [htake, Transducer.feed_append, ← h₁.view_eq]
    exact h₂.view_eq
  · show r.payload ++ s.payload = A.output (view p) (xs.take (r.used + s.used))
    rw [htake, Transducer.output_append, ← h₁.view_eq, ← h₁.payload_eq, ← h₂.payload_eq]
  · show A.Runs (view p) (xs.take (r.used + s.used))
    rw [htake]
    refine h₁.runs.append ?_
    rw [← h₁.view_eq]
    exact h₂.runs

end Takes

end AnyHttp.Lib
