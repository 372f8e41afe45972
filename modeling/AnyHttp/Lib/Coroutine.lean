import AnyHttp.Lib.Run

/-!
# Coroutines

A coroutine is resumed with the answer to the operation that it has waited for, and then begins
another one, or returns.  What the answers are is up to others, so that a coroutine has as many
dialogues as there are answers (`Dialogue`).

* `Dialogue.inv`: what each answer preserves holds of every dialogue.
* `andThen`: one coroutine calls another one, and goes on where it has returned; a dialogue is one
  of the first, and then of the second (`dialogue_andThen`).
-/

namespace AnyHttp.Lib

/-- A coroutine: its state says what it waits for, if it has not returned. -/
structure Coroutine (Op Answer σ : Type*) where
  next : σ → Option Op
  resume : σ → Answer → σ

namespace Coroutine

variable {Op Answer σ τ : Type*} [DecidableEq Op] (C : Coroutine Op Answer σ)
  (D : Coroutine Op Answer τ)

/-- An operation, and how it has been answered. -/
def step (s : σ) (x : Op × Answer) : Option σ :=
  if C.next s = some x.1 then some (C.resume s x.2) else none

/-- Operations and their answers take the coroutine from one state to another. -/
def Dialogue (s : σ) (d : List (Op × Answer)) (t : σ) : Prop := run C.step s d = some t

variable {C D} {s t u : σ} {d e : List (Op × Answer)} {op : Op} {answer : Answer}

theorem step_eq_some :
    C.step s (op, answer) = some t ↔ C.next s = some op ∧ C.resume s answer = t := by
  rw [step, Option.ite_none_right_eq_some, Option.some_inj]

theorem Dialogue.nil (s : σ) : C.Dialogue s [] s := run_nil s

theorem dialogue_nil : C.Dialogue s [] t ↔ s = t := by
  rw [Dialogue, run_nil, Option.some_inj]

theorem dialogue_cons :
    C.Dialogue s ((op, answer) :: d) t ↔
      C.next s = some op ∧ C.Dialogue (C.resume s answer) d t := by
  rw [Dialogue, run_cons_eq_some]
  constructor
  · rintro ⟨v, hv, ht⟩
    obtain ⟨hnext, rfl⟩ := step_eq_some.mp hv
    exact ⟨hnext, ht⟩
  · rintro ⟨hnext, ht⟩
    exact ⟨_, step_eq_some.mpr ⟨hnext, rfl⟩, ht⟩

theorem Dialogue.trans (h₁ : C.Dialogue s d t) (h₂ : C.Dialogue t e u) : C.Dialogue s (d ++ e) u :=
  run_trans h₁ h₂

/-- One more answer. -/
theorem Dialogue.concat (h : C.Dialogue s d t) (hnext : C.next t = some op) (answer : Answer) :
    C.Dialogue s (d ++ [(op, answer)]) (C.resume t answer) :=
  h.trans (dialogue_cons.mpr ⟨hnext, .nil _⟩)

/-- **Invariant rule**: what every answer preserves, of the dialogue so far and the state. -/
theorem Dialogue.inv {P : List (Op × Answer) → σ → Prop}
    (hresume : ∀ d s op answer, P d s → C.next s = some op →
      P (d ++ [(op, answer)]) (C.resume s answer))
    (h : C.Dialogue s e t) (hs : P d s) : P (d ++ e) t := by
  induction e generalizing s d with
  | nil =>
    obtain rfl := dialogue_nil.mp h
    rw [List.append_nil]
    exact hs
  | cons x e ih =>
    obtain ⟨op, answer⟩ := x
    obtain ⟨hnext, h⟩ := dialogue_cons.mp h
    have hall := ih h (hresume d s op answer hs hnext)
    rw [List.append_assoc] at hall
    exact hall

/-- Nothing follows once the coroutine has returned. -/
theorem Dialogue.eq_nil (h : C.Dialogue s d t) (hs : C.next s = none) : d = [] := by
  cases d with
  | nil => rfl
  | cons x d =>
    obtain ⟨op, answer⟩ := x
    obtain ⟨hnext, _⟩ := dialogue_cons.mp h
    exact absurd (hs.symm.trans hnext) (by simp)

/-! ### One after the other -/

/-- `C`, and `D` once it has returned. -/
def andThen (C : Coroutine Op Answer σ) (D : Coroutine Op Answer τ) (enter : σ → τ) :
    Coroutine Op Answer (σ ⊕ τ) where
  next
    | .inl s => (C.next s).or (D.next (enter s))
    | .inr t => D.next t
  resume
    | .inl s, answer =>
      if (C.next s).isSome then .inl (C.resume s answer) else .inr (D.resume (enter s) answer)
    | .inr t, answer => .inr (D.resume t answer)

variable {enter : σ → τ} {x : σ ⊕ τ}

theorem dialogue_andThen_inr {v w : τ} :
    (C.andThen D enter).Dialogue (.inr v) d (.inr w) ↔ D.Dialogue v d w := by
  induction d generalizing v with
  | nil => simp [dialogue_nil]
  | cons y d ih =>
    obtain ⟨op, answer⟩ := y
    rw [dialogue_cons, dialogue_cons, ← ih]
    exact Iff.rfl

/-- **Composition**: a dialogue of the two is one of the first, or all of one of the first and then
one of the second. -/
theorem dialogue_andThen (h : (C.andThen D enter).Dialogue (.inl s) d x) :
    (∃ t, C.Dialogue s d t ∧ x = .inl t) ∨
      ∃ e f t v, d = e ++ f ∧ C.Dialogue s e t ∧ C.next t = none ∧ D.Dialogue (enter t) f v ∧
        x = .inr v := by
  induction d generalizing s with
  | nil =>
    rw [← dialogue_nil.mp h]
    exact .inl ⟨s, .nil s, rfl⟩
  | cons y d ih =>
    obtain ⟨op, answer⟩ := y
    obtain ⟨hnext, h⟩ := dialogue_cons.mp h
    cases hC : C.next s with
    | some op' =>
      have hop : op' = op := by
        have hor : (C.next s).or (D.next (enter s)) = some op := hnext
        rw [hC, Option.some_or] at hor
        exact Option.some.inj hor
      have hresume : (C.andThen D enter).resume (.inl s) answer = .inl (C.resume s answer) := by
        show (if (C.next s).isSome then _ else _) = _
        rw [hC]
        rfl
      rw [hresume] at h
      rw [hop] at hC
      rcases ih h with ⟨t, ht, rfl⟩ | ⟨e, f, t, v, rfl, he, hreturned, hf, rfl⟩
      · exact .inl ⟨t, dialogue_cons.mpr ⟨hC, ht⟩, rfl⟩
      · exact .inr ⟨(op, answer) :: e, f, t, v, rfl, dialogue_cons.mpr ⟨hC, he⟩, hreturned, hf, rfl⟩
    | none =>
      -- the second one begins here
      have hD : D.next (enter s) = some op := by
        have hor : (C.next s).or (D.next (enter s)) = some op := hnext
        rw [hC, Option.none_or] at hor
        exact hor
      have hresume : (C.andThen D enter).resume (.inl s) answer =
          .inr (D.resume (enter s) answer) := by
        show (if (C.next s).isSome then _ else _) = _
        rw [hC]
        rfl
      rw [hresume] at h
      obtain ⟨v, rfl⟩ : ∃ v, x = .inr v := by
        refine Dialogue.inv (P := fun _ x => ∃ v, x = .inr v) ?_ h (d := []) ⟨_, rfl⟩
        rintro _ _ _ answer ⟨v, rfl⟩ _
        exact ⟨D.resume v answer, rfl⟩
      exact .inr ⟨[], (op, answer) :: d, s, v, rfl, .nil s, hC,
        dialogue_cons.mpr ⟨hD, dialogue_andThen_inr.mp h⟩, rfl⟩

end Coroutine

end AnyHttp.Lib
