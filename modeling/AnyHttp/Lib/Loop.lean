import Mathlib.Order.Basic

/-!
# Loops with a variant

The body of a loop either goes on to another state or leaves the loop with a result.  `iterate` is
what such a loop does when it is cut off after `n` passes; a loop whose passes all make some measure
smaller is never cut off (`iterate_isSome`), and `loop` is what it returns.  Both are structural
recursions, so that a loop can be evaluated.

* `loop_eq`: one pass at a time.
* `loop_induction`: what every pass keeps, and what leaving the loop makes of it.
-/

namespace AnyHttp.Lib

variable {σ ρ : Type*} (body : σ → σ ⊕ ρ)

/-- At most `n` passes; `none` if the loop has not been left by then. -/
def iterate : Nat → σ → Option ρ
  | 0, _ => none
  | n + 1, s =>
    match body s with
    | .inl t => iterate n t
    | .inr r => some r

/-- Every pass that goes on makes `size` smaller. -/
def Variant (size : σ → Nat) : Prop := ∀ s t, body s = .inl t → size t < size s

variable {body} {size : σ → Nat}

theorem iterate_isSome (h : Variant body size) (n : Nat) (s : σ) (hn : size s < n) :
    (iterate body n s).isSome = true := by
  induction n generalizing s with
  | zero => omega
  | succ n ih =>
    rw [iterate]
    cases hb : body s with
    | inl t =>
      have hlt := h s t hb
      exact ih t (by omega)
    | inr r => rfl

/-- The result of a loop, which is left after fewer than `size s + 1` passes. -/
def loop (h : Variant body size) (s : σ) : ρ :=
  (iterate body (size s + 1) s).get (iterate_isSome h _ s (Nat.lt_succ_self _))

/-- It does not matter how many more passes there could be. -/
theorem iterate_eq_loop (h : Variant body size) (n : Nat) (s : σ) (hn : size s < n) :
    iterate body n s = some (loop h s) := by
  have hmono : ∀ m n s r, m ≤ n → iterate body m s = some r → iterate body n s = some r := by
    intro m
    induction m with
    | zero => exact fun n s r _ hr => nomatch hr
    | succ m ih =>
      intro n s r hle hr
      obtain ⟨k, rfl⟩ : ∃ k, n = k + 1 := ⟨n - 1, by omega⟩
      rw [iterate] at hr ⊢
      cases hb : body s with
      | inl t =>
        rw [hb] at hr
        exact ih k t r (by omega) hr
      | inr q =>
        rw [hb] at hr
        exact hr
  apply hmono (size s + 1) n s _ (by omega)
  rw [loop, Option.some_get]

theorem loop_of_inl (h : Variant body size) {s t : σ} (hs : body s = .inl t) :
    loop h s = loop h t := by
  have hlt := h s t hs
  have hone := iterate_eq_loop h (size s + 1) s (by omega)
  rw [iterate, hs] at hone
  exact Option.some.inj (hone.symm.trans (iterate_eq_loop h (size s) t hlt))

theorem loop_of_inr (h : Variant body size) {s : σ} {r : ρ} (hs : body s = .inr r) :
    loop h s = r := by
  have hone := iterate_eq_loop h (size s + 1) s (by omega)
  rw [iterate, hs] at hone
  exact (Option.some.inj hone).symm

/-- **Loop rule**: to show something of the result from every state, it is enough to show it where
the loop is left, and to carry it over from the next state where it goes on. -/
theorem loop_induction (h : Variant body size) {P : σ → ρ → Prop}
    (hgo : ∀ s t, body s = .inl t → P t (loop h t) → P s (loop h t))
    (hleave : ∀ s r, body s = .inr r → P s r) (s : σ) : P s (loop h s) := by
  induction hn : size s using Nat.strongRecOn generalizing s with
  | _ n ih =>
  cases hb : body s with
  | inl t =>
    rw [loop_of_inl h hb]
    exact hgo s t hb (ih (size t) (hn ▸ h s t hb) t rfl)
  | inr r =>
    rw [loop_of_inr h hb]
    exact hleave s r hb

end AnyHttp.Lib
