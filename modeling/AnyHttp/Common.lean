import Mathlib.Algebra.Order.Ring.Nat
import Mathlib.Data.List.TakeWhile

/-!
# Error codes, completion handlers and texts

What the components have in common: the error codes their operations complete with, the completion
handlers that callers pass in, and texts, which are lists of bytes.

An `error_code` is one of the codes of namespace `errors`, one of `std::errc`, or a code that only
passes through (`other`).  As in C++, `success` is the one that counts as "no error".
-/

namespace AnyHttp

/-- The error codes operations complete with, see namespace `errors` of the runtime. -/
inductive ErrorCode
  | success
  | eof
  | partialMessage
  | canceled
  | wouldBlock
  | alreadyStarted
  | connectionAborted
  | connectionReset
  | brokenPipe
  | badDescriptor
  | headerLimit
  | other (code : Nat)
deriving DecidableEq, Repr

/-- A completion handler: which operation of which caller it stands for, and the cancellation slot
the caller has associated with it, if any. -/
structure Handler where
  id : Nat
  slot : Option Nat
deriving DecidableEq, Repr

/-! ### Texts -/

/-- A text of the source, as bytes. -/
def text (s : String) : List UInt8 := s.toList.map Char.toUInt8

/-- `find()` of a character from a position on. -/
def find (c : UInt8) (s : List UInt8) (start : Nat) : Option Nat :=
  ((s.drop start).findIdx? (· == c)).map (· + start)

/-- `rfind()` of a character. -/
def rfind (c : UInt8) (s : List UInt8) : Option Nat :=
  (s.reverse.findIdx? (· == c)).map fun i => s.length - 1 - i

/-! ### Numbers -/

section Numbers

variable {γ : Type} (digit : γ → Option Nat) (width : Nat)

/-- The number with these decimal digits. -/
def ofDigits (digits : List Nat) : Nat := digits.foldl (fun n d => 10 * n + d) 0

/-- `std::from_chars()` for an unsigned integer of `width` bits: the number that the text begins
with and what is left behind its digits, if there are any and the number fits. -/
def fromChars (s : List γ) : Option (Nat × List γ) :=
  let digits := s.takeWhile fun c => (digit c).isSome
  let n := ofDigits (digits.filterMap digit)
  if digits = [] ∨ 2 ^ width ≤ n then none
  else some (n, s.dropWhile fun c => (digit c).isSome)

/-- ... if that is all there is, as callers make sure of who look at `ptr`. -/
def fromCharsAll (s : List γ) : Option Nat :=
  match fromChars digit width s with
  | some (n, []) => some n
  | _ => none

variable {digit width}

theorem fromCharsAll_eq_some_iff {s : List γ} {n : Nat} :
    fromCharsAll digit width s = some n ↔
      s ≠ [] ∧ (∀ c ∈ s, (digit c).isSome = true) ∧ ofDigits (s.filterMap digit) = n ∧
        n < 2 ^ width := by
  have hsplit := List.takeWhile_append_dropWhile (p := fun c => (digit c).isSome) (l := s)
  unfold fromCharsAll fromChars
  dsimp only
  constructor
  · intro h
    split at h
    · rename_i heq
      obtain ⟨hfits, hpair⟩ := Option.ite_none_left_eq_some.mp heq
      obtain ⟨hvalue, hrest⟩ := Prod.mk.inj (Option.some.inj hpair)
      rw [hrest, List.append_nil] at hsplit
      rw [hsplit] at hfits hvalue
      rw [not_or, Nat.not_le] at hfits
      rw [← Option.some.inj h, ← hvalue]
      exact ⟨hfits.1, List.takeWhile_eq_self_iff.mp hsplit, rfl, hfits.2⟩
    · exact nomatch h
  · rintro ⟨hne, hdigits, rfl, hfits⟩
    rw [List.takeWhile_eq_self_iff.mpr hdigits, List.dropWhile_eq_nil_iff.mpr hdigits,
      if_neg (not_or.mpr ⟨hne, Nat.not_le.mpr hfits⟩)]

end Numbers

/-- What a character stands for as a decimal digit. -/
def charDigit (c : Char) : Option Nat := if c.isDigit then some (c.toNat - '0'.toNat) else none

end AnyHttp
