import Mathlib.Data.List.TakeWhile

/-!
# Lists of elements with quoted strings

The elements of a list are separated by `separator`, but not where that stands between quotes; and
between quotes, `escape` takes the meaning from the symbol behind it.  `scan` follows a text, and
`Closed` says that it ends outside of quotes.

A `Scanner` reads from the front of a text, and leaves what it has not read, whether it succeeds or
fails.  It is `Elementwise` if it has no business beyond the element that it starts in: where it
stops is outside of quotes, or nothing is left at all; and it does not see what stands behind a
separator that is outside of quotes.  Scanners put together from elementwise ones are elementwise.

* `skip_apart`: to move past the next separator is elementwise, too, in the only sense there is.
* `Elementwise.unsplit`: what is left of a single element is (part of) a single element.
-/

namespace AnyHttp.Lib

/-- The symbols with a meaning of their own. -/
structure Quoting (α : Type*) where
  quote : α
  escape : α
  separator : α
  separator_ne : separator ≠ quote

/-- Where in a text a symbol stands. -/
inductive Scan
  | outside
  | inside
  /-- Inside of quotes, behind an `escape`. -/
  | escaped
deriving DecidableEq, Repr

namespace Quoting

variable {α β γ : Type*} [DecidableEq α] (q : Quoting α)

def next : Scan → α → Scan
  | .outside, c => if c = q.quote then .inside else .outside
  | .inside, c => if c = q.escape then .escaped else if c = q.quote then .outside else .inside
  | .escaped, _ => .inside

def scan (st : Scan) (s : List α) : Scan := s.foldl q.next st

/-- A text that ends outside of quotes. -/
def Closed (s : List α) : Prop := q.scan .outside s = .outside

instance (s : List α) : Decidable (q.Closed s) := inferInstanceAs (Decidable (_ = _))

/-- There is no separator outside of quotes, if the text is read from `st` on. -/
def Unsplit (st : Scan) (s : List α) : Prop :=
  ∀ x y, s = x ++ q.separator :: y → q.scan st x ≠ .outside

/-- Behind the next separator that is outside of quotes. -/
def skip : Scan → List α → List α
  | _, [] => []
  | .outside, c :: s => if c = q.separator then s else skip (q.next .outside c) s
  | .inside, c :: s => skip (q.next .inside c) s
  | .escaped, _ :: s => skip .inside s

variable {q}

@[simp] theorem scan_nil (st : Scan) : q.scan st [] = st := rfl

@[simp] theorem scan_cons (st : Scan) (c : α) (s : List α) :
    q.scan st (c :: s) = q.scan (q.next st c) s := rfl

theorem scan_append (st : Scan) (s t : List α) : q.scan st (s ++ t) = q.scan (q.scan st s) t :=
  List.foldl_append

theorem closed_append {w s : List α} (hw : q.Closed w) : q.Closed (w ++ s) ↔ q.Closed s := by
  rw [Closed, scan_append, hw, Closed]

theorem Unsplit.of_append {st : Scan} {w s : List α} (h : q.Unsplit st (w ++ s)) :
    q.Unsplit (q.scan st w) s := by
  intro x y hs
  rw [← scan_append]
  apply h (w ++ x) y
  rw [hs, List.append_assoc]

/-- Symbols that neither open quotes nor separate. -/
theorem closed_of_forall {w : List α} (h : ∀ c ∈ w, c ≠ q.quote) : q.Closed w := by
  induction w with
  | nil => rfl
  | cons c w ih =>
    have hc : q.next .outside c = .outside := if_neg (h c List.mem_cons_self)
    rw [Closed, scan_cons, hc]
    exact ih fun d hd => h d (List.mem_cons_of_mem c hd)

/-! ### Moving on to the next element -/

theorem skip_cons_of_ne {c : α} {s : List α} {st : Scan} (h : st = .outside → c ≠ q.separator) :
    q.skip st (c :: s) = q.skip (q.next st c) s := by
  cases st with
  | outside => rw [skip, if_neg (h rfl)]
  | inside => rw [skip]
  | escaped =>
    rw [skip]
    rfl

/-- At least one symbol is skipped, if there is one. -/
theorem length_skip (st : Scan) (s : List α) : (q.skip st s).length ≤ s.length - 1 := by
  induction s generalizing st with
  | nil => cases st <;> exact Nat.le_refl _
  | cons c s ih =>
    rw [List.length_cons, Nat.add_sub_cancel]
    by_cases hsep : st = .outside ∧ c = q.separator
    · obtain ⟨rfl, rfl⟩ := hsep
      have hskip : q.skip .outside (q.separator :: s) = s := if_pos rfl
      rw [hskip]
    · rw [skip_cons_of_ne fun ho hc => hsep ⟨ho, hc⟩]
      have := ih (q.next st c)
      omega

/-- In a text that ends outside of quotes, the next separator is in the text, or it is the one that
follows. -/
theorem skip_apart {st : Scan} {s : List α} (h : q.scan st s = .outside) (t : List α) :
    (q.skip st s = [] ∧ q.skip st (s ++ q.separator :: t) = t) ∨
      ((q.skip st s).length < s.length ∧ q.Closed (q.skip st s) ∧
        q.skip st (s ++ q.separator :: t) = q.skip st s ++ q.separator :: t) := by
  induction s generalizing st with
  | nil =>
    rw [scan_nil] at h
    subst h
    left
    exact ⟨rfl, if_pos rfl⟩
  | cons c s ih =>
    by_cases hsep : st = .outside ∧ c = q.separator
    · obtain ⟨rfl, rfl⟩ := hsep
      -- the first symbol is the separator
      right
      have hskip : ∀ r, q.skip .outside (q.separator :: r) = r := fun r => if_pos rfl
      have hnext : q.next .outside q.separator = .outside := if_neg q.separator_ne
      rw [List.cons_append, hskip, hskip]
      refine ⟨by simp, ?_, rfl⟩
      rw [scan_cons, hnext] at h
      exact h
    · have hne : st = .outside → c ≠ q.separator := fun ho hc => hsep ⟨ho, hc⟩
      rw [List.cons_append, skip_cons_of_ne hne, skip_cons_of_ne hne]
      rcases ih h with ⟨hnil, hskip⟩ | ⟨hlen, hclosed, hskip⟩
      · exact .inl ⟨hnil, hskip⟩
      · right
        refine ⟨?_, hclosed, hskip⟩
        rw [List.length_cons]
        omega

/-- There is nothing behind the last element. -/
theorem Unsplit.skip {st : Scan} {s : List α} (h : q.Unsplit st s) : q.skip st s = [] := by
  induction s generalizing st with
  | nil => cases st <;> rfl
  | cons c s ih =>
    have hne : st = .outside → c ≠ q.separator := by
      rintro rfl rfl
      exact h [] s rfl rfl
    rw [skip_cons_of_ne hne]
    exact ih (Unsplit.of_append (w := [c]) h)

end Quoting

/-! ### Scanners -/

section

variable {α : Type}

theorem dropWhile_append_of_not {f : α → Bool} {c : α} (hc : f c = false) (s t : List α) :
    (s ++ c :: t).dropWhile f = s.dropWhile f ++ c :: t := by
  induction s with
  | nil => simp [hc]
  | cons d s ih =>
    rw [List.cons_append, List.dropWhile_cons, List.dropWhile_cons, ih]
    split <;> rfl

theorem takeWhile_append_of_not {f : α → Bool} {c : α} (hc : f c = false) (s t : List α) :
    (s ++ c :: t).takeWhile f = s.takeWhile f := by
  induction s with
  | nil => simp [hc]
  | cons d s ih => rw [List.cons_append, List.takeWhile_cons, List.takeWhile_cons, ih]

end

/-- Reads from the front of a text; what is left is left on failure, too. -/
structure Scanner (α β : Type) where
  run : List α → Option β × List α

namespace Scanner

variable {α β γ : Type}

instance : Monad (Scanner α) where
  pure x := ⟨fun s => (some x, s)⟩
  bind p f := ⟨fun s =>
    match p.run s with
    | (some x, s) => (f x).run s
    | (none, s) => (none, s)⟩

/-- Nothing could be read, and nothing has been. -/
def fail : Scanner α β := ⟨fun s => (none, s)⟩

/-- Goes on with a value, if there is one. -/
def ofOption : Option β → Scanner α β
  | some x => pure x
  | none => fail

theorem bind_of_some {p : Scanner α β} {f : β → Scanner α γ} {s t : List α} {x : β}
    (h : p.run s = (some x, t)) : (p >>= f).run s = (f x).run t := by
  show (match p.run s with | (some x, s) => (f x).run s | (none, s) => (none, s)) = (f x).run t
  rw [h]

theorem bind_of_none {p : Scanner α β} {f : β → Scanner α γ} {s t : List α}
    (h : p.run s = (none, t)) : (p >>= f).run s = (none, t) := by
  show (match p.run s with | (some x, s) => (f x).run s | (none, s) => (none, s)) = (none, t)
  rw [h]

end Scanner

namespace Quoting

variable {α β γ : Type} [DecidableEq α] (q : Quoting α)

/-- From `s`, a scanner has got to `t`: over a part that ends outside of quotes, or, in a text that
does not, to the end. -/
def Advances (s t : List α) : Prop := (∃ w, s = w ++ t ∧ q.Closed w) ∨ t = [] ∧ ¬ q.Closed s

/-- A scanner that has no business beyond its element. -/
structure Elementwise (p : Scanner α β) : Prop where
  advance : ∀ s, q.Advances s (p.run s).2
  apart : ∀ s t, q.Closed s →
    p.run (s ++ q.separator :: t) = ((p.run s).1, (p.run s).2 ++ q.separator :: t)

variable {q}

theorem Advances.refl (s : List α) : q.Advances s s := .inl ⟨[], rfl, rfl⟩

theorem Advances.trans {s t u : List α} (h₁ : q.Advances s t) (h₂ : q.Advances t u) :
    q.Advances s u := by
  rcases h₁ with ⟨w, rfl, hw⟩ | ⟨rfl, hs⟩
  · rcases h₂ with ⟨v, rfl, hv⟩ | ⟨rfl, ht⟩
    · left
      refine ⟨w ++ v, (List.append_assoc w v u).symm, ?_⟩
      rw [closed_append hw]
      exact hv
    · right
      rw [closed_append hw]
      exact ⟨rfl, ht⟩
  · rcases h₂ with ⟨v, hv, _⟩ | ⟨rfl, _⟩
    · exact .inr ⟨(List.append_eq_nil_iff.mp hv.symm).2, hs⟩
    · exact .inr ⟨rfl, hs⟩

theorem Advances.closed {s t : List α} (h : q.Advances s t) (hs : q.Closed s) : q.Closed t := by
  rcases h with ⟨w, rfl, hw⟩ | ⟨_, hopen⟩
  · exact (closed_append hw).mp hs
  · exact absurd hs hopen

theorem Advances.length_le {s t : List α} (h : q.Advances s t) : t.length ≤ s.length := by
  rcases h with ⟨w, rfl, _⟩ | ⟨rfl, _⟩
  · rw [List.length_append]
    omega
  · exact Nat.zero_le _

/-- What is left of a single element. -/
theorem Advances.unsplit {s t : List α} (h : q.Advances s t) (hs : q.Unsplit .outside s) :
    q.Unsplit .outside t := by
  rcases h with ⟨w, rfl, hw⟩ | ⟨rfl, _⟩
  · have := hs.of_append
    rwa [hw] at this
  · intro x y hnil
    exact absurd hnil.symm (by simp)

/-- Reading on over symbols that neither open quotes nor separate. -/
theorem advances_append {w s : List α} (h : ∀ c ∈ w, c ≠ q.quote) : q.Advances (w ++ s) s :=
  .inl ⟨w, rfl, closed_of_forall h⟩

theorem elementwise_pure (x : β) : q.Elementwise (pure x : Scanner α β) :=
  ⟨Advances.refl, fun _ _ _ => rfl⟩

theorem elementwise_fail : q.Elementwise (Scanner.fail : Scanner α β) :=
  ⟨Advances.refl, fun _ _ _ => rfl⟩

theorem elementwise_ofOption (o : Option β) : q.Elementwise (Scanner.ofOption o : Scanner α β) := by
  cases o with
  | none => exact elementwise_fail
  | some x => exact elementwise_pure x

/-- Reads as many symbols of a kind as there are. -/
theorem elementwise_takeWhile {f : α → Bool} (hquote : f q.quote = false)
    (hseparator : f q.separator = false) (g : List α → β) :
    q.Elementwise (⟨fun s => (some (g (s.takeWhile f)), s.dropWhile f)⟩ : Scanner α β) := by
  constructor
  · intro s
    have hplain : ∀ c ∈ s.takeWhile f, c ≠ q.quote := by
      rintro c hc rfl
      exact absurd ((List.mem_takeWhile_imp hc).symm.trans hquote) (by decide)
    have hadvances := advances_append (s := s.dropWhile f) hplain
    rwa [List.takeWhile_append_dropWhile] at hadvances
  · intro s t _
    show (some (g ((s ++ q.separator :: t).takeWhile f)), (s ++ q.separator :: t).dropWhile f) = _
    rw [takeWhile_append_of_not hseparator, dropWhile_append_of_not hseparator]

theorem Elementwise.bind {p : Scanner α β} {f : β → Scanner α γ} (hp : q.Elementwise p)
    (hf : ∀ x, q.Elementwise (f x)) : q.Elementwise (p >>= f) := by
  constructor
  · intro s
    have hadvance := hp.advance s
    rcases hs : p.run s with ⟨_ | x, t⟩
    · rw [Scanner.bind_of_none hs]
      rwa [hs] at hadvance
    · rw [Scanner.bind_of_some hs]
      rw [hs] at hadvance
      exact hadvance.trans ((hf x).advance t)
  · intro s t hclosed
    have happart := hp.apart s t hclosed
    have hadvance := hp.advance s
    rcases hs : p.run s with ⟨_ | x, u⟩
    · rw [hs] at happart
      rw [Scanner.bind_of_none hs, Scanner.bind_of_none happart]
    · rw [hs] at happart hadvance
      rw [Scanner.bind_of_some hs, Scanner.bind_of_some happart]
      exact (hf x).apart u t (hadvance.closed hclosed)

end Quoting

end AnyHttp.Lib
