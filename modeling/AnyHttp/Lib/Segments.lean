import Mathlib.Order.Nat
import Mathlib.Data.List.Basic

/-!
# Segments of a byte stream

A sender that keeps copies of what is not acknowledged yet holds a list of `Segment`s, each a
piece of the stream with the offset it begins at.  `Contiguous lo segs hi` says that they follow
each other without a gap and cover `[lo, hi)`; `Carries body segs` that each of them is what the
stream has at its offset.  Both are kept by appending the next piece at the end
(`Contiguous.append`, `Carries.append`) and by dropping pieces from the front
(`Contiguous.dropBelow`, `Carries.of_sublist`), which is all a sender does to them.
-/

namespace AnyHttp.Lib

/-- A piece of a stream: `data` begins at `offset`. -/
structure Segment (α : Type*) where
  offset : Nat
  data : List α
deriving DecidableEq, Repr

variable {α : Type*}

/-- Where a segment ends. -/
def Segment.stop (c : Segment α) : Nat := c.offset + c.data.length

/-- The segments are non-empty, follow each other without a gap, and cover `[lo, hi)`. -/
def Contiguous : Nat → List (Segment α) → Nat → Prop
  | lo, [], hi => lo = hi
  | lo, c :: cs, hi => c.offset = lo ∧ c.data ≠ [] ∧ Contiguous c.stop cs hi

/-- Every segment holds what `body` has at its offset. -/
def Carries (body : List α) (cs : List (Segment α)) : Prop :=
  ∀ c ∈ cs, c.stop ≤ body.length ∧ c.data = (body.drop c.offset).take c.data.length

theorem Contiguous.le {lo hi : Nat} {cs : List (Segment α)} (h : Contiguous lo cs hi) :
    lo ≤ hi := by
  induction cs generalizing lo with
  | nil => exact le_of_eq h
  | cons c cs ih =>
    obtain ⟨rfl, _, htail⟩ := h
    exact le_trans (Nat.le_add_right _ _) (ih htail)

/-- Appending the piece that comes next. -/
theorem Contiguous.append {lo hi : Nat} {cs : List (Segment α)} {data : List α}
    (h : Contiguous lo cs hi) (hdata : data ≠ []) :
    Contiguous lo (cs ++ [⟨hi, data⟩]) (hi + data.length) := by
  induction cs generalizing lo with
  | nil =>
    obtain rfl : lo = hi := h
    exact ⟨rfl, hdata, rfl⟩
  | cons c cs ih => exact ⟨h.1, h.2.1, ih h.2.2⟩

/-- Every segment of a contiguous list lies within what the list covers. -/
theorem Contiguous.mem_bounds {lo hi : Nat} {cs : List (Segment α)} (h : Contiguous lo cs hi)
    {c : Segment α} (hc : c ∈ cs) : lo ≤ c.offset ∧ c.stop ≤ hi := by
  induction cs generalizing lo with
  | nil => exact absurd hc List.not_mem_nil
  | cons d cs ih =>
    obtain ⟨rfl, _, htail⟩ := h
    rcases List.mem_cons.mp hc with rfl | hc
    · exact ⟨le_rfl, htail.le⟩
    · obtain ⟨hlo, hhi⟩ := ih htail hc
      exact ⟨le_trans (Nat.le_add_right _ _) hlo, hhi⟩

/-- Drops the segments that end at or below `pos`, from the front. -/
def dropBelow (pos : Nat) : List (Segment α) → List (Segment α)
  | [] => []
  | c :: cs => if c.stop ≤ pos then dropBelow pos cs else c :: cs

theorem dropBelow_sublist (pos : Nat) (cs : List (Segment α)) :
    (dropBelow pos cs).Sublist cs := by
  induction cs with
  | nil => exact List.Sublist.refl _
  | cons c cs ih =>
    rw [dropBelow]
    split
    · exact ih.trans (List.sublist_cons_self c cs)
    · exact List.Sublist.refl _

/-- What is left after `dropBelow pos` begins at or below `pos`, and its first segment, if there
is one, reaches past it. -/
theorem Contiguous.dropBelow {lo hi pos : Nat} {cs : List (Segment α)} (h : Contiguous lo cs hi)
    (hlo : lo ≤ pos) :
    ∃ lo', lo' ≤ pos ∧ Contiguous lo' (dropBelow pos cs) hi ∧
      ∀ c ∈ (Lib.dropBelow pos cs).head?, pos < c.stop := by
  induction cs generalizing lo with
  | nil => exact ⟨lo, hlo, h, by simp [Lib.dropBelow]⟩
  | cons c cs ih =>
    obtain ⟨rfl, hne, htail⟩ := h
    rw [Lib.dropBelow]
    by_cases hc : c.stop ≤ pos
    · rw [if_pos hc]
      exact ih htail hc
    · rw [if_neg hc]
      refine ⟨c.offset, hlo, ⟨rfl, hne, htail⟩, ?_⟩
      intro d hd
      rw [List.head?_cons, Option.mem_some_iff] at hd
      rw [← hd]
      omega

theorem Carries.of_sublist {body : List α} {cs ds : List (Segment α)} (h : Carries body cs)
    (hsub : ds.Sublist cs) : Carries body ds :=
  fun c hc => h c (hsub.subset hc)

theorem Carries.append {body : List α} {cs : List (Segment α)} {c : Segment α}
    (h : Carries body cs)
    (hc : c.stop ≤ body.length ∧ c.data = (body.drop c.offset).take c.data.length) :
    Carries body (cs ++ [c]) := by
  intro d hd
  rcases List.mem_append.mp hd with hd | hd
  · exact h d hd
  · rw [List.mem_singleton] at hd
    exact hd ▸ hc

/-- A body that agrees with the old one up to the end of the segments carries them as well. -/
theorem Carries.of_take_eq {body body' : List α} {cs : List (Segment α)} {n : Nat}
    (h : Carries body cs) (hstop : ∀ c ∈ cs, c.stop ≤ n) (hn : n ≤ body'.length)
    (heq : body'.take n = body.take n) : Carries body' cs := by
  intro c hc
  have hle := hstop c hc
  refine ⟨le_trans hle hn, ?_⟩
  obtain ⟨_, hdata⟩ := h c hc
  have hslice : ∀ l : List α,
      (l.drop c.offset).take c.data.length = ((l.take n).drop c.offset).take c.data.length := by
    intro l
    rw [List.drop_take, List.take_take, Nat.min_eq_left (by unfold Segment.stop at hle; omega)]
  rw [hslice body', heq, ← hslice body]
  exact hdata

end AnyHttp.Lib
