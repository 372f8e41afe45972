import AnyHttp.Lib.Update
import Mathlib.Data.List.Induction

/-!
# The messages of a stream

A stream is cut into messages by an automaton that is fed symbol by symbol and knows when a message
is done.  Readers take their messages off the stream one after the other: a `Progress` is how far
one of them has got, `Feeding` what can happen to all of them, when the next one starts only after
the last one is done.  `Boundary` is what that preserves: every reader starts where the message of
the one before it ends, and has consumed nothing but its own message.
-/

namespace AnyHttp.Lib

/-- What delimits the messages of a stream. -/
structure Automaton (P α : Type*) where
  next : P → α → P
  done : P → Bool
  stream : Nat → α

/-- How far a reader has got with the message that begins at `start`. -/
structure Progress (P : Type*) where
  init : P
  start : Nat
  consumed : Nat
  parser : P

variable {P α : Type*} (A : Automaton P α)

/-- The state after the first `n` symbols from `start` on. -/
def Automaton.feed (init : P) (start : Nat) : Nat → P
  | 0 => init
  | n + 1 => A.next (feed init start n) (A.stream (start + n))

/-- The `n` symbols from `start` on are a message. -/
def Automaton.IsMessage (init : P) (start n : Nat) : Prop :=
  A.done (A.feed init start n) = true ∧ ∀ m < n, A.done (A.feed init start m) = false

theorem Automaton.IsMessage.le {A : Automaton P α} {init : P} {start m n : Nat}
    (hdone : A.done (A.feed init start m) = true)
    (hbefore : ∀ j < n, A.done (A.feed init start j) = false) : n ≤ m := by
  by_contra hlt
  exact absurd ((hbefore m (by omega)).symm.trans hdone) (by decide)

/-- A message has one end. -/
theorem Automaton.IsMessage.unique {A : Automaton P α} {init : P} {start m n : Nat}
    (hm : A.IsMessage init start m) (hn : A.IsMessage init start n) : m = n :=
  Nat.le_antisymm (IsMessage.le hn.1 hm.2) (IsMessage.le hm.1 hn.2)

/-! ### Messages by their symbols -/

section Ends

variable {β : Type*} (next : P → α → P) (done : P → Bool) {p : P} {xs ys : List α}

/-- Fed with `xs` from state `p` on, a parser is done behind the last symbol, and not before. -/
def Ends (p : P) (xs : List α) : Prop :=
  done (xs.foldl next p) = true ∧ ∀ n < xs.length, done ((xs.take n).foldl next p) = false

/-- A message ends with its second part if it does not end within the first one. -/
theorem ends_append_iff : Ends next done p (xs ++ ys) ↔
    (∀ n < xs.length, done ((xs.take n).foldl next p) = false) ∧
      Ends next done (xs.foldl next p) ys := by
  unfold Ends
  rw [List.foldl_append]
  constructor
  · rintro ⟨hdone, hbefore⟩
    refine ⟨?_, hdone, ?_⟩
    · intro n hn
      have h := hbefore n (by rw [List.length_append]; omega)
      rwa [List.take_append_of_le_length (Nat.le_of_lt hn)] at h
    · intro n hn
      have h := hbefore (xs.length + n) (by rw [List.length_append]; omega)
      rwa [List.take_length_add_append, List.foldl_append] at h
  · rintro ⟨hfirst, hdone, hsecond⟩
    refine ⟨hdone, fun n hn => ?_⟩
    rw [List.length_append] at hn
    rcases Nat.lt_or_ge n xs.length with hlt | hge
    · rw [List.take_append_of_le_length (Nat.le_of_lt hlt)]
      exact hfirst n hlt
    · obtain ⟨k, rfl⟩ := Nat.exists_eq_add_of_le hge
      rw [List.take_length_add_append, List.foldl_append]
      exact hsecond k (by omega)

/-- A parser that is done has come to the end of its message. -/
theorem ends_of_done (hdone : done p = true) : Ends next done p xs ↔ xs = [] := by
  constructor
  · intro h
    by_contra hne
    have hbefore : done p = false := h.2 0 (List.length_pos_iff.mpr hne)
    exact absurd (hdone.symm.trans hbefore) (by decide)
  · rintro rfl
    exact ⟨hdone, fun n hn => absurd hn (Nat.not_lt_zero n)⟩

/-- A parser that has so many symbols to go, whatever they are. -/
theorem ends_of_length {n : Nat}
    (h : ∀ ys : List α, ys.length ≤ n → (done (ys.foldl next p) = true ↔ ys.length = n)) :
    Ends next done p xs ↔ xs.length = n := by
  constructor
  · rintro ⟨hdone, hbefore⟩
    rcases Nat.lt_or_ge n xs.length with hlt | hge
    · -- the message has ended before
      have hn : (xs.take n).length = n := List.length_take_of_le (Nat.le_of_lt hlt)
      have hearly := (h (xs.take n) (Nat.le_of_eq hn)).mpr hn
      exact absurd (hearly.symm.trans (hbefore n hlt)) (by decide)
    · exact (h xs hge).mp hdone
  · intro hlength
    refine ⟨(h xs (Nat.le_of_eq hlength)).mpr hlength, fun m hm => ?_⟩
    have hm' : (xs.take m).length = m := List.length_take_of_le (Nat.le_of_lt hm)
    rw [← Bool.not_eq_true]
    intro hdone
    have := (h (xs.take m) (by omega)).mp hdone
    omega

/-- What a stream carries from `start` on is a message if it ends as one. -/
theorem Automaton.isMessage_iff_ends {A : Automaton P α} (sym : β → α) {init : P} {start : Nat}
    {xs : List β} (hcarries : ∀ j x, xs[j]? = some x → A.stream (start + j) = sym x) :
    A.IsMessage init start xs.length ↔ Ends (fun p x => A.next p (sym x)) A.done init xs := by
  have hfeed : ∀ n ≤ xs.length,
      A.feed init start n = (xs.take n).foldl (fun p x => A.next p (sym x)) init := by
    intro n
    induction n with
    | zero => exact fun _ => rfl
    | succ n ih =>
      intro hn
      have hx := List.getElem?_eq_getElem (l := xs) (i := n) (by omega)
      rw [List.take_add_one, hx, List.foldl_append, ← ih (by omega), Automaton.feed,
        hcarries n _ hx]
      rfl
  unfold IsMessage Ends
  rw [hfeed _ (Nat.le_refl _), List.take_length]
  refine and_congr_right fun _ => forall_congr' fun n => imp_congr_right fun hn => ?_
  rw [hfeed n (Nat.le_of_lt hn)]

end Ends

/-- The readers by the symbols they have consumed, if that is one after the other. -/
def takers (consumed : List Nat) : List Nat :=
  (consumed.mapIdx fun i n => List.replicate n i).flatten

theorem takers_concat (ns : List Nat) (n : Nat) :
    takers (ns ++ [n]) = takers ns ++ List.replicate n ns.length := by
  simp [takers, List.mapIdx_append]

/-- What happens to the readers of a stream. -/
inductive Feeding : List (Progress P) → Nat → List Nat → List (Progress P) → Nat → List Nat → Prop
  | same (ps : List (Progress P)) (cursor : Nat) (taken : List Nat) :
      Feeding ps cursor taken ps cursor taken
  | receive (ps : List (Progress P)) (cursor : Nat) (taken : List Nat) (i : Nat) (p : Progress P)
      (hp : ps[i]? = some p) (hdone : A.done p.parser = false) :
      Feeding ps cursor taken
        (ps.set i { p with
          consumed := p.consumed + 1
          parser := A.next p.parser (A.stream cursor) })
        (cursor + 1) (taken ++ [i])
  | next (ps : List (Progress P)) (cursor : Nat) (taken : List Nat) (init : P)
      (hdone : ∀ p ∈ ps.getLast?, A.done p.parser = true) :
      Feeding ps cursor taken (ps ++ [⟨init, cursor, 0, init⟩]) cursor taken

/-- Every reader has been fed the symbols from its start on, and starts where the one before it has
come to the end of its message. -/
structure Boundary (ps : List (Progress P)) (cursor : Nat) (taken : List Nat) : Prop where
  fed : ∀ p ∈ ps, p.parser = A.feed p.init p.start p.consumed ∧
    ∀ m < p.consumed, A.done (A.feed p.init p.start m) = false
  first : ∀ p, ps[0]? = some p → p.start = 0
  consecutive : ∀ i p q, ps[i]? = some p → ps[i + 1]? = some q →
    A.done p.parser = true ∧ q.start = p.start + p.consumed
  cursor_eq : ∀ p ∈ ps.getLast?, cursor = p.start + p.consumed
  cursor_nil : ps = [] → cursor = 0
  taken_eq : taken = takers (ps.map Progress.consumed)

variable {A} {ps ps' : List (Progress P)} {cursor cursor' : Nat} {taken taken' : List Nat}

/-- Only the last reader can have a message to read. -/
theorem Boundary.last_of_not_done (h : Boundary A ps cursor taken) {i : Nat} {p : Progress P}
    (hp : ps[i]? = some p) (hdone : A.done p.parser = false) : i + 1 = ps.length := by
  have hi := (List.getElem?_eq_some_iff.mp hp).1
  by_contra hlast
  have hnext : i + 1 < ps.length := by omega
  have hq := List.getElem?_eq_getElem hnext
  exact absurd ((h.consecutive i p _ hp hq).1.symm.trans hdone) (by decide)

theorem Boundary.receive (h : Boundary A ps cursor taken) {i : Nat} {p : Progress P}
    (hp : ps[i]? = some p) (hdone : A.done p.parser = false) :
    Boundary A
      (ps.set i { p with
        consumed := p.consumed + 1
        parser := A.next p.parser (A.stream cursor) })
      (cursor + 1) (taken ++ [i]) := by
  have hi := h.last_of_not_done hp hdone
  rcases List.eq_nil_or_concat' ps with rfl | ⟨front, last, rfl⟩
  · exact nomatch hp
  have hi' : i = front.length := by simpa using hi
  subst hi'
  have hlast : last = p := by simpa using hp
  subst hlast
  have hcursor : cursor = last.start + last.consumed := h.cursor_eq last (by simp)
  obtain ⟨hparser, hbefore⟩ := h.fed last (by simp)
  rw [set_concat]
  constructor
  · intro q hq
    rcases List.mem_append.mp hq with hq | hq
    · exact h.fed q (List.mem_append_left _ hq)
    · rw [List.mem_singleton.mp hq]
      refine ⟨by rw [hparser, hcursor]; rfl, ?_⟩
      intro m hm
      rcases Nat.lt_succ_iff_lt_or_eq.mp hm with hm | rfl
      · exact hbefore m hm
      · rw [← hparser]
        exact hdone
  · intro q hq
    cases front with
    | nil =>
      rw [List.nil_append, List.getElem?_cons_zero, Option.some.injEq] at hq
      rw [← hq]
      exact h.first last rfl
    | cons r rs => exact h.first q hq
  · intro j q r hq hr
    have hj : j < front.length := by
      have := (List.getElem?_eq_some_iff.mp hr).1
      simp only [List.length_append, List.length_singleton] at this
      omega
    have hq' : (front ++ [last])[j]? = some q := by
      rw [List.getElem?_append_left hj] at hq ⊢
      exact hq
    rcases Nat.lt_or_ge (j + 1) front.length with hj' | hj'
    · rw [List.getElem?_append_left hj'] at hr
      exact h.consecutive j q r hq' (by rw [List.getElem?_append_left hj', hr])
    · -- the reader that got the symbol starts where it started before
      have hjl : j + 1 = front.length := by omega
      have hr' : r.start = last.start := by
        rw [hjl, List.getElem?_concat_length] at hr
        rw [← Option.some.inj hr]
      rw [hr']
      exact h.consecutive j q last hq' (by rw [hjl, List.getElem?_concat_length])
  · intro q hq
    rw [List.getLast?_concat, Option.mem_def, Option.some.injEq] at hq
    rw [← hq, hcursor, Nat.add_assoc]
  · intro hnil
    exact absurd hnil (by simp)
  · have htaken := h.taken_eq
    rw [List.map_append, List.map_singleton, takers_concat, List.length_map] at htaken ⊢
    rw [htaken, List.append_assoc, ← List.replicate_succ']

theorem Boundary.next (h : Boundary A ps cursor taken) (init : P)
    (hdone : ∀ p ∈ ps.getLast?, A.done p.parser = true) :
    Boundary A (ps ++ [⟨init, cursor, 0, init⟩]) cursor taken := by
  constructor
  · intro q hq
    rcases List.mem_append.mp hq with hq | hq
    · exact h.fed q hq
    · rw [List.mem_singleton.mp hq]
      exact ⟨rfl, fun m hm => absurd hm (Nat.not_lt_zero m)⟩
  · intro q hq
    cases ps with
    | nil =>
      rw [List.nil_append, List.getElem?_cons_zero, Option.some.injEq] at hq
      rw [← hq]
      exact h.cursor_nil rfl
    | cons r rs => exact h.first q hq
  · intro j q r hq hr
    have hj : j < ps.length := by
      have := (List.getElem?_eq_some_iff.mp hr).1
      simp only [List.length_append, List.length_singleton] at this
      omega
    rw [List.getElem?_append_left hj] at hq
    rcases Nat.lt_or_ge (j + 1) ps.length with hj' | hj'
    · rw [List.getElem?_append_left hj'] at hr
      exact h.consecutive j q r hq hr
    · have hjl : j + 1 = ps.length := by omega
      have hlast : q ∈ ps.getLast? := by
        rw [List.getLast?_eq_getElem?, ← hjl]
        exact hq
      rw [hjl, List.getElem?_concat_length] at hr
      rw [← Option.some.inj hr]
      exact ⟨hdone q hlast, h.cursor_eq q hlast⟩
  · intro q hq
    rw [List.getLast?_concat, Option.mem_def, Option.some.injEq] at hq
    rw [← hq, Nat.add_zero]
  · intro hnil
    exact absurd hnil (by simp)
  · rw [List.map_append, List.map_singleton, takers_concat, List.replicate_zero, List.append_nil]
    exact h.taken_eq

/-- **A step keeps the boundaries.** -/
theorem Boundary.feeding (h : Boundary A ps cursor taken)
    (hfeeding : Feeding A ps cursor taken ps' cursor' taken') : Boundary A ps' cursor' taken' := by
  cases hfeeding with
  | same => exact h
  | receive i p hp hdone => exact h.receive hp hdone
  | next init hdone => exact h.next init hdone

/-- A reader that is followed by another one has read its message. -/
theorem Boundary.isMessage (h : Boundary A ps cursor taken) {i : Nat} {p q : Progress P}
    (hp : ps[i]? = some p) (hq : ps[i + 1]? = some q) :
    A.IsMessage p.init p.start p.consumed ∧ q.start = p.start + p.consumed := by
  obtain ⟨hdone, hstart⟩ := h.consecutive i p q hp hq
  obtain ⟨hparser, hbefore⟩ := h.fed p (List.mem_of_getElem? hp)
  rw [hparser] at hdone
  exact ⟨⟨hdone, hbefore⟩, hstart⟩

theorem boundary_nil : Boundary A [] 0 [] :=
  ⟨by simp, by simp, by simp, by simp, by simp, rfl⟩

end AnyHttp.Lib
