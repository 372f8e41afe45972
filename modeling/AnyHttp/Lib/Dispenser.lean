import Mathlib.Data.List.Basic
import Mathlib.Data.List.Perm.Basic

/-!
# Handing things out in order

Things arrive one by one, and are handed out to callers that ask for them one by one.  A thing that
nobody has asked for waits in a queue, and a caller that there is nothing for waits until something
arrives, unless it is told that it gets nothing.  Calls are numbered in the order they are made in.

`Valid` is what makes it work: things are handed out in the order they have arrived in, to callers
in the order they have called in, and every call is answered once.  Every event preserves it
(`Valid.arrive`, `Valid.ask`, `Valid.cancel`, `Valid.close`), but nothing arrives at the end.
-/

namespace AnyHttp.Lib

variable {α : Type*}

structure Dispenser (α : Type*) where
  queue : List α := []
  /-- The call that waits; there can be one. -/
  waiting : Option Nat := none
  closed : Bool := false
  /-- The number of calls so far. -/
  asked : Nat := 0
  /-- The calls that have been answered, with what they got. -/
  answers : List (Nat × Option α) := []

namespace Dispenser

inductive Event (α : Type*)
  | arrive (a : α)
  | ask
  | cancel
  | close

def answer (d : Dispenser α) (h : Nat) (x : Option α) : Dispenser α :=
  { d with answers := d.answers ++ [(h, x)] }

/-- The call that waits, if there is one, gets nothing. -/
def cancel (d : Dispenser α) : Dispenser α :=
  match d.waiting with
  | none => d
  | some h => { d with waiting := none }.answer h none

def ask (d : Dispenser α) : Dispenser α :=
  let h := d.asked
  let d := { d with asked := h + 1 }
  match d.waiting, d.queue with
  | some _, _ => d.answer h none
  | none, a :: rest => { d with queue := rest }.answer h (some a)
  | none, [] => if d.closed then d.answer h none else { d with waiting := some h }

def next (d : Dispenser α) : Event α → Dispenser α
  | .arrive a =>
    match d.waiting with
    | some h => { d with waiting := none }.answer h (some a)
    | none => { d with queue := d.queue ++ [a] }
  | .ask => d.ask
  | .cancel => d.cancel
  | .close => { d.cancel with closed := true, queue := [] }

/-- What has been handed out. -/
def given (d : Dispenser α) : List α := d.answers.filterMap Prod.snd

/-- The calls that got something. -/
def served (d : Dispenser α) : List Nat := (d.answers.filter (·.2.isSome)).map Prod.fst

/-- A dispenser that these have arrived at. -/
structure Valid (d : Dispenser α) (arrived : List α) : Prop where
  given_queue : d.closed = false → d.given ++ d.queue = arrived
  given_prefix : d.given <+: arrived
  idle : d.waiting ≠ none → d.queue = []
  emptied : d.closed = true → d.queue = [] ∧ d.waiting = none
  tickets : (d.answers.map Prod.fst ++ d.waiting.toList).Perm (List.range d.asked)
  served_sorted : d.served.Pairwise (· < ·)
  turn : ∀ h ∈ d.waiting, ∀ t ∈ d.served, t < h

variable {d : Dispenser α} {arrived : List α}

/-! ### Answers -/

theorem given_answer (d : Dispenser α) (h : Nat) (x : Option α) :
    (d.answer h x).given = d.given ++ x.toList := by
  cases x with
  | none => simp [given, answer]
  | some a => simp [given, answer]

theorem served_answer_none (d : Dispenser α) (h : Nat) : (d.answer h none).served = d.served := by
  simp [served, answer]

theorem served_answer_some (d : Dispenser α) (h : Nat) (a : α) :
    (d.answer h (some a)).served = d.served ++ [h] := by
  simp [served, answer]

theorem map_answer (d : Dispenser α) (h : Nat) (x : Option α) :
    (d.answer h x).answers.map Prod.fst = d.answers.map Prod.fst ++ [h] := by
  simp [answer]

theorem served_subset (d : Dispenser α) {t : Nat} (h : t ∈ d.served) :
    t ∈ d.answers.map Prod.fst := by
  obtain ⟨x, hx, rfl⟩ := List.mem_map.mp h
  exact List.mem_map_of_mem (List.mem_filter.mp hx).1

theorem Valid.served_lt (h : d.Valid arrived) {t : Nat} (ht : t ∈ d.served) : t < d.asked := by
  have hmem : t ∈ d.answers.map Prod.fst ++ d.waiting.toList :=
    List.mem_append_left _ (d.served_subset ht)
  exact List.mem_range.mp (h.tickets.mem_iff.mp hmem)

/-- Whoever is served next has called after the others. -/
theorem sorted_concat {l : List Nat} {h : Nat} (hl : l.Pairwise (· < ·)) (hlt : ∀ t ∈ l, t < h) :
    (l ++ [h]).Pairwise (· < ·) := by
  refine List.pairwise_append.mpr ⟨hl, List.pairwise_singleton _ _, ?_⟩
  intro t ht u hu
  rw [List.mem_singleton.mp hu]
  exact hlt t ht

/-- There is one more call, and it is answered. -/
theorem perm_concat_range {l w : List Nat} {n : Nat} (h : (l ++ w).Perm (List.range n)) :
    ((l ++ [n]) ++ w).Perm (List.range (n + 1)) := by
  rw [List.range_succ, List.append_assoc]
  have hswap : (l ++ ([n] ++ w)).Perm (l ++ (w ++ [n])) := List.perm_append_comm.append_left l
  rw [← List.append_assoc l w] at hswap
  exact hswap.trans (h.append_right [n])

/-! ### Events -/

theorem cancel_waiting (d : Dispenser α) : d.cancel.waiting = none := by
  unfold cancel
  cases hw : d.waiting with
  | none => exact hw
  | some w => rfl

theorem Valid.cancel (h : d.Valid arrived) : d.cancel.Valid arrived := by
  unfold Dispenser.cancel
  cases hw : d.waiting with
  | none => exact h
  | some w =>
    dsimp only
    have hgiven : ({ d with waiting := none }.answer w none).given = d.given := by
      rw [given_answer]
      exact List.append_nil _
    have hserved : ({ d with waiting := none }.answer w none).served = d.served :=
      served_answer_none _ w
    have htickets := h.tickets
    rw [hw] at htickets
    constructor
    · intro hc
      rw [hgiven]
      exact h.given_queue hc
    · rw [hgiven]
      exact h.given_prefix
    · exact fun hne => absurd rfl hne
    · exact fun hc => ⟨(h.emptied hc).1, rfl⟩
    · rw [map_answer, List.append_assoc]
      exact htickets
    · rw [hserved]
      exact h.served_sorted
    · exact fun x hx => nomatch hx

theorem Valid.close (h : d.Valid arrived) : (d.next .close).Valid arrived :=
  { given_queue := fun hc => nomatch hc
    given_prefix := h.cancel.given_prefix
    idle := fun _ => rfl
    emptied := fun _ => ⟨rfl, d.cancel_waiting⟩
    tickets := h.cancel.tickets
    served_sorted := h.cancel.served_sorted
    turn := h.cancel.turn }

theorem Valid.arrive (h : d.Valid arrived) (hopen : d.closed = false) (a : α) :
    (d.next (.arrive a)).Valid (arrived ++ [a]) := by
  have horder := h.given_queue hopen
  have hnot : d.closed ≠ true := by simp [hopen]
  have htickets := h.tickets
  unfold next
  cases hw : d.waiting with
  | some w =>
    dsimp only
    rw [hw] at htickets
    -- nothing is in the queue, so that the caller gets what has just arrived
    have hqueue : d.queue = [] := h.idle (by simp [hw])
    have hgiven : ({ d with waiting := none }.answer w (some a)).given = arrived ++ [a] := by
      rw [given_answer, ← horder, hqueue, List.append_nil]
      rfl
    have hserved : ({ d with waiting := none }.answer w (some a)).served = d.served ++ [w] :=
      served_answer_some _ w a
    constructor
    · intro _
      rw [hgiven]
      show arrived ++ [a] ++ d.queue = arrived ++ [a]
      rw [hqueue, List.append_nil]
    · exact hgiven ▸ List.prefix_refl _
    · exact fun hne => absurd rfl hne
    · exact fun hc => absurd hc hnot
    · rw [map_answer, List.append_assoc]
      exact htickets
    · rw [hserved]
      exact sorted_concat h.served_sorted (h.turn w hw)
    · exact fun x hx => nomatch hx
  | none =>
    dsimp only
    rw [hw] at htickets
    have hall : d.given ++ (d.queue ++ [a]) = arrived ++ [a] := by
      rw [← List.append_assoc, horder]
    exact
      { given_queue := fun _ => hall
        given_prefix := ⟨_, hall⟩
        idle := fun hne => absurd rfl hne
        emptied := fun hc => absurd hc hnot
        tickets := htickets
        served_sorted := h.served_sorted
        turn := fun x hx => nomatch hx }

/-- A call gets nothing, right away. -/
theorem Valid.refuse (h : d.Valid arrived) :
    ({ d with asked := d.asked + 1 }.answer d.asked none).Valid arrived := by
  have hgiven : ({ d with asked := d.asked + 1 }.answer d.asked none).given = d.given := by
    rw [given_answer]
    exact List.append_nil _
  have hserved : ({ d with asked := d.asked + 1 }.answer d.asked none).served = d.served :=
    served_answer_none _ _
  constructor
  · intro hc
    rw [hgiven]
    exact h.given_queue hc
  · rw [hgiven]
    exact h.given_prefix
  · exact h.idle
  · exact h.emptied
  · rw [map_answer]
    exact perm_concat_range h.tickets
  · rw [hserved]
    exact h.served_sorted
  · rw [hserved]
    exact h.turn

/-- A call gets what is at the front of the queue. -/
theorem Valid.serve (h : d.Valid arrived) (hw : d.waiting = none) {a : α} {rest : List α}
    (hq : d.queue = a :: rest) :
    ({ d with asked := d.asked + 1, queue := rest }.answer d.asked (some a)).Valid arrived := by
  have hopen : d.closed = false := by
    by_contra hc
    have hempty := (h.emptied (by simpa using hc)).1
    rw [hq] at hempty
    contradiction
  have horder := h.given_queue hopen
  rw [hq] at horder
  have hgiven : ({ d with asked := d.asked + 1, queue := rest }.answer d.asked (some a)).given =
      d.given ++ [a] := given_answer _ _ _
  have hall : d.given ++ [a] ++ rest = arrived := by
    rw [List.append_assoc]
    exact horder
  constructor
  · intro _
    rw [hgiven]
    exact hall
  · rw [hgiven]
    exact ⟨rest, hall⟩
  · exact fun hne => absurd hw hne
  · intro hc
    rw [show d.closed = true from hc] at hopen
    contradiction
  · rw [map_answer]
    exact perm_concat_range h.tickets
  · rw [served_answer_some]
    exact sorted_concat h.served_sorted fun t ht => h.served_lt ht
  · intro x hx
    rw [show d.waiting = some x from hx] at hw
    contradiction

/-- A call has to wait. -/
theorem Valid.wait (h : d.Valid arrived) (hw : d.waiting = none) (hq : d.queue = [])
    (hopen : d.closed ≠ true) :
    { d with asked := d.asked + 1, waiting := some d.asked }.Valid arrived := by
  have htickets := h.tickets.append_right [d.asked]
  rw [hw, Option.toList_none, List.append_nil, ← List.range_succ] at htickets
  exact
    { given_queue := h.given_queue
      given_prefix := h.given_prefix
      idle := fun _ => hq
      emptied := fun hc => absurd hc hopen
      tickets := htickets
      served_sorted := h.served_sorted
      turn := fun x hx t ht => by
        obtain rfl := Option.some.inj hx
        exact h.served_lt ht }

theorem Valid.ask (h : d.Valid arrived) : d.ask.Valid arrived := by
  have hrefuse := h.refuse
  have hserve := @Valid.serve _ _ _ h
  have hwait := h.wait
  obtain ⟨queue, waiting, closed, asked, answers⟩ := d
  cases waiting with
  | some w => exact hrefuse
  | none =>
    cases queue with
    | cons a rest => exact hserve rfl rfl
    | nil =>
      cases closed with
      | true => exact hrefuse
      | false => exact hwait rfl rfl Bool.false_ne_true

/-- Nothing has happened yet. -/
theorem valid_empty : (({} : Dispenser α)).Valid [] :=
  { given_queue := fun _ => rfl
    given_prefix := List.prefix_refl _
    idle := fun _ => rfl
    emptied := fun hc => nomatch hc
    tickets := List.Perm.refl _
    served_sorted := List.Pairwise.nil
    turn := nofun }

end Dispenser

end AnyHttp.Lib
