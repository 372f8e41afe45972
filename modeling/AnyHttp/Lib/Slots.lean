import Mathlib.Data.List.Basic
import Mathlib.Logic.Function.Basic

/-!
# Operations, their completions, and the slots they are cancelled through

An operation is started at a place `l : L` with a ticket `h : H`, and waits there until it
completes.  `pending l` is the ticket that waits at `l`.  Two things are worth knowing of a
component that does this for many places at once.

* `Once`: every ticket is completed at most once.  Tickets are numbered in the order in which they
  are issued, and `Once.conserve` says what one step may do to them.
* `Routed`: a signal on a slot reaches exactly the operation that was started with this slot.  A
  slot holds one function, which hits whatever waits at the place it was made for, and keeps it
  (`assign` does not replace one).  `Routed.start` says when an operation may be started: its slot
  must be free or hold the right function already, and no other slot may hold that (`Free`).
-/

namespace AnyHttp.Lib

variable {L H S F : Type*}

/-! ### Slots -/

/-- A signal on `s` reaches what waits at `l` exactly if that was started with `s`. -/
def Routed (slotOf : H → Option S) (slots : S → Option F) (pending : L → Option H)
    (fnAt : L → F) : Prop :=
  ∀ l h, pending l = some h → ∀ s, slotOf h = some s ↔ slots s = some (fnAt l)

/-- An operation with this slot and this function does not get in the way of others. -/
structure Free (slots : S → Option F) (slot : Option S) (fn : F) : Prop where
  others : ∀ s, slots s = some fn → slot = some s
  own : ∀ s, slot = some s → slots s = none ∨ slots s = some fn

variable {slotOf : H → Option S} {slots : S → Option F} {pending pending' : L → Option H}
  {fnAt fnAt' : L → F}

/-- Operations that complete leave the slots of those that still wait routed. -/
theorem Routed.keep (h : Routed slotOf slots pending fnAt)
    (hpending : ∀ l x, pending' l = some x → pending l = some x ∧ fnAt' l = fnAt l) :
    Routed slotOf slots pending' fnAt' := by
  intro l x hx s
  obtain ⟨hold, hfn⟩ := hpending l x hx
  rw [hfn]
  exact h l x hold s

section Slots

variable [DecidableEq S]

/-- Puts a function into a slot, unless there is no slot or there is a function in it already. -/
def assign (slots : S → Option F) (slot : Option S) (fn : F) : S → Option F :=
  match slot with
  | none => slots
  | some s => if slots s = none then Function.update slots s (some fn) else slots

theorem assign_of_eq_some {slots : S → Option F} {slot : Option S} {fn f : F} {s : S}
    (h : slots s = some f) : assign slots slot fn s = some f := by
  cases slot with
  | none => exact h
  | some t =>
    simp only [assign]
    split_ifs with hnone
    · have hne : s ≠ t := by
        rintro rfl
        exact absurd (hnone.symm.trans h) (by simp)
      rw [Function.update_of_ne hne]
      exact h
    · exact h

theorem assign_self {slots : S → Option F} {fn : F} {s : S} (h : slots s = none) :
    assign slots (some s) fn s = some fn := by
  simp [assign, h]

theorem eq_some_of_assign {slots : S → Option F} {slot : Option S} {fn f : F} {s : S}
    (h : assign slots slot fn s = some f) : slots s = some f ∨ slot = some s ∧ f = fn := by
  cases slot with
  | none => exact Or.inl h
  | some t =>
    simp only [assign] at h
    split_ifs at h with hnone
    · by_cases hs : s = t
      · subst hs
        rw [Function.update_self] at h
        exact Or.inr ⟨rfl, (Option.some.inj h).symm⟩
      · rw [Function.update_of_ne hs] at h
        exact Or.inl h
    · exact Or.inl h

/-- An operation is started, which binds its slot; others may complete. -/
theorem Routed.start (h : Routed slotOf slots pending fnAt) {x : H} {fn : F}
    (hfree : Free slots (slotOf x) fn)
    (hpending : ∀ l y, pending' l = some y →
      y = x ∧ fnAt' l = fn ∨ pending l = some y ∧ fnAt' l = fnAt l ∧ fnAt l ≠ fn) :
    Routed slotOf (assign slots (slotOf x) fn) pending' fnAt' := by
  intro l y hy s
  rcases hpending l y hy with ⟨rfl, hfn⟩ | ⟨hold, hfn, hne⟩
  · rw [hfn]
    constructor
    · intro hs
      rcases hfree.own s hs with hnone | hsome
      · rw [hs]
        exact assign_self hnone
      · exact assign_of_eq_some hsome
    · intro hs
      rcases eq_some_of_assign hs with hsome | ⟨hslot, _⟩
      · exact hfree.others s hsome
      · exact hslot
  · rw [hfn, h l y hold s]
    constructor
    · exact assign_of_eq_some
    · intro hs
      rcases eq_some_of_assign hs with hsome | ⟨_, heq⟩
      · exact hsome
      · exact absurd heq hne

/-- A slot that no pending operation was started with is cleared, or used for something else. -/
theorem Routed.replace (h : Routed slotOf slots pending fnAt) {s : S} {f : Option F}
    (hunused : ∀ l x, pending l = some x → slotOf x ≠ some s) (hf : ∀ l, f ≠ some (fnAt l)) :
    Routed slotOf (Function.update slots s f) pending fnAt := by
  intro l x hx t
  by_cases hs : t = s
  · subst hs
    rw [Function.update_self]
    exact iff_of_false (hunused l x hx) (hf l)
  · rw [Function.update_of_ne hs]
    exact h l x hx t

end Slots

/-! ### Tickets -/

/-- Every ticket below `n` has been issued, none is completed twice, and none waits that has been
completed, or at two places. -/
structure Once (idOf : H → Nat) (pending : L → Option H) (completed : List Nat) (n : Nat) :
    Prop where
  nodup : completed.Nodup
  completed_lt : ∀ d ∈ completed, d < n
  pending_lt : ∀ l x, pending l = some x → idOf x < n
  open_ : ∀ l x, pending l = some x → idOf x ∉ completed
  unique : ∀ l l' x x', pending l = some x → pending l' = some x' → idOf x = idOf x' → l = l'

variable {idOf : H → Nat} {pending pending' : L → Option H} {completed ds : List Nat} {n n' : Nat}

/-- The tickets that wait at these places. -/
def waiting (idOf : H → Nat) (pending : L → Option H) (ls : List L) : List Nat :=
  ls.filterMap fun l => (pending l).map idOf

theorem mem_waiting {ls : List L} {d : Nat} :
    d ∈ waiting idOf pending ls ↔ ∃ l ∈ ls, ∃ x, pending l = some x ∧ idOf x = d := by
  simp only [waiting, List.mem_filterMap, Option.map_eq_some_iff]

/-- If no ticket waits twice, two places with the same one are the same. -/
theorem waiting_inj {ls : List L} (h : (waiting idOf pending ls).Nodup) {l l' : L} {x x' : H}
    (hl : l ∈ ls) (hl' : l' ∈ ls) (hx : pending l = some x) (hx' : pending l' = some x')
    (hid : idOf x = idOf x') : l = l' := by
  induction ls with
  | nil => exact absurd hl List.not_mem_nil
  | cons k ks ih =>
    have hfirst (k' : L) (y y' : H) (hk' : k' ∈ ks) (hy : pending k = some y)
        (hy' : pending k' = some y') : idOf y ≠ idOf y' := by
      intro heq
      have hnodup : (idOf y :: waiting idOf pending ks).Nodup := by
        simpa [waiting, hy] using h
      exact (List.nodup_cons.mp hnodup).1 (mem_waiting.mpr ⟨k', hk', y', hy', heq.symm⟩)
    have hrest : (waiting idOf pending ks).Nodup := by
      have hsub : (waiting idOf pending ks).Sublist (waiting idOf pending (k :: ks)) :=
        (List.sublist_cons_self k ks).filterMap _
      exact hsub.nodup h
    rcases List.mem_cons.mp hl with hk | hks
    · rcases List.mem_cons.mp hl' with hk' | hks'
      · exact hk.trans hk'.symm
      · exact absurd hid (hfirst l' x x' hks' (hk ▸ hx) hx')
    · rcases List.mem_cons.mp hl' with hk' | hks'
      · exact absurd hid.symm (hfirst l x' x hks (hk' ▸ hx') hx)
      · exact ih hrest hks hks'

theorem Once.nodup_waiting (h : Once idOf pending completed n) {ls : List L} (hls : ls.Nodup) :
    (waiting idOf pending ls).Nodup := by
  induction ls with
  | nil => exact List.nodup_nil
  | cons k ks ih =>
    obtain ⟨hk, hks⟩ := List.nodup_cons.mp hls
    cases hp : pending k with
    | none => simpa [waiting, hp] using ih hks
    | some x =>
      have hnot : idOf x ∉ waiting idOf pending ks := by
        intro hmem
        obtain ⟨l, hl, y, hy, hid⟩ := mem_waiting.mp hmem
        exact hk (h.unique l k y x hy hp hid ▸ hl)
      have hcons : waiting idOf pending (k :: ks) = idOf x :: waiting idOf pending ks := by
        simp [waiting, hp]
      rw [hcons]
      exact List.nodup_cons.mpr ⟨hnot, ih hks⟩

/-- **Step rule**: a step at some of the places loses no ticket and makes none, except that it may
be given the next one. -/
theorem Once.conserve (h : Once idOf pending completed n) (ls : List L) (hls : ls.Nodup)
    (hothers : ∀ l, l ∉ ls → pending' l = pending l) {new : List Nat}
    (hnew : new = [] ∧ n' = n ∨ new = [n] ∧ n' = n + 1)
    (hperm : (ds ++ waiting idOf pending' ls).Perm (waiting idOf pending ls ++ new)) :
    Once idOf pending' (completed ++ ds) n' := by
  have hle : n ≤ n' := by omega
  have hnew_mem : ∀ d ∈ new, d = n ∧ n < n' := by
    rcases hnew with ⟨rfl, _⟩ | ⟨rfl, rfl⟩
    · exact fun d hd => absurd hd List.not_mem_nil
    · exact fun d hd => ⟨List.mem_singleton.mp hd, Nat.lt_succ_self n⟩
  have hwait_lt : ∀ d ∈ waiting idOf pending ls, d < n := by
    intro d hd
    obtain ⟨l, _, x, hx, rfl⟩ := mem_waiting.mp hd
    exact h.pending_lt l x hx
  have hnodup : (ds ++ waiting idOf pending' ls).Nodup := by
    rw [hperm.nodup_iff, List.nodup_append]
    refine ⟨h.nodup_waiting hls, ?_, ?_⟩
    · rcases hnew with ⟨rfl, _⟩ | ⟨rfl, _⟩
      · exact List.nodup_nil
      · exact List.nodup_cons.mpr ⟨List.not_mem_nil, List.nodup_nil⟩
    · rintro d hd e he rfl
      exact absurd (hwait_lt d hd) (by rw [(hnew_mem d he).1]; exact Nat.lt_irrefl n)
  obtain ⟨hds_nodup, hwaiting_nodup, hdisjoint⟩ := List.nodup_append.mp hnodup
  have hfrom : ∀ d, d ∈ ds ∨ d ∈ waiting idOf pending' ls →
      d ∈ waiting idOf pending ls ∨ d = n ∧ n < n' := by
    intro d hd
    rcases List.mem_append.mp (hperm.mem_iff.mp (List.mem_append.mpr hd)) with hold | hd
    · exact Or.inl hold
    · exact Or.inr (hnew_mem d hd)
  have hds_fresh : ∀ d ∈ ds, d ∉ completed := by
    intro d hd hmem
    rcases hfrom d (Or.inl hd) with hold | ⟨rfl, _⟩
    · obtain ⟨l, _, x, hx, rfl⟩ := mem_waiting.mp hold
      exact h.open_ l x hx hmem
    · exact absurd (h.completed_lt _ hmem) (Nat.lt_irrefl _)
  -- what waits outside of `ls` has nothing to do with the step
  have houtside : ∀ l x, l ∉ ls → pending' l = some x →
      ∀ d, d ∈ ds ∨ d ∈ waiting idOf pending' ls → d ≠ idOf x := by
    rintro l x hl hx d hd rfl
    rw [hothers l hl] at hx
    rcases hfrom _ hd with hold | ⟨heq, _⟩
    · obtain ⟨k, hk, y, hy, hid⟩ := mem_waiting.mp hold
      exact hl (h.unique k l y x hy hx hid ▸ hk)
    · exact absurd (h.pending_lt l x hx) (by rw [heq]; exact Nat.lt_irrefl n)
  constructor
  · refine List.nodup_append.mpr ⟨h.nodup, hds_nodup, ?_⟩
    rintro d hd e he rfl
    exact hds_fresh d he hd
  · intro d hd
    rcases List.mem_append.mp hd with hd | hd
    · exact Nat.lt_of_lt_of_le (h.completed_lt d hd) hle
    · rcases hfrom d (Or.inl hd) with hold | ⟨rfl, hlt⟩
      · exact Nat.lt_of_lt_of_le (hwait_lt d hold) hle
      · exact hlt
  · intro l x hx
    by_cases hl : l ∈ ls
    · rcases hfrom (idOf x) (Or.inr (mem_waiting.mpr ⟨l, hl, x, hx, rfl⟩)) with hold | ⟨heq, hlt⟩
      · exact Nat.lt_of_lt_of_le (hwait_lt _ hold) hle
      · exact heq ▸ hlt
    · rw [hothers l hl] at hx
      exact Nat.lt_of_lt_of_le (h.pending_lt l x hx) hle
  · intro l x hx hmem
    by_cases hl : l ∈ ls
    · have hwait : idOf x ∈ waiting idOf pending' ls := mem_waiting.mpr ⟨l, hl, x, hx, rfl⟩
      rcases List.mem_append.mp hmem with hmem | hmem
      · rcases hfrom (idOf x) (Or.inr hwait) with hold | ⟨heq, _⟩
        · obtain ⟨k, _, y, hy, hid⟩ := mem_waiting.mp hold
          exact h.open_ k y hy (hid ▸ hmem)
        · exact absurd (h.completed_lt _ hmem) (heq ▸ Nat.lt_irrefl _)
      · exact hdisjoint _ hmem _ hwait rfl
    · rcases List.mem_append.mp hmem with hmem | hmem
      · exact h.open_ l x (hothers l hl ▸ hx) hmem
      · exact houtside l x hl hx _ (Or.inl hmem) rfl
  · intro l l' x x' hx hx' hid
    by_cases hl : l ∈ ls
    · have hwait : idOf x ∈ waiting idOf pending' ls := mem_waiting.mpr ⟨l, hl, x, hx, rfl⟩
      by_cases hl' : l' ∈ ls
      · exact waiting_inj hwaiting_nodup hl hl' hx hx' hid
      · exact absurd hid (houtside l' x' hl' hx' _ (Or.inr hwait))
    · by_cases hl' : l' ∈ ls
      · have hwait : idOf x' ∈ waiting idOf pending' ls := mem_waiting.mpr ⟨l', hl', x', hx', rfl⟩
        exact absurd hid.symm (houtside l x hl hx _ (Or.inr hwait))
      · exact h.unique l l' x x' (hothers l hl ▸ hx) (hothers l' hl' ▸ hx') hid

end AnyHttp.Lib
