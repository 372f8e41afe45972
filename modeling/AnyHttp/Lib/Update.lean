import Mathlib.Data.List.Basic

/-!
# Lists that are updated in place

The parts of a component, in the order they were made: one of them is replaced (`List.set`), or
another one is added at the end.  The lemmas say what that leaves as it is.
-/

namespace AnyHttp.Lib

variable {α β : Type*}

theorem set_eq_self {l : List α} {i : Nat} {a : α} (h : l[i]? = some a) : l.set i a = l := by
  obtain ⟨hi, rfl⟩ := List.getElem?_eq_some_iff.mp h
  exact List.set_getElem_self hi

/-- What is in the list after an update. -/
theorem getElem?_set_eq_some {l : List α} {i j : Nat} {a b c : α} (h : l[i]? = some a) :
    (l.set i b)[j]? = some c ↔ j = i ∧ b = c ∨ j ≠ i ∧ l[j]? = some c := by
  obtain ⟨hi, _⟩ := List.getElem?_eq_some_iff.mp h
  by_cases hj : j = i
  · rw [hj, List.getElem?_set_self hi]
    simp
  · rw [List.getElem?_set_ne (Ne.symm hj)]
    simp [hj]

/-- What is in the list after an element has been added. -/
theorem getElem?_concat_eq_some {l : List α} {j : Nat} {b c : α} (h : (l ++ [b])[j]? = some c) :
    l[j]? = some c ∨ j = l.length ∧ b = c := by
  obtain ⟨hj, _⟩ := List.getElem?_eq_some_iff.mp h
  rw [List.length_append, List.length_singleton] at hj
  rw [List.getElem?_append] at h
  split_ifs at h with hlt
  · exact .inl h
  · exact .inr ⟨by omega, (List.mem_singleton.mp (List.mem_of_getElem? h)).symm⟩

/-- An update that does not change what `f` sees. -/
theorem map_set_of_eq {f : α → β} {l : List α} {i : Nat} {a a' : α} (h : l[i]? = some a)
    (hf : f a' = f a) : (l.set i a').map f = l.map f := by
  rw [List.map_set, hf]
  apply set_eq_self
  rw [List.getElem?_map, h, Option.map_some]

/-- How many elements there are of one kind, with one of them replaced. -/
theorem countP_set_add {p : α → Bool} {l : List α} {i : Nat} {a b : α} (h : l[i]? = some a) :
    (l.set i b).countP p + (p a).toNat = l.countP p + (p b).toNat := by
  obtain ⟨hi, rfl⟩ := List.getElem?_eq_some_iff.mp h
  have hone : ∀ c : Bool, (if c = true then 1 else 0) = c.toNat := fun c => by cases c <;> rfl
  have hle : (if p l[i] = true then 1 else 0) ≤ l.countP p := List.boole_getElem_le_countP hi
  rw [List.countP_set hi]
  rw [hone] at hle
  rw [hone, hone]
  omega

/-- An update at the length of `front` replaces the element that follows it. -/
theorem set_concat (front : List α) (last new : α) :
    (front ++ [last]).set front.length new = front ++ [new] := by
  rw [List.set_append_right _ _ (Nat.le_refl _), Nat.sub_self, List.set_cons_zero]

/-- Elements stay where they are when others are added. -/
theorem getElem?_eq_some_mono {l l' : List α} (h : l <+: l') {i : Nat} {a : α}
    (ha : l[i]? = some a) : l'[i]? = some a := by
  obtain ⟨rest, rfl⟩ := h
  rw [List.getElem?_append_left (List.getElem?_eq_some_iff.mp ha).1, ha]

/-- Elements that are listed by where they are. -/
theorem map_getElem?_append {l l' : List α} {is : List Nat} {as : List α}
    (h : is.map (l[·]?) = as.map some) : is.map ((l ++ l')[·]?) = as.map some := by
  rw [← h]
  apply List.map_congr_left
  intro i hi
  have hmem : l[i]? ∈ as.map some := h ▸ List.mem_map_of_mem hi
  obtain ⟨a, _, ha⟩ := List.mem_map.mp hmem
  rw [← ha]
  exact getElem?_eq_some_mono (List.prefix_append l l') ha.symm

theorem filterMap_getElem? {l : List α} {is : List Nat} {as : List α}
    (h : is.map (l[·]?) = as.map some) : is.filterMap (l[·]?) = as := by
  have hids := congrArg (List.filterMap fun x => x) h
  rw [List.filterMap_map, List.filterMap_map] at hids
  exact hids.trans List.filterMap_some

end AnyHttp.Lib
