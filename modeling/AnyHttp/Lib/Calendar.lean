import Mathlib.Algebra.Order.Ring.Int

/-!
# The proleptic Gregorian calendar

A `Date` is a day that exists.  Days are counted from the first one of the year 0, and the years
before that are leap years by the same rule as any other.

* `daysBeforeYear_succ`: the closed form counts the days of one year after the other.
* `Date.toDays_ofDays`: every day has a date.
* `Date.year_mem_of_toDays`: the days of a range of years.
-/

namespace AnyHttp.Lib

/-! ### Years -/

def IsLeap (year : Int) : Prop := year % 4 = 0 ∧ (year % 100 ≠ 0 ∨ year % 400 = 0)

instance (year : Int) : Decidable (IsLeap year) := inferInstanceAs (Decidable (_ ∧ _))

/-- The days between the first one of the year 0 and the first one of another year. -/
def daysBeforeYear (year : Int) : Int :=
  365 * year + (year + 3) / 4 - (year + 99) / 100 + (year + 399) / 400

/-- How long the months of a year are. -/
def monthLengths (year : Int) : List Nat :=
  [31, if IsLeap year then 29 else 28, 31, 30, 31, 30, 31, 31, 30, 31, 30, 31]

theorem daysBeforeYear_succ (year : Int) :
    daysBeforeYear (year + 1) = daysBeforeYear year + (monthLengths year).sum := by
  have hsum : ((monthLengths year).sum : Int) =
      if year % 4 = 0 ∧ (year % 100 ≠ 0 ∨ year % 400 = 0) then 366 else 365 := by
    unfold monthLengths
    by_cases h : IsLeap year
    · rw [if_pos h]
      exact (if_pos h).symm
    · rw [if_neg h]
      exact (if_neg h).symm
  have h4 : (year + 1 + 3) / 4 = (year + 3) / 4 + if year % 4 = 0 then 1 else 0 := by
    split <;> omega
  have h100 : (year + 1 + 99) / 100 = (year + 99) / 100 + if year % 100 = 0 then 1 else 0 := by
    split <;> omega
  have h400 : (year + 1 + 399) / 400 = (year + 399) / 400 + if year % 400 = 0 then 1 else 0 := by
    split <;> omega
  rw [hsum, daysBeforeYear, daysBeforeYear, h4, h100, h400]
  split_ifs <;> omega

theorem daysBeforeYear_mono {year later : Int} (h : year ≤ later) :
    daysBeforeYear year ≤ daysBeforeYear later := by
  unfold daysBeforeYear
  omega

/-- The year of a day: the mean length of a year tells it up to one. -/
def yearOf (day : Int) : Int :=
  let year := day * 400 / 146097
  if daysBeforeYear (year + 1) ≤ day then year + 1
  else if daysBeforeYear year ≤ day then year
  else year - 1

theorem yearOf_spec (day : Int) :
    daysBeforeYear (yearOf day) ≤ day ∧ day < daysBeforeYear (yearOf day + 1) := by
  obtain ⟨year, hyear⟩ : ∃ year, year = day * 400 / 146097 := ⟨_, rfl⟩
  have hlow : daysBeforeYear (year - 1) ≤ day := by
    unfold daysBeforeYear
    omega
  have hhigh : day < daysBeforeYear (year + 1 + 1) := by
    unfold daysBeforeYear
    omega
  unfold yearOf
  dsimp only
  rw [← hyear]
  split
  · rename_i h
    exact ⟨h, hhigh⟩
  · rename_i hnext
    split
    · rename_i h
      exact ⟨h, by omega⟩
    · rename_i h
      rw [Int.sub_add_cancel]
      exact ⟨hlow, by omega⟩

/-! ### Months -/

/-- Which of some consecutive periods a day is in, and the how manieth it is there. -/
def locate : List Nat → Nat → Nat × Nat
  | [], day => (0, day)
  | length :: lengths, day =>
    if day < length then (0, day)
    else
      let (i, day) := locate lengths (day - length)
      (i + 1, day)

theorem locate_spec {lengths : List Nat} {day : Nat} (h : day < lengths.sum) :
    ∃ length, lengths[(locate lengths day).1]? = some length ∧ (locate lengths day).2 < length ∧
      (lengths.take (locate lengths day).1).sum + (locate lengths day).2 = day := by
  induction lengths generalizing day with
  | nil => exact absurd h (Nat.not_lt_zero day)
  | cons length lengths ih =>
    rw [locate]
    split
    · rename_i hday
      exact ⟨length, rfl, hday, Nat.zero_add day⟩
    · rename_i hday
      rw [List.sum_cons] at h
      have hrest : day - length < lengths.sum := by omega
      obtain ⟨length', hget, hlt, hsum⟩ := ih hrest
      refine ⟨length', hget, hlt, ?_⟩
      dsimp only
      rw [List.take_succ_cons, List.sum_cons]
      omega

/-! ### Dates -/

structure Date where
  year : Int
  /-- From 1 to 12. -/
  month : Nat
  /-- From 1 on. -/
  day : Nat
  month_pos : 0 < month
  day_pos : 0 < day
  exists_length : ∃ length ∈ (monthLengths year)[month - 1]?, day ≤ length
deriving DecidableEq

namespace Date

/-- The days between the first one of the year 0 and a date. -/
def toDays (date : Date) : Int :=
  daysBeforeYear date.year + ((monthLengths date.year).take (date.month - 1)).sum + (date.day - 1)

theorem month_le (date : Date) : date.month ≤ 12 := by
  obtain ⟨length, hlength, _⟩ := date.exists_length
  have hlt : date.month - 1 < 12 := (List.getElem?_eq_some_iff.mp hlength).1
  omega

theorem day_le (date : Date) : date.day ≤ 31 := by
  obtain ⟨length, hlength, hle⟩ := date.exists_length
  have hmem := List.mem_of_getElem? hlength
  have hall : ∀ l ∈ monthLengths date.year, l ≤ 31 := by
    unfold monthLengths
    split <;> decide
  exact hle.trans (hall length hmem)

/-- How many days of its year are before a day. -/
theorem dayOfYear_lt (day : Int) :
    (day - daysBeforeYear (yearOf day)).toNat < (monthLengths (yearOf day)).sum := by
  obtain ⟨hlow, hhigh⟩ := yearOf_spec day
  rw [daysBeforeYear_succ] at hhigh
  omega

/-- The date of a day. -/
def ofDays (day : Int) : Date where
  year := yearOf day
  month := (locate (monthLengths (yearOf day)) (day - daysBeforeYear (yearOf day)).toNat).1 + 1
  day := (locate (monthLengths (yearOf day)) (day - daysBeforeYear (yearOf day)).toNat).2 + 1
  month_pos := Nat.succ_pos _
  day_pos := Nat.succ_pos _
  exists_length := by
    obtain ⟨length, hget, hlt, _⟩ := locate_spec (dayOfYear_lt day)
    exact ⟨length, hget, hlt⟩

theorem toDays_ofDays (day : Int) : (ofDays day).toDays = day := by
  obtain ⟨hlow, _⟩ := yearOf_spec day
  obtain ⟨_, _, _, hsum⟩ := locate_spec (dayOfYear_lt day)
  unfold toDays ofDays
  dsimp only
  rw [Nat.add_sub_cancel]
  omega

/-- Which years the days of a range are in. -/
theorem year_mem_of_toDays {day first last : Int} (hfirst : daysBeforeYear first ≤ day)
    (hlast : day < daysBeforeYear (last + 1)) :
    first ≤ (ofDays day).year ∧ (ofDays day).year ≤ last := by
  obtain ⟨hlow, hhigh⟩ := yearOf_spec day
  constructor
  · by_contra h
    have hmono := daysBeforeYear_mono (show yearOf day + 1 ≤ first from Int.lt_of_not_ge h)
    omega
  · by_contra h
    have hmono := daysBeforeYear_mono (show last + 1 ≤ yearOf day from Int.lt_of_not_ge h)
    omega

end Date

/-! ### Weekdays -/

/-- The weekday of a day, from Sunday on: the year 0 begins with a Saturday. -/
def weekdayOf (day : Int) : Nat := ((day + 6) % 7).toNat

theorem weekdayOf_lt (day : Int) : weekdayOf day < 7 := by
  unfold weekdayOf
  omega

end AnyHttp.Lib
