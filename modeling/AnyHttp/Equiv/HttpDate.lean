import AnyHttp.HttpDate
import Mathlib.Data.List.Basic

/-!
# A date says when it is

`readFixdate` reads the 29 characters of an IMF-fixdate, in the places where they have to be, and
makes a date and a time of day of them, if there are such.  What it reads of a formatted time point
is that time point, floored to seconds and clamped to four digits of a year.

* `readFixdate_parts`: the fields one by one.
* `year_mem_of_clamp`: four digits are enough.
* `readFixdate_formatHttpDate`: dates read back, and in the same order.
-/

namespace AnyHttp.HttpDate

open Lib

/-! ### Reading a date -/

/-- A date and a time of day that exist, with the name of the weekday. -/
structure Fixdate where
  weekday : Nat
  date : Date
  hour : Nat
  minute : Nat
  second : Nat
  hour_lt : hour < 24
  minute_lt : minute < 60
  second_lt : second < 60
deriving DecidableEq

/-- The seconds from the epoch to this date and time of day. -/
def Fixdate.seconds (f : Fixdate) : Int :=
  sysDays f.date * 86400 + f.hour * 3600 + f.minute * 60 + f.second

/-- The number that goes on with some digits. -/
def digitsFrom : Nat → List UInt8 → Option Nat
  | n, [] => some n
  | n, c :: s =>
    if '0'.toUInt8 ≤ c ∧ c ≤ '9'.toUInt8 then digitsFrom (10 * n + (c - '0'.toUInt8).toNat) s
    else none

def dayNames : List (List UInt8) := ["Sun", "Mon", "Tue", "Wed", "Thu", "Fri", "Sat"].map text

def monthNames : List (List UInt8) :=
  ["Jan", "Feb", "Mar", "Apr", "May", "Jun", "Jul", "Aug", "Sep", "Oct", "Nov", "Dec"].map text

/-- Which of some names a text is. -/
def nameIndex (names : List (List UInt8)) (s : List UInt8) : Option Nat :=
  names.findIdx? (· == s)

/-- The values of the fields, if they are those of a date and a time of day. -/
def Fixdate.ofFields (weekday day month year hour minute second : Nat) : Option Fixdate :=
  if h : 0 < month ∧ 0 < day ∧ (∃ length ∈ (monthLengths year)[month - 1]?, day ≤ length) ∧
      hour < 24 ∧ minute < 60 ∧ second < 60 then
    some ⟨weekday, ⟨year, month, day, h.1, h.2.1, h.2.2.1⟩, hour, minute, second,
      h.2.2.2.1, h.2.2.2.2.1, h.2.2.2.2.2⟩
  else none

/-- An IMF-fixdate, such as `Sun, 06 Nov 1994 08:49:37 GMT`. -/
def readFixdate (s : List UInt8) : Option Fixdate :=
  if s.length = 29 ∧ substr s 3 2 = text ", " ∧ substr s 7 1 = text " " ∧
      substr s 11 1 = text " " ∧ substr s 16 1 = text " " ∧ substr s 19 1 = text ":" ∧
      substr s 22 1 = text ":" ∧ substr s 25 4 = text " GMT" then do
    let weekday ← nameIndex dayNames (substr s 0 3)
    let day ← digitsFrom 0 (substr s 5 2)
    let month ← nameIndex monthNames (substr s 8 3)
    let year ← digitsFrom 0 (substr s 12 4)
    let hour ← digitsFrom 0 (substr s 17 2)
    let minute ← digitsFrom 0 (substr s 20 2)
    let second ← digitsFrom 0 (substr s 23 2)
    Fixdate.ofFields weekday day (month + 1) year hour minute second
  else none

/-! ### The fields -/

theorem digitsFrom_digit {v : Nat} (h : v < 10) (n : Nat) (s : List UInt8) :
    digitsFrom n (UInt8.ofNat ('0'.toNat + v) :: s) = digitsFrom (10 * n + v) s := by
  have hall : ∀ v < 10, ('0'.toUInt8 ≤ UInt8.ofNat ('0'.toNat + v) ∧
      UInt8.ofNat ('0'.toNat + v) ≤ '9'.toUInt8) ∧
        (UInt8.ofNat ('0'.toNat + v) - '0'.toUInt8).toNat = v := by
    decide
  obtain ⟨hdigit, hvalue⟩ := hall v h
  rw [digitsFrom, if_pos hdigit, hvalue]

theorem digitsFrom_put2 {v : Nat} (h : v < 100) (n : Nat) (s : List UInt8) :
    digitsFrom n (put2 v ++ s) = digitsFrom (100 * n + v) s := by
  rw [put2, List.cons_append, List.singleton_append, digitsFrom_digit (by omega),
    digitsFrom_digit (by omega)]
  congr 1
  omega

/-- The name of a weekday, where it stands among the others. -/
theorem exists_weekday {w : Nat} (h : w < 7) : ∃ a b c, substr weekdays (w * 3) 3 = [a, b, c] ∧
    nameIndex dayNames [a, b, c] = some w := by
  have hall : ∀ w < 7, (substr weekdays (w * 3) 3).length = 3 ∧
      nameIndex dayNames (substr weekdays (w * 3) 3) = some w := by
    decide
  obtain ⟨hlength, hindex⟩ := hall w h
  obtain ⟨a, b, c, habc⟩ := List.length_eq_three.mp hlength
  rw [habc] at hindex
  exact ⟨a, b, c, habc, hindex⟩

/-- Month `m` has three letters, which tell it from the other ones. -/
theorem exists_month {m : Nat} (h : m < 12) : ∃ a b c, substr months (m * 3) 3 = [a, b, c] ∧
    nameIndex monthNames [a, b, c] = some m := by
  have hall : ∀ m < 12, (substr months (m * 3) 3).length = 3 ∧
      nameIndex monthNames (substr months (m * 3) 3) = some m := by
    decide
  obtain ⟨hlength, hindex⟩ := hall m h
  obtain ⟨a, b, c, habc⟩ := List.length_eq_three.mp hlength
  rw [habc] at hindex
  exact ⟨a, b, c, habc, hindex⟩

/-- A value below 100 is written with two digits, which are read as that value. -/
theorem exists_put2 {v : Nat} (h : v < 100) :
    ∃ a b, put2 v = [a, b] ∧ digitsFrom 0 [a, b] = some v := by
  refine ⟨_, _, rfl, ?_⟩
  have hput := digitsFrom_put2 h 0 []
  rw [List.append_nil, Nat.mul_zero, Nat.zero_add] at hput
  exact hput

/-- A year below 10000 is written with four digits, which are read as that year. -/
theorem exists_year {year : Nat} (h : year < 10000) :
    ∃ a b c d, put2 (year / 100) = [a, b] ∧ put2 (year % 100) = [c, d] ∧
      digitsFrom 0 [a, b, c, d] = some year := by
  refine ⟨_, _, _, _, rfl, rfl, ?_⟩
  have hput := digitsFrom_put2 (v := year / 100) (by omega) 0 (put2 (year % 100))
  have hput' := digitsFrom_put2 (v := year % 100) (by omega) (100 * 0 + year / 100) []
  have hyear : 100 * (100 * 0 + year / 100) + year % 100 = year := by omega
  rw [List.append_nil, hyear] at hput'
  exact hput.trans hput'

/-- Every field is read as it has been written. -/
theorem readFixdate_parts {w day month year hour minute second : Nat} (hw : w < 7)
    (hday : day < 100) (hmonth : month < 12) (hyear : year < 10000) (hhour : hour < 100)
    (hminute : minute < 100) (hsecond : second < 100) {s : List UInt8}
    (hs : s = substr weekdays (w * 3) 3 ++ text ", " ++ put2 day ++ text " " ++
      substr months (month * 3) 3 ++ text " " ++ put2 (year / 100) ++ put2 (year % 100) ++
      text " " ++ put2 hour ++ text ":" ++ put2 minute ++ text ":" ++ put2 second ++
      text " GMT") :
    s.length = 29 ∧
      readFixdate s = Fixdate.ofFields w day (month + 1) year hour minute second := by
  obtain ⟨w₀, w₁, w₂, hweekday, hw⟩ := exists_weekday hw
  obtain ⟨m₀, m₁, m₂, hname, hm⟩ := exists_month hmonth
  obtain ⟨d₀, d₁, hd, hday⟩ := exists_put2 hday
  obtain ⟨y₀, y₁, y₂, y₃, hy, hy', hyear⟩ := exists_year hyear
  obtain ⟨h₀, h₁, hh, hhour⟩ := exists_put2 hhour
  obtain ⟨n₀, n₁, hn, hminute⟩ := exists_put2 hminute
  obtain ⟨s₀, s₁, hs₀, hsecond⟩ := exists_put2 hsecond
  have hcomma : text ", " = [0x2c, 0x20] := by decide
  have hspace : text " " = [0x20] := by decide
  have hcolon : text ":" = [0x3a] := by decide
  have hgmt : text " GMT" = [0x20, 0x47, 0x4d, 0x54] := by decide
  rw [hweekday, hcomma, hd, hspace, hname, hy, hy', hh, hcolon, hn, hs₀, hgmt] at hs
  simp only [List.cons_append, List.nil_append] at hs
  have hread : substr s 0 3 = [w₀, w₁, w₂] ∧ substr s 5 2 = [d₀, d₁] ∧
      substr s 8 3 = [m₀, m₁, m₂] ∧ substr s 12 4 = [y₀, y₁, y₂, y₃] ∧
      substr s 17 2 = [h₀, h₁] ∧ substr s 20 2 = [n₀, n₁] ∧ substr s 23 2 = [s₀, s₁] := by
    rw [hs]
    exact ⟨rfl, rfl, rfl, rfl, rfl, rfl, rfl⟩
  have hplaces : s.length = 29 ∧ substr s 3 2 = [0x2c, 0x20] ∧ substr s 7 1 = [0x20] ∧
      substr s 11 1 = [0x20] ∧ substr s 16 1 = [0x20] ∧ substr s 19 1 = [0x3a] ∧
      substr s 22 1 = [0x3a] ∧ substr s 25 4 = [0x20, 0x47, 0x4d, 0x54] := by
    rw [hs]
    exact ⟨rfl, rfl, rfl, rfl, rfl, rfl, rfl, rfl⟩
  obtain ⟨hread₀, hread₅, hread₈, hread₁₂, hread₁₇, hread₂₀, hread₂₃⟩ := hread
  refine ⟨hplaces.1, ?_⟩
  unfold readFixdate
  rw [hcomma, hspace, hcolon, hgmt, if_pos hplaces, hread₀, hread₅, hread₈, hread₁₂, hread₁₇,
    hread₂₀, hread₂₃, hw, hday, hm, hyear, hhour, hminute, hsecond]
  rfl

/-- The fields of a date, and of a time of day with `hour < 24`, `minute < 60` and `second < 60`,
are those of an IMF-fixdate. -/
theorem Fixdate.ofFields_date (date : Date) {weekday month year hour minute second : Nat}
    (hyear : (year : Int) = date.year) (hmonth : month = date.month) (hhour : hour < 24)
    (hminute : minute < 60) (hsecond : second < 60) :
    Fixdate.ofFields weekday date.day month year hour minute second =
      some ⟨weekday, date, hour, minute, second, hhour, hminute, hsecond⟩ := by
  obtain ⟨y, m, d, hm, hd, hlength⟩ := date
  dsimp only at hyear hmonth ⊢
  subst hyear hmonth
  exact dif_pos ⟨hm, hd, hlength, hhour, hminute, hsecond⟩

/-! ### The time -/

theorem clamp_mem {lo hi : Int} (h : lo ≤ hi) (v : Int) :
    lo ≤ clamp v lo hi ∧ clamp v lo hi ≤ hi := by
  unfold clamp
  split
  · exact ⟨Int.le_refl lo, h⟩
  · split
    · exact ⟨h, Int.le_refl hi⟩
    · omega

theorem clamp_mono (lo hi : Int) {v w : Int} (h : v ≤ w) (hle : lo ≤ hi) :
    clamp v lo hi ≤ clamp w lo hi := by
  unfold clamp
  split_ifs <;> omega

theorem clamp_of_mem {lo hi v : Int} (hlo : lo ≤ v) (hhi : v ≤ hi) : clamp v lo hi = v := by
  rw [clamp, if_neg (by omega), if_neg (by omega)]

/-- The days of the years that have four digits. -/
theorem first_last : epoch.toDays = 719528 ∧ first = -719528 * 86400 ∧
    last = (daysBeforeYear 10000 - 719528) * 86400 - 1 := by
  decide

theorem sysDays_yearMonthDay (day : Int) : sysDays (yearMonthDay day) = day := by
  rw [sysDays, yearMonthDay, Date.toDays_ofDays]
  omega

/-- Four digits are enough for a year. -/
theorem year_mem_of_clamp {time : Int} (hfirst : first ≤ time) (hlast : time ≤ last) :
    0 ≤ (yearMonthDay (time / 86400)).year ∧ (yearMonthDay (time / 86400)).year ≤ 9999 := by
  obtain ⟨hepoch, hf, hl⟩ := first_last
  have hzero : daysBeforeYear 0 = 0 := by decide
  rw [yearMonthDay, hepoch]
  apply Date.year_mem_of_toDays
  · rw [hzero]
    omega
  · show _ < daysBeforeYear 10000
    omega

/-- What is formatted is read back. -/
theorem readFixdate_of_time {time : Int} (hfirst : first ≤ time) (hlast : time ≤ last) {ticks : Nat}
    {tp : Int} (htime : clamp (tp / ticks) first last = time) :
    (formatHttpDate ticks tp).length = 29 ∧
      ∃ f, readFixdate (formatHttpDate ticks tp) = some f ∧ f.seconds = time ∧
        f.weekday = weekday (time / 86400) ∧ f.date = yearMonthDay (time / 86400) := by
  obtain ⟨day, hday⟩ : ∃ day, day = time / 86400 := ⟨_, rfl⟩
  obtain ⟨clock, hclock⟩ : ∃ clock, clock = (time - day * 86400).toNat := ⟨_, rfl⟩
  obtain ⟨hyear, hyear'⟩ := year_mem_of_clamp hfirst hlast
  rw [← hday] at hyear hyear' ⊢
  have hmonth := (yearMonthDay day).month_pos
  have hmonth' := (yearMonthDay day).month_le
  have hlength := (yearMonthDay day).day_le
  have hformat : formatHttpDate ticks tp = substr weekdays (weekday day * 3) 3 ++ text ", " ++
      put2 (yearMonthDay day).day ++ text " " ++ substr months (((yearMonthDay day).month - 1) * 3) 3 ++
      text " " ++ put2 ((yearMonthDay day).year.toNat / 100) ++
      put2 ((yearMonthDay day).year.toNat % 100) ++ text " " ++ put2 (clock / 3600) ++ text ":" ++
      put2 (clock / 60 % 60) ++ text ":" ++ put2 (clock % 60) ++ text " GMT" := by
    unfold formatHttpDate
    dsimp only
    rw [htime, ← hday, ← hclock]
  obtain ⟨hlen, hread⟩ := readFixdate_parts (weekdayOf_lt _) (by omega) (by omega) (by omega)
    (by omega) (by omega) (by omega) hformat
  refine ⟨hlen, ?_⟩
  rw [Fixdate.ofFields_date (yearMonthDay day) (by omega) (by omega) (by omega) (by omega)
    (by omega)] at hread
  refine ⟨_, hread, ?_, rfl, ?_⟩
  · show sysDays (yearMonthDay day) * 86400 + ((clock / 3600 : Nat) : Int) * 3600 +
      ((clock / 60 % 60 : Nat) : Int) * 60 + ((clock % 60 : Nat) : Int) = time
    rw [sysDays_yearMonthDay]
    omega
  · rfl

/-- **A date says when it is**: every time point, floored to seconds and clamped, is what is read of
the 29 characters it is formatted as, with the right weekday.  So dates are in the order of the time
points they are made of, and different seconds have different dates, unless they are clamped. -/
theorem readFixdate_formatHttpDate (ticks : Nat) :
    (∀ tp : Int, (formatHttpDate ticks tp).length = 29 ∧
      ∃ f, readFixdate (formatHttpDate ticks tp) = some f ∧
        f.seconds = clamp (tp / ticks) first last ∧ f.weekday = weekday (sysDays f.date)) ∧
    (∀ tp later : Int, tp / ticks ≤ later / ticks → ∃ f g,
      readFixdate (formatHttpDate ticks tp) = some f ∧
        readFixdate (formatHttpDate ticks later) = some g ∧ f.seconds ≤ g.seconds) ∧
    ∀ tp other : Int, first ≤ tp / ticks → tp / ticks ≤ last → first ≤ other / ticks →
      other / ticks ≤ last → formatHttpDate ticks tp = formatHttpDate ticks other →
        tp / ticks = other / ticks := by
  have hle : first ≤ last := by decide
  have hread : ∀ tp, (formatHttpDate ticks tp).length = 29 ∧
      ∃ f, readFixdate (formatHttpDate ticks tp) = some f ∧
        f.seconds = clamp (tp / ticks) first last ∧ f.weekday = weekday (sysDays f.date) := by
    intro tp
    obtain ⟨hfirst, hlast⟩ := clamp_mem hle (tp / ticks)
    obtain ⟨hlength, f, hf, hseconds, hweekday, hdate⟩ := readFixdate_of_time hfirst hlast rfl
    refine ⟨hlength, f, hf, hseconds, ?_⟩
    rw [hweekday, hdate, sysDays_yearMonthDay]
  refine ⟨hread, ?_, ?_⟩
  · intro tp later h
    obtain ⟨_, f, hf, hfirst, _⟩ := hread tp
    obtain ⟨_, g, hg, hsecond, _⟩ := hread later
    refine ⟨f, g, hf, hg, ?_⟩
    rw [hfirst, hsecond]
    exact clamp_mono first last h hle
  · intro tp other hlo hhi hlo' hhi' heq
    obtain ⟨_, f, hf, hfirst, _⟩ := hread tp
    obtain ⟨_, g, hg, hsecond, _⟩ := hread other
    rw [heq, hg] at hf
    rw [clamp_of_mem hlo hhi] at hfirst
    rw [clamp_of_mem hlo' hhi'] at hsecond
    rw [← hfirst, ← hsecond, Option.some.inj hf]

end AnyHttp.HttpDate
