import AnyHttp.Common
import AnyHttp.Lib.Calendar

/-!
# Dates of header fields

`format_http_date()` (`common.cpp`).  A time point of the system clock is a number of ticks since
the epoch, so many of them a second: with nanoseconds, that is `10 ^ 9`.  The conversions of
`std::chrono` are those of the calendar.
-/

namespace AnyHttp

open Lib

namespace HttpDate

def epoch : Date := ⟨1970, 1, 1, by decide, by decide, ⟨31, rfl, by decide⟩⟩

/-- `sys_days`, the days since the epoch. -/
def sysDays (date : Date) : Int := date.toDays - epoch.toDays

def yearMonthDay (day : Int) : Date := Date.ofDays (day + epoch.toDays)

/-- `weekday::c_encoding()`. -/
def weekday (day : Int) : Nat := weekdayOf (day + epoch.toDays)

/-- The first second of the year 0. -/
def first : Int := sysDays ⟨0, 1, 1, by decide, by decide, ⟨31, rfl, by decide⟩⟩ * 86400

/-- The last second of the year 9999. -/
def last : Int :=
  sysDays ⟨9999, 12, 31, by decide, by decide, ⟨31, rfl, by decide⟩⟩ * 86400 + 86400 - 1

/-- `std::clamp()`. -/
def clamp (v lo hi : Int) : Int := if v < lo then lo else if hi < v then hi else v

def substr (s : List UInt8) (pos n : Nat) : List UInt8 := (s.drop pos).take n

def weekdays : List UInt8 := text "SunMonTueWedThuFriSat"

def months : List UInt8 := text "JanFebMarAprMayJunJulAugSepOctNovDec"

/-- Two decimal digits of a value below 100. -/
def put2 (value : Nat) : List UInt8 :=
  [UInt8.ofNat ('0'.toNat + value / 10), UInt8.ofNat ('0'.toNat + value % 10)]

/-- `format_http_date()`, of a clock with so many ticks per second. -/
def formatHttpDate (ticks : Nat) (tp : Int) : List UInt8 :=
  let time := clamp (tp / ticks) first last
  let day := time / 86400
  let date := yearMonthDay day
  let clock := (time - day * 86400).toNat
  let y := date.year.toNat
  substr weekdays (weekday day * 3) 3 ++ text ", " ++ put2 date.day ++ text " " ++
    substr months ((date.month - 1) * 3) 3 ++ text " " ++ put2 (y / 100) ++ put2 (y % 100) ++
    text " " ++ put2 (clock / 3600) ++ text ":" ++ put2 (clock / 60 % 60) ++ text ":" ++
    put2 (clock % 60) ++ text " GMT"

end HttpDate

end AnyHttp
