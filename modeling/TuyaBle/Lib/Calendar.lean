/-!
# The civil calendar

Days and seconds from the Unix epoch of a date and time in the Gregorian calendar, as if
read in UTC. Two dates that differ in the century alone are more than a day apart
(`year_eq_of_near`), so a year known modulo 100 is known near an instant.
-/

namespace Calendar

/-- February has 29 days. -/
def isLeap (year : Nat) : Bool := year % 4 = 0 ∧ (year % 100 ≠ 0 ∨ year % 400 = 0)

/-- The days before 1 January, counted from year 1. -/
def daysBeforeYear (year : Nat) : Int :=
  let y : Int := year - 1
  y * 365 + y / 4 - y / 100 + y / 400

/-- The days of the year before the month. -/
def daysBeforeMonth (year month : Nat) : Nat :=
  [0, 0, 31, 59, 90, 120, 151, 181, 212, 243, 273, 304, 334].getD month 0 +
    if 2 < month ∧ isLeap year then 1 else 0

/-- The ordinal of 1 January 1970. -/
def epochOrdinal : Int := 719163

def daysFromEpoch (year month day : Nat) : Int :=
  daysBeforeYear year + daysBeforeMonth year month + day - epochOrdinal

def secondsFromEpoch (year month day hour minute second : Nat) : Int :=
  daysFromEpoch year month day * 86400 + hour * 3600 + minute * 60 + second

example : secondsFromEpoch 1970 1 1 0 0 0 = 0 := by decide

example : secondsFromEpoch 2023 11 14 22 13 20 = 1700000000 := by decide

/-- A century has more than 36000 days. -/
theorem daysFromEpoch_century {year year' : Nat} (h : year + 100 ≤ year') (month day : Nat) :
    daysFromEpoch year month day + 36000 ≤ daysFromEpoch year' month day := by
  have hyears : daysBeforeYear year + 36001 ≤ daysBeforeYear year' := by
    unfold daysBeforeYear
    dsimp only
    omega
  have hmonth : daysBeforeMonth year month ≤ daysBeforeMonth year' month + 1 := by
    unfold daysBeforeMonth
    split <;> split <;> omega
  unfold daysFromEpoch
  omega

/-- **The century can be told from any instant near by.** -/
theorem year_eq_of_near {year year' : Nat} (month day hour minute second : Nat)
    (hcentury : year % 100 = year' % 100)
    (hlt : secondsFromEpoch year month day hour minute second <
      secondsFromEpoch year' month day hour minute second + 36000 * 86400)
    (hgt : secondsFromEpoch year' month day hour minute second <
      secondsFromEpoch year month day hour minute second + 36000 * 86400) : year = year' := by
  unfold secondsFromEpoch at hlt hgt
  rcases Nat.lt_trichotomy year year' with h | h | h
  · have := daysFromEpoch_century (show year + 100 ≤ year' by omega) month day
    omega
  · exact h
  · have := daysFromEpoch_century (show year' + 100 ≤ year by omega) month day
    omega

end Calendar
