namespace CodeAudit

/-- A date and a time of day, to the second. -/
structure Moment where
  year : Nat
  month : Nat
  day : Nat
  hour : Nat := 0
  minute : Nat := 0
  second : Nat := 0
  deriving DecidableEq, Repr

namespace Moment

/-- The moment so many seconds after the first of January 1970. A year begins here with the first
of March, so that a leap day is the last of its year. -/
def ofSeconds (seconds : Nat) : Moment :=
  let days := seconds / 86400 + 719468
  let dayOfEra := days % 146097
  let yearOfEra := (dayOfEra - dayOfEra / 1460 + dayOfEra / 36524 - dayOfEra / 146096) / 365
  let dayOfYear := dayOfEra - (365 * yearOfEra + yearOfEra / 4 - yearOfEra / 100)
  let march := (5 * dayOfYear + 2) / 153
  let month := if march < 10 then march + 3 else march - 9
  { year := days / 146097 * 400 + yearOfEra + if month ≤ 2 then 1 else 0
    month
    day := dayOfYear - (153 * march + 2) / 5 + 1
    hour := seconds / 3600 % 24
    minute := seconds / 60 % 60
    second := seconds % 60 }

example : ofSeconds 951782400 = ⟨2000, 2, 29, 0, 0, 0⟩ := by decide
example : ofSeconds 1735787045 = ⟨2025, 1, 2, 3, 4, 5⟩ := by decide

def twoDigits (n : Nat) : String := if n < 10 then "0" ++ Nat.repr n else Nat.repr n

def text (m : Moment) : String :=
  Nat.repr m.year ++ "-" ++ twoDigits m.month ++ "-" ++ twoDigits m.day ++ "T" ++
    twoDigits m.hour ++ ":" ++ twoDigits m.minute ++ ":" ++ twoDigits m.second ++ "Z"

end Moment

end CodeAudit
