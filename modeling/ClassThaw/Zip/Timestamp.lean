namespace ClassThaw.Zip

/-- A time of day and a date, each in bits of one number. There need not be such a time or date. -/
structure Timestamp where
  -- Halved seconds in 5 bits, then minutes in 6 bits, then hours.
  time : Nat
  -- The day in 5 bits, then the month in 4 bits, then the years since 1980.
  date : Nat
  deriving DecidableEq, Repr

namespace Timestamp

def first : Timestamp := { time := 0, date := 0x21 }

/-- The number of days in a month, which is 0 unless there is such a month. -/
def daysIn (year month : Nat) : Nat :=
  match month with
  | 1 | 3 | 5 | 7 | 8 | 10 | 12 => 31
  | 4 | 6 | 9 | 11 => 30
  | 2 => if year % 4 = 0 ∧ (year % 100 ≠ 0 ∨ year % 400 = 0) then 29 else 28
  | _ => 0

/-- There is such a time and such a date. A leap second counts. -/
def isReal (timestamp : Timestamp) : Bool :=
  let day := timestamp.date % 32
  decide (1 ≤ day ∧ day ≤ daysIn (1980 + timestamp.date / 512) (timestamp.date / 32 % 16) ∧
    timestamp.time / 2048 ≤ 23 ∧ timestamp.time / 32 % 64 ≤ 59 ∧ timestamp.time % 32 ≤ 30)

/-- The closest time that can be kept: without a leap second, and the first one if there is no such
time at all. -/
def repaired (timestamp : Timestamp) : Timestamp :=
  if !timestamp.isReal then first
  else if timestamp.time % 32 = 30 then { timestamp with time := timestamp.time - 1 }
  else timestamp

end Timestamp

end ClassThaw.Zip
