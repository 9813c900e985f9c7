/-!
# Dates and times

The parts that the notations of dates and times have in common: which days there are, fractions of a
second, and zones.
-/

namespace StackMachine.Calendar

/-- The number that some digits stand for. -/
def number (ds : List Char) : Nat :=
  Nat.ofDigitChars 10 ds 0

/-- Whether a year has a leap day. -/
def isLeap (year : Nat) : Bool :=
  year % 4 == 0 && (year % 100 != 0 || year % 400 == 0)

/-- How many days a month has. -/
def days (year month : Nat) : Nat :=
  if month = 2 then (if isLeap year then 29 else 28)
  else if month = 4 ∨ month = 6 ∨ month = 9 ∨ month = 11 then 30
  else 31

/-- Whether there is such a day. -/
def isDay (year month day : Nat) : Bool :=
  1 ≤ month && month ≤ 12 && 1 ≤ day && day ≤ days year month

/-- Whether there is such a time of day. -/
def isTime (hour minute second : Nat) : Bool :=
  hour < 24 && minute < 60 && second < 60

/-- The text behind a fraction of a second, if there is one. -/
def skipFraction (cs : List Char) : List Char :=
  match cs with
  | p :: d :: rest =>
    if (p = '.' ∨ p = ',') ∧ d.isDigit then (d :: rest).dropWhile Char.isDigit else cs
  | _ => cs

/-- Whether a text is a zone: the letter for none, or hours and minutes with a sign. -/
def isZone : List Char → Bool
  | ['Z'] => true
  | [s, a, b, ':', c, d] =>
    (s == '+' || s == '-') && [a, b, c, d].all Char.isDigit && number [a, b] ≤ 24 &&
      number [c, d] ≤ 60
  | _ => false

end StackMachine.Calendar
