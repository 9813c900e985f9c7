import StackMachine.Calendar

/-!
# Timestamps

A date is a year of four digits, a month and a day. A time of day may follow, behind a `T` and with
a zone, or behind spaces and without one. Other numbers than the year may have one digit or two.
-/

namespace StackMachine.Yaml.Timestamp

/-- Reads a number of one or two digits. -/
def number? : List Char → Option (Nat × List Char)
  | a :: b :: cs =>
    if !a.isDigit then none
    else if b.isDigit then some (Calendar.number [a, b], cs)
    else some (Calendar.number [a], b :: cs)
  | [a] => if a.isDigit then some (Calendar.number [a], []) else none
  | [] => none

/-- Passes over one character. -/
def skip? (c : Char) : List Char → Option (List Char)
  | d :: cs => if d = c then some cs else none
  | [] => none

/-- Reads a date. -/
def date? (cs : List Char) : Option (List Char) := do
  let ds := cs.takeWhile Char.isDigit
  if ds.length ≠ 4 then none
  let (month, cs) ← number? (← skip? '-' (cs.drop 4))
  let (day, cs) ← number? (← skip? '-' cs)
  if Calendar.isDay (Calendar.number ds) month day then some cs else none

/-- Reads a time of day. -/
def time? (cs : List Char) : Option (List Char) := do
  let (hour, cs) ← number? cs
  let (minute, cs) ← number? (← skip? ':' cs)
  let (second, cs) ← number? (← skip? ':' cs)
  if Calendar.isTime hour minute second then some (Calendar.skipFraction cs) else none

/-- Whether a text is a timestamp. -/
def isTimestamp (cs : List Char) : Bool :=
  match date? cs with
  | none => false
  | some [] => true
  | some (c :: rest) =>
    if c = 'T' ∨ c = 't' then (time? rest).any Calendar.isZone
    else c == ' ' && (time? (rest.dropWhile (· == ' '))).any List.isEmpty

end StackMachine.Yaml.Timestamp
