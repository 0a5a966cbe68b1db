import WebCall.Text.Ascii

/-!
# Points of time in TOML

Dates, times of day, and both together with or without an offset from world time. They are read for
their extent only.
-/
namespace WebCall.Toml

/-- Reads a number of exactly `width` decimal digits. -/
def fixedNumber? (width : Nat) (cs : List Char) : Option (Nat × List Char) :=
  let digits := cs.take width
  if digits.length = width ∧ digits.all Text.isDigit then
    some (Text.ofDigits 10 digits, cs.drop width)
  else none

/-- Drops the character `c` in front. -/
def expect? (c : Char) : List Char → Option (List Char)
  | d :: rest => if c = d then some rest else none
  | [] => none

/-- The number of days of a month. -/
def daysIn (year month : Nat) : Nat :=
  if month = 2 then
    if year % 4 = 0 ∧ (year % 100 ≠ 0 ∨ year % 400 = 0) then 29 else 28
  else if month ∈ [4, 6, 9, 11] then 30
  else 31

/-- Reads a date. -/
def date? (cs : List Char) : Option (List Char) := do
  let (year, cs) ← fixedNumber? 4 cs
  let (month, cs) ← fixedNumber? 2 (← expect? '-' cs)
  let (day, cs) ← fixedNumber? 2 (← expect? '-' cs)
  if 1 ≤ month ∧ month ≤ 12 ∧ 1 ≤ day ∧ day ≤ daysIn year month then some cs else none

/-- Drops the parts of a second, if there are any. -/
def skipFraction : List Char → List Char
  | '.' :: c :: rest =>
    if Text.isDigit c then rest.dropWhile Text.isDigit else '.' :: c :: rest
  | rest => rest

/-- Reads hours and minutes. -/
def hourMinute? (cs : List Char) : Option (List Char) := do
  let (hour, cs) ← fixedNumber? 2 cs
  let (minute, cs) ← fixedNumber? 2 (← expect? ':' cs)
  if hour ≤ 23 ∧ minute ≤ 59 then some cs else none

/-- Reads a time of day. A minute may have a leap second. -/
def time? (cs : List Char) : Option (List Char) := do
  let cs ← hourMinute? cs
  let (second, cs) ← fixedNumber? 2 (← expect? ':' cs)
  if second ≤ 60 then some (skipFraction cs) else none

/-- Drops an offset from world time, if there is one. -/
def skipOffset (cs : List Char) : List Char :=
  match cs with
  | 'Z' :: rest => rest
  | 'z' :: rest => rest
  | '+' :: rest => (hourMinute? rest).getD cs
  | '-' :: rest => (hourMinute? rest).getD cs
  | _ => cs

/-- Drops a time of day and an offset after a date, if they are there. -/
def skipTime (cs : List Char) : List Char :=
  match cs with
  | c :: rest =>
    if c = 'T' ∨ c = 't' ∨ c = ' ' then ((time? rest).map skipOffset).getD cs else cs
  | [] => []

/-- Reads a point of time: a date, with or without a time, or a time. -/
def moment? (cs : List Char) : Option (List Char) :=
  match date? cs with
  | some rest => some (skipTime rest)
  | none => time? cs

end WebCall.Toml
