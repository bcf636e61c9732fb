import SourceMask.Data
import SourceMask.Toml.Lexical

/-!
# TOML: dates and times

A moment is a date, a time of day, or a date with a time behind it, which may carry an offset from
universal time.  A date has to exist in the calendar.
-/

namespace SourceMask

namespace Toml

/-- A number of exactly so many decimal digits. -/
def fixed? (count : Nat) : Reader Nat := fun text =>
  let digits := text.take count
  if digits.length = count && digits.all Char.isDigit then
    some (digits.foldl (fun n c => 10 * n + (c.toNat - 48)) 0, text.drop count)
  else
    none

/-- Whether a year has a day more than others. -/
def isLeapYear (year : Nat) : Bool := (year % 4 = 0 && year % 100 ≠ 0) || year % 400 = 0

/-- The number of days of a month. -/
def daysOf (year month : Nat) : Nat :=
  if month = 2 then (if isLeapYear year then 29 else 28)
  else if [4, 6, 9, 11].contains month then 30
  else 31

/-- What follows a date. -/
def date? (text : Text) : Option Text := do
  let (year, rest) ← fixed? 4 text
  let (month, rest) ← fixed? 2 (← mark? '-' rest)
  let (day, rest) ← fixed? 2 (← mark? '-' rest)
  guard (1 ≤ month && month ≤ 12 && 1 ≤ day && day ≤ daysOf year month)
  pure rest

/-- What follows the fraction of a second, which may be missing. -/
def fractionOfSecond (text : Text) : Text :=
  match text with
  | '.' :: c :: rest => if c.isDigit then rest.dropWhile Char.isDigit else text
  | _ => text

/-- What follows a time of day. -/
def time? (text : Text) : Option Text := do
  let (hour, rest) ← fixed? 2 text
  let (minute, rest) ← fixed? 2 (← mark? ':' rest)
  let (second, rest) ← fixed? 2 (← mark? ':' rest)
  guard (hour ≤ 23 && minute ≤ 59 && second ≤ 60)
  pure (fractionOfSecond rest)

/-- What follows an offset from universal time. -/
def offset? (text : Text) : Option Text :=
  match text with
  | [] => none
  | c :: rest =>
    if c = 'Z' || c = 'z' then some rest
    else if c = '+' || c = '-' then do
      let (hour, rest) ← fixed? 2 rest
      let (minute, rest) ← fixed? 2 (← mark? ':' rest)
      guard (hour ≤ 23 && minute ≤ 59)
      pure rest
    else none

/-- What follows the time behind a date, which may be missing. -/
def timeAfterDate (text : Text) : Text :=
  match text with
  | [] => []
  | c :: rest =>
    if c = 'T' || c = 't' || c = ' ' then
      match time? rest with
      | some rest => (offset? rest).getD rest
      | none => text
    else
      text

/-- The moment at the start of a text. -/
def moment? : Reader Data := fun text =>
  let rest? := match date? text with
    | some rest => some (timeAfterDate rest)
    | none => time? text
  rest?.map fun rest => (.moment (text.take (text.length - rest.length)), rest)

end Toml

end SourceMask
