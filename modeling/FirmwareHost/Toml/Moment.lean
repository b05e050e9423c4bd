import FirmwareHost.Toml.Quotation

/-! Dates and times of day: a date, a time, or both with a blank or a letter between them and
perhaps an offset behind. Only their extent is read. -/

namespace FirmwareHost.Toml.Moment

def readNumber : Nat → Nat → List Char → Reading Nat
  | 0, n, rest => some (n, rest)
  | _ + 1, _, [] => none
  | width + 1, n, c :: rest =>
    if c.isDigit then readNumber width (10 * n + (c.toNat - '0'.toNat)) rest else none

def readField (low high : Nat) (cs : List Char) : Reading Nat :=
  (readNumber 2 0 cs).filter fun (n, _) => low ≤ n && n ≤ high

def readChar (expected : Char) : List Char → Option (List Char)
  | [] => none
  | c :: rest => if c = expected then some rest else none

def isLeapYear (year : Nat) : Bool := year % 4 = 0 && (year % 100 ≠ 0 || year % 400 = 0)

def daysIn (year month : Nat) : Nat :=
  if month = 2 then if isLeapYear year then 29 else 28
  else if month = 4 ∨ month = 6 ∨ month = 9 ∨ month = 11 then 30
  else 31

def skipDate (cs : List Char) : Option (List Char) := do
  let (year, rest) ← readNumber 4 0 cs
  let (month, rest) ← readField 1 12 (← readChar '-' rest)
  let (_, rest) ← readField 1 (daysIn year month) (← readChar '-' rest)
  return rest

/-- Digits of a second stand behind a point; a point alone is not part of the time. -/
def skipFraction : List Char → List Char
  | '.' :: c :: rest => if c.isDigit then rest.dropWhile Char.isDigit else '.' :: c :: rest
  | cs => cs

def skipTime (cs : List Char) : Option (List Char) := do
  let (_, rest) ← readField 0 23 cs
  let (_, rest) ← readField 0 59 (← readChar ':' rest)
  let (_, rest) ← readField 0 60 (← readChar ':' rest)
  return skipFraction rest

def skipOffset : List Char → Option (List Char)
  | [] => none
  | c :: rest =>
    if c = 'Z' ∨ c = 'z' then some rest
    else if c = '+' ∨ c = '-' then do
      let (_, rest) ← readField 0 23 rest
      let (_, rest) ← readField 0 59 (← readChar ':' rest)
      return rest
    else none

/-- What may follow a date: a time, and then perhaps an offset. -/
def skipTimeAfterDate : List Char → Option (List Char)
  | [] => none
  | c :: rest =>
    if c = 'T' ∨ c = 't' ∨ c = ' ' then do
      let rest ← skipTime rest
      return (skipOffset rest).getD rest
    else none

/-- The text behind the date or time that begins here. -/
def skip (cs : List Char) : Option (List Char) :=
  match skipDate cs with
  | some rest => some ((skipTimeAfterDate rest).getD rest)
  | none => skipTime cs

end FirmwareHost.Toml.Moment
