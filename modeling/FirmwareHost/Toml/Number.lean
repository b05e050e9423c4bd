import FirmwareHost.Toml.Quotation
import FirmwareHost.Toml.Value

/-! Numbers. Integers are decimal with a sign, or hexadecimal, octal or binary without one, and fit
64 signed bits. An underscore may stand between two digits. -/

namespace FirmwareHost.Toml.Number

def digitBelow (base : Nat) (c : Char) : Option Nat :=
  (Hex.digit? c).filter fun d => d < base

/-- Reads digits up to the first other character. An underscore owes a digit. -/
def readMore (base : Nat) : Bool → List Char → Reading (List Nat)
  | owed, [] => if owed then none else some ([], [])
  | owed, c :: rest =>
    match digitBelow base c with
    | some d => (readMore base false rest).map fun (ds, rest) => (d :: ds, rest)
    | none =>
      if owed then none
      else if c = '_' then readMore base true rest
      else some ([], c :: rest)

def readDigits (base : Nat) (cs : List Char) : Reading (List Nat) := readMore base true cs

def readUnpadded : List Char → Reading (List Nat)
  | '0' :: rest => some ([0], rest)
  | cs => readDigits 10 cs

def readSign : List Char → Bool × List Char
  | '+' :: rest => (false, rest)
  | '-' :: rest => (true, rest)
  | cs => (false, cs)

def ofDigits (base : Nat) (ds : List Nat) : Nat := ds.foldl (fun n d => base * n + d) 0

def integer? (n : Int) : Option Value :=
  if -0x8000000000000000 ≤ n ∧ n < 0x8000000000000000 then some (.integer n) else none

def signed (negative : Bool) (n : Nat) : Int := if negative then -(n : Int) else n

/-- An integer in another base, behind its mark. -/
def readInteger (base : Nat) (cs : List Char) : Option (Value × List Char) := do
  let (ds, rest) ← readDigits base cs
  return (← integer? (ofDigits base ds), rest)

def readFraction : List Char → Reading (List Nat)
  | '.' :: rest => readDigits 10 rest
  | cs => some ([], cs)

def readExponent : List Char → Reading Int
  | [] => some (0, [])
  | c :: rest =>
    if c = 'e' ∨ c = 'E' then
      let (negative, rest) := readSign rest
      (readDigits 10 rest).map fun (ds, rest) => (signed negative (ofDigits 10 ds), rest)
    else some (0, c :: rest)

/-- A float is rounded to the nearest one, and may overflow downwards but not upwards. -/
def float? (negative : Bool) (digits : List Nat) (exponent : Int) : Option Value :=
  match Binary64.ofDecimal negative (ofDigits 10 digits) exponent with
  | .infinite false => none
  | x => some (.float x)

def beginsFloat : List Char → Bool
  | c :: _ => c = '.' || c = 'e' || c = 'E'
  | [] => false

def readDecimal (negative : Bool) (cs : List Char) : Option (Value × List Char) := do
  let (whole, rest) ← readUnpadded cs
  if beginsFloat rest then
    let (fraction, rest) ← readFraction rest
    let (exponent, rest) ← readExponent rest
    return (← float? negative (whole ++ fraction) (exponent - fraction.length), rest)
  else return (← integer? (signed negative (ofDigits 10 whole)), rest)

def read : List Char → Reading Value
  | '0' :: 'x' :: rest => readInteger 16 rest
  | '0' :: 'o' :: rest => readInteger 8 rest
  | '0' :: 'b' :: rest => readInteger 2 rest
  | cs =>
    match readSign cs with
    | (negative, 'i' :: 'n' :: 'f' :: rest) => some (.float (.infinite negative), rest)
    | (_, 'n' :: 'a' :: 'n' :: rest) => some (.float .nan, rest)
    | (negative, rest) => readDecimal negative rest

end FirmwareHost.Toml.Number
