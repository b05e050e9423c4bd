/-! Binary floating-point numbers of 64 bits: rounding a decimal number to the nearest one, and the
shortest decimal number that rounds back. -/

namespace FirmwareHost

inductive Binary64 where
  /-- The number `mantissa * 2 ^ shift` in units of the least positive number. -/
  | finite (negative : Bool) (mantissa shift : Nat)
  | infinite (negative : Bool)
  | nan
  deriving DecidableEq, Repr

namespace Binary64

/-- The least positive number is one over two to this power. -/
def unitPower : Nat := 1074

def precision : Nat := 53

def maxShift : Nat := 2045

/-- The quotient rounded to the nearest integer, and to the even one half way. -/
def roundDiv (n d : Nat) : Nat :=
  let q := n / d
  let twice := 2 * (n % d)
  if d < twice ∨ (d = twice ∧ q % 2 = 1) then q + 1 else q

/-- The nearest number to a quotient in units of the least positive number. -/
def nearest (negative : Bool) (n d : Nat) : Binary64 :=
  let shift := Nat.log2 (n / d) + 1 - precision
  let mantissa := roundDiv n (d * Nat.pow 2 shift)
  let (mantissa, shift) :=
    if mantissa = Nat.pow 2 precision then (Nat.pow 2 (precision - 1), shift + 1)
    else (mantissa, shift)
  if maxShift < shift then .infinite negative else .finite negative mantissa shift

def digitCount (n : Nat) : Nat := (Nat.toDigits 10 n).length

/-- The nearest number to `digits * 10 ^ exponent`. Far above and far below every finite number the
power itself is not needed. -/
def ofDecimal (negative : Bool) (digits : Nat) (exponent : Int) : Binary64 :=
  let magnitude := digitCount digits + exponent
  if digits = 0 ∨ magnitude < -330 then .finite negative 0 0
  else if 310 < magnitude then .infinite negative
  else
    let n := digits * Nat.pow 10 exponent.toNat * Nat.pow 2 unitPower
    nearest negative n (Nat.pow 10 (-exponent).toNat)

/-- What rounds to a number: the reals between two bounds, given with the number itself in quarters
of a unit. The bounds belong to it when the mantissa is even. -/
structure Interval where
  low : Nat
  value : Nat
  high : Nat
  closed : Bool

def interval (mantissa shift : Nat) : Interval :=
  let gap := Nat.pow 2 shift
  let value := 4 * mantissa * gap
  let below := if mantissa = Nat.pow 2 (precision - 1) ∧ 0 < shift then gap else 2 * gap
  ⟨value - below, value, value + 2 * gap, mantissa % 2 = 0⟩

def Interval.contains (i : Interval) (scale n : Nat) : Bool :=
  if i.closed then i.low * scale ≤ n && n ≤ i.high * scale
  else i.low * scale < n && n < i.high * scale

/-- The multiple of a power of ten that is inside the interval and nearest to the value. -/
def Interval.onGrid? (i : Interval) (power : Int) : Option Nat :=
  let scale := Nat.pow 10 (-power).toNat
  let unit := Nat.pow 2 (unitPower + 2) * Nat.pow 10 power.toNat
  let d := i.value * scale / unit
  match i.contains scale (d * unit), i.contains scale ((d + 1) * unit) with
  | true, true => some (if 2 * (i.value * scale - d * unit) < unit then d else d + 1)
  | true, false => some d
  | false, true => some (d + 1)
  | false, false => none

/-- The first hit on ever finer grids. -/
def Interval.search (i : Interval) : Nat → Int → Nat × Int
  | 0, power => (0, power)
  | fuel + 1, power =>
    match i.onGrid? power with
    | some d => (d, power)
    | none => i.search fuel (power - 1)

/-- The digits and the power of ten of the shortest decimal number that rounds to a finite one. -/
def shortest (mantissa shift : Nat) : Nat × Int :=
  let i := interval mantissa shift
  i.search 700 (digitCount (i.value / Nat.pow 2 (unitPower + 2)))

/-- Digits in positional notation, with at least one digit on each side of the point. -/
def positional (digits : Nat) (power : Int) : String :=
  let ds := Nat.toDigits 10 digits
  if 0 ≤ power then String.ofList (ds ++ List.replicate power.toNat '0' ++ ['.', '0'])
  else
    let places := (-power).toNat
    let ds := List.replicate (places + 1 - ds.length) '0' ++ ds
    String.ofList (ds.take (ds.length - places) ++ '.' :: ds.drop (ds.length - places))

def sign (negative : Bool) : String := if negative then "-" else ""

def text : Binary64 → String
  | .finite negative 0 _ => sign negative ++ "0.0"
  | .finite negative mantissa shift =>
    let (digits, power) := shortest mantissa shift
    sign negative ++ positional digits power
  | .infinite negative => sign negative ++ "inf"
  | .nan => "NaN"

end Binary64

end FirmwareHost
