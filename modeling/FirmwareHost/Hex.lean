import FirmwareHost.Bytes

/-! Hexadecimal text: single digits, numbers of a fixed width, and numbers without leading
zeros. Digits are written in lower case and read in either. -/

namespace FirmwareHost.Hex

def digit (n : Nat) : Char :=
  if n < 10 then Char.ofNat (48 + n) else Char.ofNat (87 + n)

def digit? (c : Char) : Option Nat :=
  if '0' ≤ c ∧ c ≤ '9' then some (c.toNat - 48)
  else if 'a' ≤ c ∧ c ≤ 'f' then some (c.toNat - 87)
  else if 'A' ≤ c ∧ c ≤ 'F' then some (c.toNat - 55)
  else none

/-- The `width` lowest digits of a number, highest first. -/
def padded : Nat → Nat → List Char
  | 0, _ => []
  | width + 1, value => padded width (value / 16) ++ [digit (value % 16)]

/-- Reads exactly `width` digits and returns their number and the text behind them. -/
def read? : Nat → Nat → List Char → Option (Nat × List Char)
  | 0, value, rest => some (value, rest)
  | _ + 1, _, [] => none
  | width + 1, value, c :: rest => (digit? c).bind fun d => read? width (16 * value + d) rest

/-- A number with no leading zeros and no fixed width. -/
def number (value : Nat) : String :=
  String.ofList (Nat.toDigits 16 value)

def bytes (bs : Bytes) : String :=
  String.ofList (bs.flatMap fun b => padded 2 b.toNat)

def bytes? : List Char → Option Bytes
  | [] => some []
  | [_] => none
  | high :: low :: rest => do
    let h ← digit? high
    let l ← digit? low
    let bs ← bytes? rest
    return UInt8.ofNat (16 * h + l) :: bs

@[simp] theorem length_padded (width value : Nat) : (padded width value).length = width := by
  induction width generalizing value with
  | zero => rfl
  | succ width ih => simp [padded, ih]

end FirmwareHost.Hex
