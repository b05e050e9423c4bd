import FirmwareHost.Bytes

/-! UTF-8. Reading accepts any bytes: each longest prefix of a character that breaks off becomes one
replacement character, and reading goes on at the byte that broke it. -/

namespace FirmwareHost.Utf8

def encode (s : String) : Bytes := s.toList.flatMap String.utf8EncodeChar

/-- Between characters, or inside one with tail bytes still owed, the range of the next, and the
bits read so far. -/
inductive Decoder where
  | start
  | inside (owed : Nat) (low high : UInt8) (value : Nat)
  deriving DecidableEq, Repr

def replacement : Char := '\uFFFD'

def first (b : UInt8) : List Char × Decoder :=
  if b ≤ 0x7F then ([Char.ofNat b.toNat], .start)
  else if 0xC2 ≤ b ∧ b ≤ 0xDF then ([], .inside 1 0x80 0xBF (b.toNat - 0xC0))
  else if b = 0xE0 then ([], .inside 2 0xA0 0xBF 0)
  else if b = 0xED then ([], .inside 2 0x80 0x9F 0xD)
  else if 0xE1 ≤ b ∧ b ≤ 0xEF then ([], .inside 2 0x80 0xBF (b.toNat - 0xE0))
  else if b = 0xF0 then ([], .inside 3 0x90 0xBF 0)
  else if 0xF1 ≤ b ∧ b ≤ 0xF3 then ([], .inside 3 0x80 0xBF (b.toNat - 0xF0))
  else if b = 0xF4 then ([], .inside 3 0x80 0x8F 4)
  else ([replacement], .start)

def next (d : Decoder) (b : UInt8) : List Char × Decoder :=
  match d with
  | .start => first b
  | .inside owed low high value =>
    if low ≤ b ∧ b ≤ high then
      let value := value * 64 + (b.toNat - 0x80)
      if owed ≤ 1 then ([Char.ofNat value], .start)
      else ([], .inside (owed - 1) 0x80 0xBF value)
    else
      let (cs, d) := first b
      (replacement :: cs, d)

def decodeFrom : Decoder → Bytes → List Char
  | .start, [] => []
  | .inside .., [] => [replacement]
  | d, b :: rest => (next d b).1 ++ decodeFrom (next d b).2 rest

def decode (bs : Bytes) : String := String.ofList (decodeFrom .start bs)

/-- Whether the bytes are the encoding of some text. -/
def isValid (bs : Bytes) : Bool := encode (decode bs) == bs

end FirmwareHost.Utf8
