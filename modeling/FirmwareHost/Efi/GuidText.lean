import FirmwareHost.Efi.Guid
import FirmwareHost.Hex

/-! The text of a GUID: 32 hexadecimal digits in groups of 8, 4, 4, 4 and 12 with hyphens
between. Printing writes lower case and reading takes either case. -/

namespace FirmwareHost.Guid

def textLength : Nat := 36

def text (g : Guid) : String :=
  String.ofList
    (Hex.padded 8 g.data1.toNat ++ '-' :: Hex.padded 4 g.data2.toNat ++
      '-' :: Hex.padded 4 g.data3.toNat ++ '-' :: Hex.padded 4 (g.data4.toNat / 0x1000000000000) ++
      '-' :: Hex.padded 12 g.data4.toNat)

inductive TextError where
  /-- The text has the given number of UTF-8 bytes instead of 36. -/
  | length (size : Nat)
  | malformed
  deriving DecidableEq, Repr

def TextError.message : TextError → String
  | .length size => "guid must be 36 characters, got " ++ toString size
  | .malformed => "malformed guid: failed to parse a UUID"

/-- Reads a group of digits and the hyphen that ends it. -/
def readGroup? (width : Nat) (cs : List Char) : Option (Nat × List Char) :=
  match Hex.read? width 0 cs with
  | some (value, '-' :: rest) => some (value, rest)
  | _ => none

def ofGroups? (cs : List Char) : Option Guid := do
  let (data1, cs) ← readGroup? 8 cs
  let (data2, cs) ← readGroup? 4 cs
  let (data3, cs) ← readGroup? 4 cs
  let (high, cs) ← readGroup? 4 cs
  match Hex.read? 12 0 cs with
  | some (low, []) =>
    return ⟨.ofNat data1, .ofNat data2, .ofNat data3, .ofNat (high * 0x1000000000000 + low)⟩
  | _ => none

def parse (t : String) : Except TextError Guid :=
  if t.utf8ByteSize ≠ textLength then .error (.length t.utf8ByteSize)
  else match ofGroups? t.toList with
    | some g => .ok g
    | none => .error .malformed

end FirmwareHost.Guid
