/-! Byte strings and the little-endian layout of numbers. -/

namespace FirmwareHost

abbrev Bytes := List UInt8

/-- The `width` least significant bytes of a number, lowest first. -/
def littleEndian : Nat → Nat → Bytes
  | 0, _ => []
  | width + 1, value => UInt8.ofNat value :: littleEndian width (value / 256)

def ofLittleEndian : Bytes → Nat
  | [] => 0
  | b :: rest => b.toNat + 256 * ofLittleEndian rest

/-- Replaces the bytes from `offset` on by `new`, keeping what lies before and after. -/
def overwrite (offset : Nat) (new old : Bytes) : Bytes :=
  old.take offset ++ new ++ old.drop (offset + new.length)

@[simp] theorem length_littleEndian (width value : Nat) :
    (littleEndian width value).length = width := by
  induction width generalizing value with
  | zero => rfl
  | succ width ih => simp [littleEndian, ih]

theorem length_overwrite {offset : Nat} {new old : Bytes} (h : offset + new.length ≤ old.length) :
    (overwrite offset new old).length = old.length := by
  simp only [overwrite, List.length_append, List.length_take, List.length_drop]
  omega

end FirmwareHost
