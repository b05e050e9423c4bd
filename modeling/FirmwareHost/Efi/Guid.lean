import FirmwareHost.Bytes

/-! GUIDs: four words, a 16-byte memory layout with the first three words little-endian and the
last big-endian, and the order of the 128-bit number that the words spell. -/

namespace FirmwareHost

structure Guid where
  data1 : UInt32
  data2 : UInt16
  data3 : UInt16
  /-- The last eight bytes as one big-endian word. -/
  data4 : UInt64
  deriving DecidableEq, Repr, Inhabited

namespace Guid

def zero : Guid := ⟨0, 0, 0, 0⟩

/-- The words and the last eight bytes, in the order of the text. -/
def fields (g : Guid) : UInt32 × UInt16 × UInt16 × Bytes :=
  (g.data1, g.data2, g.data3, (littleEndian 8 g.data4.toNat).reverse)

/-- The 128-bit number whose big-endian bytes are those of the GUID's text. -/
def toNat (g : Guid) : Nat :=
  ((g.data1.toNat * UInt16.size + g.data2.toNat) * UInt16.size + g.data3.toNat) * UInt64.size +
    g.data4.toNat

instance : LT Guid := ⟨fun g h => g.toNat < h.toNat⟩

instance (g h : Guid) : Decidable (g < h) := inferInstanceAs (Decidable (g.toNat < h.toNat))

def sort (gs : List Guid) : List Guid := gs.mergeSort fun g h => g.toNat ≤ h.toNat

def toBytes (g : Guid) : Bytes :=
  littleEndian 4 g.data1.toNat ++ littleEndian 2 g.data2.toNat ++ littleEndian 2 g.data3.toNat ++
    (littleEndian 8 g.data4.toNat).reverse

/-- Inverse of `toBytes` on 16 bytes. -/
def ofBytes (bs : Bytes) : Guid :=
  { data1 := .ofNat (ofLittleEndian (bs.take 4))
    data2 := .ofNat (ofLittleEndian ((bs.drop 4).take 2))
    data3 := .ofNat (ofLittleEndian ((bs.drop 6).take 2))
    data4 := .ofNat (ofLittleEndian ((bs.drop 8).take 8).reverse) }

/-- The GUID whose text spells the given 16 bytes in order. -/
def ofBigEndianBytes (bs : Bytes) : Guid :=
  { data1 := .ofNat (ofLittleEndian (bs.take 4).reverse)
    data2 := .ofNat (ofLittleEndian ((bs.drop 4).take 2).reverse)
    data3 := .ofNat (ofLittleEndian ((bs.drop 6).take 2).reverse)
    data4 := .ofNat (ofLittleEndian ((bs.drop 8).take 8).reverse) }

@[simp] theorem length_toBytes (g : Guid) : g.toBytes.length = 16 := by
  simp [toBytes]

end Guid

end FirmwareHost
