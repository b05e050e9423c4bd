import FirmwareHost.Message.Response
import Mathlib.Algebra.Group.Nat.Defs

/-! Reading back what was laid out. Writing a number and reading it back keeps its residue, and
every byte string is the layout of the number it reads as. A message is read by offsets, and each
of its offsets falls on a boundary of the layout that was written. -/

namespace FirmwareHost

theorem ofLittleEndian_lt (bs : Bytes) : ofLittleEndian bs < 256 ^ bs.length := by
  induction bs with
  | nil => simp [ofLittleEndian]
  | cons b rest ih =>
    have hb := b.toNat_lt
    simp only [ofLittleEndian, List.length_cons, Nat.pow_succ]
    omega

theorem ofLittleEndian_littleEndian (width value : Nat) :
    ofLittleEndian (littleEndian width value) = value % 256 ^ width := by
  induction width generalizing value with
  | zero => simp [littleEndian, ofLittleEndian, Nat.mod_one]
  | succ width ih =>
    simp only [littleEndian, ofLittleEndian, ih, Nat.pow_succ']
    rw [Nat.mod_mul]
    simp

theorem littleEndian_ofLittleEndian (bs : Bytes) :
    littleEndian bs.length (ofLittleEndian bs) = bs := by
  induction bs with
  | nil => rfl
  | cons b rest ih =>
    have hb := b.toNat_lt
    have hdiv : (b.toNat + 256 * ofLittleEndian rest) / 256 = ofLittleEndian rest := by omega
    have hlow : UInt8.ofNat (b.toNat + 256 * ofLittleEndian rest) = b := by
      apply UInt8.toNat_inj.mp
      simp
    simp only [List.length_cons, littleEndian, ofLittleEndian, hdiv, hlow, ih]

theorem ofLittleEndian_lt_of_length {width : Nat} {bs : Bytes} (h : bs.length = width) :
    ofLittleEndian bs < 256 ^ width := by
  subst h
  exact ofLittleEndian_lt bs

theorem littleEndian_of_length {width : Nat} {bs : Bytes} (h : bs.length = width) :
    littleEndian width (ofLittleEndian bs) = bs := by
  subst h
  exact littleEndian_ofLittleEndian bs

theorem take_drop_layout {offset width : Nat} {before field after : Bytes}
    (hb : before.length = offset) (hf : field.length = width) :
    ((before ++ (field ++ after)).drop offset).take width = field := by
  rw [List.drop_left' hb, List.take_left' hf]

theorem ofLittleEndian_of_lt {width value : Nat} (h : value < 256 ^ width) :
    ofLittleEndian (littleEndian width value) = value := by
  rw [ofLittleEndian_littleEndian, Nat.mod_eq_of_lt h]

theorem wordAt_layout {offset width value : Nat} {before after : Bytes}
    (hb : before.length = offset) (hv : value < 256 ^ width) :
    wordAt offset width (before ++ (littleEndian width value ++ after)) = value := by
  rw [wordAt, take_drop_layout hb (length_littleEndian width value), ofLittleEndian_of_lt hv]

theorem takeExactly_append {length : Nat} {bytes after : Bytes} (h : bytes.length = length) :
    takeExactly length (bytes ++ after) = .ok bytes := by
  subst h
  simp [takeExactly]

theorem length_of_takeExactly {length : Nat} {tail bytes : Bytes}
    (h : takeExactly length tail = .ok bytes) : bytes.length = length ∧ length ≤ tail.length := by
  unfold takeExactly at h
  split at h
  · next hl =>
    cases h
    exact ⟨List.length_take_of_le hl, hl⟩
  · cases h

theorem wordAt_lt (offset width : Nat) (payload : Bytes) :
    wordAt offset width payload < 256 ^ width :=
  Nat.lt_of_lt_of_le (ofLittleEndian_lt _)
    (Nat.pow_le_pow_right (by decide) (List.length_take_le width (payload.drop offset)))

theorem le_of_requireHeader {size : Nat} {payload : Bytes}
    (h : requireHeader size payload = .ok ()) : size ≤ payload.length := by
  unfold requireHeader at h
  split at h
  · assumption
  · cases h

theorem requireHeader_of_le {size : Nat} {payload : Bytes} (h : size ≤ payload.length) :
    requireHeader size payload = .ok () := by
  simp [requireHeader, h]

@[simp] theorem overwrite_nil (offset : Nat) (old : Bytes) : overwrite offset [] old = old := by
  simp [overwrite]

theorem overwrite_zero (new old : Bytes) : overwrite 0 new old = new ++ old.drop new.length := by
  simp [overwrite]

theorem take_overwrite {offset : Nat} {new old : Bytes} (h : offset ≤ old.length) :
    (overwrite offset new old).take offset = old.take offset := by
  rw [overwrite, List.append_assoc]
  exact List.take_left' (List.length_take_of_le h)

theorem drop_overwrite {offset : Nat} {new old : Bytes} (h : offset ≤ old.length) :
    (overwrite offset new old).drop (offset + new.length) = old.drop (offset + new.length) := by
  apply List.drop_left'
  rw [List.length_append, List.length_take_of_le h]

theorem overwrite_zero_zeros {bytes : Bytes} {n : Nat} :
    overwrite 0 bytes (List.replicate n 0) = bytes ++ List.replicate (n - bytes.length) 0 := by
  simp [overwrite]

/-- Parameters are read back from behind 24 bytes and their length. -/
theorem read_invoke {front parameters after payload : Bytes} (hf : front.length = 24)
    (hp : payload = front ++ (littleEndian 4 parameters.length ++ (parameters ++ after)))
    (hl : parameters.length < lengthLimit) :
    requireHeader invokeHeaderSize payload = .ok () ∧
      takeExactly (wordAt 24 4 payload) (payload.drop invokeHeaderSize) = .ok parameters := by
  have hw : wordAt 24 4 payload = parameters.length := hp ▸ wordAt_layout hf hl
  have hd : payload.drop invokeHeaderSize = parameters ++ after := by
    rw [hp, ← List.append_assoc]
    exact List.drop_left' (by simp [hf, invokeHeaderSize])
  refine ⟨requireHeader_of_le (by simp [hp, hf, invokeHeaderSize]; omega), ?_⟩
  rw [hw, hd]
  exact takeExactly_append rfl

theorem read_debugInfo {front acpi name after payload : Bytes} (hf : front.length = 16)
    (hp : payload = front ++ (littleEndian 4 acpi.length ++
      (littleEndian 4 name.length ++ (acpi ++ (name ++ after)))))
    (ha : acpi.length < lengthLimit) (hn : name.length < lengthLimit) :
    requireHeader debugInfoHeaderSize payload = .ok () ∧
      takeExactly (wordAt 16 4 payload) (payload.drop debugInfoHeaderSize) = .ok acpi ∧
      takeExactly (wordAt 20 4 payload) ((payload.drop debugInfoHeaderSize).drop acpi.length) =
        .ok name := by
  have hw : wordAt 16 4 payload = acpi.length := hp ▸ wordAt_layout hf ha
  have hv : wordAt 20 4 payload = name.length := by
    rw [hp, ← List.append_assoc]
    exact wordAt_layout (by simp [hf]) hn
  have hd : payload.drop debugInfoHeaderSize = acpi ++ (name ++ after) := by
    rw [hp, ← List.append_assoc, ← List.append_assoc]
    exact List.drop_left' (by simp [hf, debugInfoHeaderSize])
  refine ⟨requireHeader_of_le (by simp [hp, hf, debugInfoHeaderSize]; omega), ?_, ?_⟩
  · rw [hw, hd]
    exact takeExactly_append rfl
  · rw [hv, hd, List.drop_left]
    exact takeExactly_append rfl

namespace Guid

theorem ofBytes_toBytes (g : Guid) : ofBytes g.toBytes = g := by
  let a := littleEndian 4 g.data1.toNat
  let b := littleEndian 2 g.data2.toNat
  let c := littleEndian 2 g.data3.toNat
  let e := (littleEndian 8 g.data4.toNat).reverse
  have hg : g.toBytes = a ++ b ++ c ++ e := rfl
  have ha : g.toBytes.take 4 = a := by
    rw [hg, List.append_assoc, List.append_assoc]
    exact List.take_left' (length_littleEndian 4 _)
  have hb : (g.toBytes.drop 4).take 2 = b := by
    rw [hg, List.append_assoc, List.append_assoc]
    exact take_drop_layout (length_littleEndian 4 _) (length_littleEndian 2 _)
  have hc : (g.toBytes.drop 6).take 2 = c := by
    rw [hg, List.append_assoc]
    exact take_drop_layout (by simp [a, b]) (length_littleEndian 2 _)
  have he : (g.toBytes.drop 8).take 8 = e := by
    rw [hg, ← List.append_nil e]
    exact take_drop_layout (by simp [a, b, c]) (by simp [e])
  have h1 := ofLittleEndian_of_lt (show g.data1.toNat < 256 ^ 4 from g.data1.toNat_lt)
  have h2 := ofLittleEndian_of_lt (show g.data2.toNat < 256 ^ 2 from g.data2.toNat_lt)
  have h3 := ofLittleEndian_of_lt (show g.data3.toNat < 256 ^ 2 from g.data3.toNat_lt)
  have h4 := ofLittleEndian_of_lt (show g.data4.toNat < 256 ^ 8 from g.data4.toNat_lt)
  simp only [ofBytes, ha, hb, hc, he, a, b, c, e, List.reverse_reverse, h1, h2, h3, h4,
    UInt32.ofNat_toNat, UInt16.ofNat_toNat, UInt64.ofNat_toNat]

theorem toBytes_ofBytes {bs : Bytes} (h : bs.length = 16) : (ofBytes bs).toBytes = bs := by
  let a := bs.take 4
  let b := (bs.drop 4).take 2
  let c := (bs.drop 6).take 2
  let e := (bs.drop 8).take 8
  have ha : a.length = 4 := by simp [a, h]
  have hb : b.length = 2 := by simp [b, h]
  have hc : c.length = 2 := by simp [c, h]
  have he : e.reverse.length = 8 := by simp [e, h]
  have h1 : littleEndian 4 (UInt32.ofNat (ofLittleEndian a)).toNat = a := by
    rw [UInt32.toNat_ofNat_of_lt' (ofLittleEndian_lt_of_length ha), littleEndian_of_length ha]
  have h2 : littleEndian 2 (UInt16.ofNat (ofLittleEndian b)).toNat = b := by
    rw [UInt16.toNat_ofNat_of_lt' (ofLittleEndian_lt_of_length hb), littleEndian_of_length hb]
  have h3 : littleEndian 2 (UInt16.ofNat (ofLittleEndian c)).toNat = c := by
    rw [UInt16.toNat_ofNat_of_lt' (ofLittleEndian_lt_of_length hc), littleEndian_of_length hc]
  have h4 : littleEndian 8 (UInt64.ofNat (ofLittleEndian e.reverse)).toNat = e.reverse := by
    rw [UInt64.toNat_ofNat_of_lt' (ofLittleEndian_lt_of_length he), littleEndian_of_length he]
  have hrest : e = bs.drop 8 := List.take_of_length_le (by simp [h])
  calc (ofBytes bs).toBytes
    _ = a ++ b ++ c ++ e := by
      simp only [toBytes, ofBytes, a, b, c, e, h1, h2, h3, h4, List.reverse_reverse]
    _ = bs.take 6 ++ c ++ e := by rw [← List.take_add]
    _ = bs.take 8 ++ e := by rw [← List.take_add]
    _ = bs := by rw [hrest, List.take_append_drop]

end Guid

end FirmwareHost
