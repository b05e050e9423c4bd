import FirmwareHost.Text.Utf8
import Mathlib.Data.List.Basic
import Mathlib.Tactic.SplitIfs

/-! Reading text back. The decoder takes the encoding of a character in one go, wherever its first
byte puts the range of the second. -/

namespace FirmwareHost.Utf8

variable {b low high : UInt8} {owed value tail lead : Nat} {rest : Bytes}

theorem decodeFrom_tail (hb : b.toNat = tail + 128) (hl : low ≤ b) (hh : b ≤ high) :
    decodeFrom (.inside (owed + 2) low high value) (b :: rest) =
      decodeFrom (.inside (owed + 1) 0x80 0xBF (value * 64 + tail)) rest := by
  simp [decodeFrom, next, hl, hh, hb]

theorem decodeFrom_last (hb : b.toNat = tail + 128) (hl : low ≤ b) (hh : b ≤ high) :
    decodeFrom (.inside 1 low high value) (b :: rest) =
      Char.ofNat (value * 64 + tail) :: decodeFrom .start rest := by
  simp [decodeFrom, next, hl, hh, hb]

theorem decodeFrom_start {d : Decoder} (h : first b = ([], d)) :
    decodeFrom .start (b :: rest) = decodeFrom d rest := by
  simp [decodeFrom, next, h]

theorem tail_within (hb : b.toNat = tail + 128) (ht : tail < 64) : 0x80 ≤ b ∧ b ≤ 0xBF := by
  simp only [UInt8.le_iff_toNat_le, hb, UInt8.reduceToNat]
  omega

theorem first_two (hb : b.toNat = lead + 192) (hl : 2 ≤ lead) (hh : lead < 32) :
    first b = ([], .inside 1 0x80 0xBF lead) := by
  have h1 : ¬ lead + 192 ≤ 127 := by omega
  have h2 : 194 ≤ lead + 192 ∧ lead + 192 ≤ 223 := by omega
  simp [first, UInt8.le_iff_toNat_le, hb, h1, h2]

/-- A first byte of 0xE0 excludes overlong encodings, and one of 0xED excludes surrogates. -/
theorem first_three {second : UInt8} (hb : b.toNat = lead + 224) (hl : lead < 16)
    (hs : second.toNat = tail + 128) (ht : tail < 64) (hlong : lead = 0 → 32 ≤ tail)
    (hpair : lead = 13 → tail < 32) :
    ∃ low high, first b = ([], .inside 2 low high lead) ∧ low ≤ second ∧ second ≤ high := by
  by_cases h0 : lead = 0
  · have he : b = 0xE0 := UInt8.toNat_inj.mp (by simp [hb, h0])
    refine ⟨0xA0, 0xBF, by simp [he, h0, first], ?_⟩
    simp only [UInt8.le_iff_toNat_le, hs, UInt8.reduceToNat]
    omega
  by_cases hd : lead = 13
  · have he : b = 0xED := UInt8.toNat_inj.mp (by simp [hb, hd])
    refine ⟨0x80, 0x9F, by simp [he, hd, first], ?_⟩
    simp only [UInt8.le_iff_toNat_le, hs, UInt8.reduceToNat]
    omega
  refine ⟨0x80, 0xBF, ?_, tail_within hs ht⟩
  have h1 : ¬ lead + 224 ≤ 127 := by omega
  have h2 : ¬ lead + 224 ≤ 223 := by omega
  have h3 : lead + 224 ≠ 237 := by omega
  have h4 : 225 ≤ lead + 224 ∧ lead + 224 ≤ 239 := by omega
  simp [first, UInt8.le_iff_toNat_le, ← UInt8.toNat_inj, hb, h0, h1, h2, h3, h4]

/-- A first byte of 0xF0 excludes overlong encodings, and one of 0xF4 what is out of range. -/
theorem first_four {second : UInt8} (hb : b.toNat = lead + 240) (hl : lead < 5)
    (hs : second.toNat = tail + 128) (ht : tail < 64) (hlong : lead = 0 → 16 ≤ tail)
    (hrange : lead = 4 → tail < 16) :
    ∃ low high, first b = ([], .inside 3 low high lead) ∧ low ≤ second ∧ second ≤ high := by
  by_cases h0 : lead = 0
  · have he : b = 0xF0 := UInt8.toNat_inj.mp (by simp [hb, h0])
    refine ⟨0x90, 0xBF, by simp [he, h0, first], ?_⟩
    simp only [UInt8.le_iff_toNat_le, hs, UInt8.reduceToNat]
    omega
  by_cases hd : lead = 4
  · have he : b = 0xF4 := UInt8.toNat_inj.mp (by simp [hb, hd])
    refine ⟨0x80, 0x8F, by simp [he, hd, first], ?_⟩
    simp only [UInt8.le_iff_toNat_le, hs, UInt8.reduceToNat]
    omega
  refine ⟨0x80, 0xBF, ?_, tail_within hs ht⟩
  have h1 : ¬ lead + 240 ≤ 127 := by omega
  have h2 : ¬ lead + 240 ≤ 223 := by omega
  have h3 : lead + 240 ≠ 224 ∧ lead + 240 ≠ 237 := by omega
  have h4 : ¬ lead + 240 ≤ 239 := by omega
  have h5 : 241 ≤ lead + 240 ∧ lead + 240 ≤ 243 := by omega
  simp [first, UInt8.le_iff_toNat_le, ← UInt8.toNat_inj, hb, h0, h1, h2, h3, h4, h5]

theorem decodeFrom_encodeChar (c : Char) :
    decodeFrom .start (String.utf8EncodeChar c ++ rest) = c :: decodeFrom .start rest := by
  obtain ⟨v, hv⟩ : ∃ v, c.val.toNat = v := ⟨_, rfl⟩
  have hc : Char.ofNat v = c := by
    rw [← hv]
    exact Char.ofNat_toNat c
  have hvalid : v < 0xD800 ∨ 0xDFFF < v ∧ v < 0x110000 := hv ▸ c.valid
  have hbyte {n : Nat} (hn : n < 256) : (UInt8.ofNat n).toNat = n := by
    simp [UInt8.toNat_ofNat', Nat.mod_eq_of_lt hn]
  have htail (n : Nat) : (UInt8.ofNat (n % 64 + 128)).toNat = n % 64 + 128 := hbyte (by omega)
  have hlast := tail_within (htail v) (by omega)
  simp only [String.utf8EncodeChar, hv]
  split
  · next h =>
    have hb := hbyte (show v < 256 by omega)
    simp [decodeFrom, next, first, UInt8.le_iff_toNat_le, hb, h, hc]
  split
  · have hb : (UInt8.ofNat (v / 64 % 32 + 192)).toNat = v / 64 + 192 := by
      rw [hbyte (by omega)]
      omega
    have hf := first_two hb (by omega) (by omega)
    have hjoin : v / 64 * 64 + v % 64 = v := by omega
    simp only [List.cons_append, List.nil_append]
    rw [decodeFrom_start hf, decodeFrom_last (htail v) hlast.1 hlast.2, hjoin, hc]
  split
  · have hb : (UInt8.ofNat (v / 4096 % 16 + 224)).toNat = v / 4096 + 224 := by
      rw [hbyte (by omega)]
      omega
    obtain ⟨low, high, hf, hl, hh⟩ := first_three hb (by omega) (htail (v / 64)) (by omega)
      (by omega) (by omega)
    have hjoin : (v / 4096 * 64 + v / 64 % 64) * 64 + v % 64 = v := by omega
    simp only [List.cons_append, List.nil_append]
    rw [decodeFrom_start hf, decodeFrom_tail (htail (v / 64)) hl hh,
      decodeFrom_last (htail v) hlast.1 hlast.2, hjoin, hc]
  · have hb : (UInt8.ofNat (v / 262144 % 8 + 240)).toNat = v / 262144 + 240 := by
      rw [hbyte (by omega)]
      omega
    obtain ⟨low, high, hf, hl, hh⟩ := first_four hb (by omega) (htail (v / 4096)) (by omega)
      (by omega) (by omega)
    have hnext := tail_within (htail (v / 64)) (by omega)
    have hjoin : ((v / 262144 * 64 + v / 4096 % 64) * 64 + v / 64 % 64) * 64 + v % 64 = v := by
      omega
    simp only [List.cons_append, List.nil_append]
    rw [decodeFrom_start hf, decodeFrom_tail (htail (v / 4096)) hl hh,
      decodeFrom_tail (htail (v / 64)) hnext.1 hnext.2,
      decodeFrom_last (htail v) hlast.1 hlast.2, hjoin, hc]

theorem length_encode (s : String) : (encode s).length = s.utf8ByteSize := by
  have h : (encode s).toByteArray = s.toByteArray := String.utf8Encode_toList
  rw [← List.size_toByteArray, h]
  rfl

theorem decode_encode (s : String) : decode (encode s) = s := by
  have hd (cs : List Char) : decodeFrom .start (cs.flatMap String.utf8EncodeChar) = cs := by
    induction cs with
    | nil => rfl
    | cons c cs ih => rw [List.flatMap_cons, decodeFrom_encodeChar, ih]
  simp [decode, encode, hd]

variable {c : Char} {s : String}

theorem encodeChar_of_ascii (h : c.toNat < 128) :
    String.utf8EncodeChar c = [UInt8.ofNat c.toNat] := by
  have hle : c.val.toNat ≤ 127 := Nat.le_of_lt_succ h
  simp only [String.utf8EncodeChar, if_pos hle]
  rfl

theorem exists_high_byte (h : 128 ≤ c.toNat) :
    ∃ b ∈ String.utf8EncodeChar c, 128 ≤ b.toNat := by
  obtain ⟨v, hv⟩ : ∃ v, c.val.toNat = v := ⟨_, rfl⟩
  have h : 128 ≤ v := hv ▸ h
  have hlow : ¬ v ≤ 127 := by omega
  simp only [String.utf8EncodeChar, hv, if_neg hlow]
  -- the last byte of every longer encoding is a tail byte
  have htail : 128 ≤ (UInt8.ofNat (v % 64 + 128)).toNat := by
    rw [UInt8.toNat_ofNat']
    omega
  split_ifs
  all_goals exact ⟨_, by simp, htail⟩

theorem encode_of_ascii (h : ∀ c ∈ s.toList, c.toNat < 128) :
    encode s = s.toList.map fun c => UInt8.ofNat c.toNat := by
  rw [encode, List.map_eq_flatMap]
  exact List.flatMap_congr fun c hc => encodeChar_of_ascii (h c hc)

theorem ascii_of_encode (h : ∀ b ∈ encode s, b.toNat < 128) : ∀ c ∈ s.toList, c.toNat < 128 := by
  intro c hc
  by_contra hhigh
  obtain ⟨b, hb, hb128⟩ := exists_high_byte (Nat.le_of_not_lt hhigh)
  have hlow := h b (List.mem_flatMap.mpr ⟨c, hc, hb⟩)
  omega

end FirmwareHost.Utf8
