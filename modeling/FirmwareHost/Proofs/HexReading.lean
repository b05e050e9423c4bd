import FirmwareHost.Hex
import Mathlib.Data.Nat.Digits.Defs
import Mathlib.Data.List.Basic
import Mathlib.Algebra.Order.Ring.Nat

/-! Reading hexadecimal text back. A run of digits is read as a number exactly when, in lower case,
it is how that number is written; and among numbers of one width the order of the texts is the order
of the numbers. -/

namespace FirmwareHost.Hex

variable {c : Char} {d e m n v w : Nat} {cs ds rest : List Char}

theorem toNat_toLower (c : Char) :
    c.toLower.toNat = if 65 ≤ c.toNat ∧ c.toNat ≤ 90 then c.toNat + 32 else c.toNat := by
  have hle (a b : UInt32) : a ≤ b ↔ a.toNat ≤ b.toNat := UInt32.le_iff_toNat_le
  by_cases h : 65 ≤ c.toNat ∧ c.toNat ≤ 90
  · have hcase : c.val ≥ 'A'.val ∧ c.val ≤ 'Z'.val := by simpa [hle] using h
    have hval : c.toLower.val = c.val + ('a'.val - 'A'.val) := congrArg Char.val (dif_pos hcase)
    have hsum : (c.val + ('a'.val - 'A'.val)).toNat = (c.toNat + 32) % 2 ^ 32 := UInt32.toNat_add _ _
    rw [if_pos h, Char.toNat, hval, hsum]
    omega
  · have hcase : ¬ (c.val ≥ 'A'.val ∧ c.val ≤ 'Z'.val) := by simpa [hle] using h
    have hsame : c.toLower = c := dif_neg hcase
    rw [hsame, if_neg h]

theorem toNat_digit (h : d < 16) : (digit d).toNat = if d < 10 then 48 + d else 87 + d := by
  have hall : ∀ d < 16, (digit d).toNat = if d < 10 then 48 + d else 87 + d := by decide
  exact hall d h

theorem digit?_eq (c : Char) : digit? c =
    if 48 ≤ c.toNat ∧ c.toNat ≤ 57 then some (c.toNat - 48)
    else if 97 ≤ c.toNat ∧ c.toNat ≤ 102 then some (c.toNat - 87)
    else if 65 ≤ c.toNat ∧ c.toNat ≤ 70 then some (c.toNat - 55)
    else none := by
  simp only [digit?, Char.le_def, UInt32.le_iff_toNat_le]
  rfl

theorem digit?_eq_some_iff : digit? c = some d ↔ d < 16 ∧ c.toLower = digit d := by
  have hlower := toNat_toLower c
  rw [digit?_eq]
  constructor
  · intro h
    have hd : d < 16 := by grind
    refine ⟨hd, Char.toNat_inj.mp ?_⟩
    rw [hlower, toNat_digit hd]
    grind
  · rintro ⟨hd, h⟩
    have hn := toNat_digit hd
    rw [← h, hlower] at hn
    grind

theorem digit_inj (hd : d < 16) (he : e < 16) (h : digit d = digit e) : d = e := by
  have hn := congrArg Char.toNat h
  rw [toNat_digit hd, toNat_digit he] at hn
  split_ifs at hn <;> omega

theorem digit_lt_iff (hd : d < 16) (he : e < 16) : digit d < digit e ↔ d < e := by
  have hlt : digit d < digit e ↔ (digit d).toNat < (digit e).toNat := UInt32.lt_iff_toNat_lt
  rw [hlt, toNat_digit hd, toNat_digit he]
  split_ifs <;> omega

theorem toLower_digit (hd : d < 16) : (digit d).toLower = digit d := by
  have hall : ∀ d < 16, (digit d).toLower = digit d := by decide
  exact hall d hd

theorem toLower_eq_hyphen_iff : c.toLower = '-' ↔ c = '-' := by
  have hlower := toNat_toLower c
  rw [← Char.toNat_inj, ← Char.toNat_inj, hlower]
  have : '-'.toNat = 45 := rfl
  grind

theorem padded_append (v w n : Nat) :
    padded (v + w) n = padded v (n / 16 ^ w) ++ padded w n := by
  induction w generalizing n with
  | zero => simp [padded]
  | succ w ih =>
    rw [← Nat.add_assoc, padded, padded, ih, Nat.div_div_eq_div_mul, ← Nat.pow_succ',
      List.append_assoc]

theorem padded_succ (w n : Nat) : padded (w + 1) n = digit (n / 16 ^ w % 16) :: padded w n := by
  rw [Nat.add_comm, padded_append]
  rfl

theorem padded_mod (w n : Nat) : padded w (n % 16 ^ w) = padded w n := by
  induction w generalizing n with
  | zero => rfl
  | succ w ih =>
    have hhigh : n % 16 ^ (w + 1) / 16 = n / 16 % 16 ^ w := by
      rw [Nat.pow_succ']
      exact Nat.mod_mul_right_div_self n 16 (16 ^ w)
    have hlow : n % 16 ^ (w + 1) % 16 = n % 16 := by
      rw [Nat.pow_succ']
      exact Nat.mod_mul_right_mod n 16 (16 ^ w)
    rw [padded, padded, hhigh, hlow, ih]

theorem padded_inj : padded w m = padded w n ↔ m % 16 ^ w = n % 16 ^ w := by
  constructor
  · intro h
    induction w generalizing m n with
    | zero => simp [Nat.mod_one]
    | succ w ih =>
      rw [padded, padded] at h
      obtain ⟨hhigh, hlow⟩ := List.append_inj' h rfl
      have hd := digit_inj (Nat.mod_lt m (by decide)) (Nat.mod_lt n (by decide))
        (List.singleton_inj.mp hlow)
      rw [Nat.pow_succ', Nat.mod_mul, Nat.mod_mul, hd, ih hhigh]
  · intro h
    rw [← padded_mod w m, h, padded_mod]

/-- Behind texts of one length, the later parts matter only if these are equal. -/
theorem append_lt_append_iff {a b x y : List Char} (h : a.length = b.length) :
    a ++ x < b ++ y ↔ a < b ∨ a = b ∧ x < y := by
  induction a generalizing b with
  | nil =>
    obtain rfl : b = [] := List.length_eq_zero_iff.mp h.symm
    simp
  | cons c a ih =>
    cases b with
    | nil => simp at h
    | cons d b =>
      have hab := ih (Nat.succ.inj h)
      simp only [List.cons_append, List.cons_lt_cons_iff, hab, List.cons.injEq]
      tauto

theorem padded_lt_iff : padded w m < padded w n ↔ m % 16 ^ w < n % 16 ^ w := by
  induction w generalizing m n with
  | zero => simp [padded, Nat.mod_one]
  | succ w ih =>
    have hm := Nat.mod_lt m (show 0 < 16 by decide)
    have hn := Nat.mod_lt n (show 0 < 16 by decide)
    have hlast : [digit (m % 16)] < [digit (n % 16)] ↔ m % 16 < n % 16 := by
      simp [List.cons_lt_cons_iff, digit_lt_iff hm hn]
    rw [padded, padded, append_lt_append_iff (by simp), ih, padded_inj, hlast, Nat.pow_succ',
      Nat.mod_mul, Nat.mod_mul]
    omega

theorem toLower_padded (w n : Nat) : (padded w n).map Char.toLower = padded w n := by
  induction w generalizing n with
  | zero => rfl
  | succ w ih => simp [padded, ih, toLower_digit (Nat.mod_lt n (by decide))]

theorem padded_join (hd : d < 16) (hm : m < 16 ^ w) :
    d * 16 ^ w + m < 16 ^ (w + 1) ∧ padded (w + 1) (d * 16 ^ w + m) = digit d :: padded w m := by
  have hpos : 0 < 16 ^ w := Nat.pow_pos (by decide)
  have hdiv : (d * 16 ^ w + m) / 16 ^ w = d := by
    rw [Nat.mul_comm, Nat.mul_add_div hpos, Nat.div_eq_of_lt hm, Nat.add_zero]
  constructor
  · rw [Nat.pow_succ', ← Nat.div_lt_iff_lt_mul hpos, hdiv]
    exact hd
  · rw [padded_succ, hdiv, Nat.mod_eq_of_lt hd, List.cons.injEq, padded_inj,
      Nat.mul_add_mod_self_right]
    exact ⟨rfl, rfl⟩

theorem padded_split (hn : n < 16 ^ (w + 1)) : ∃ d m, d < 16 ∧ m < 16 ^ w ∧
    n = d * 16 ^ w + m ∧ padded (w + 1) n = digit d :: padded w m := by
  have hpos : 0 < 16 ^ w := Nat.pow_pos (by decide)
  have hd : n / 16 ^ w < 16 := by
    rw [Nat.div_lt_iff_lt_mul hpos, ← Nat.pow_succ']
    exact hn
  refine ⟨n / 16 ^ w, n % 16 ^ w, hd, Nat.mod_lt n hpos, (Nat.div_add_mod' n (16 ^ w)).symm, ?_⟩
  rw [padded_succ, padded_mod, Nat.mod_eq_of_lt hd]

/-- Reading takes exactly the runs of digits that spell a number in either case. -/
theorem read?_eq_some_iff : read? w v cs = some (n, rest) ↔
    ∃ ds m, cs = ds ++ rest ∧ m < 16 ^ w ∧ ds.map Char.toLower = padded w m ∧
      n = v * 16 ^ w + m := by
  induction w generalizing v cs with
  | zero =>
    constructor
    · intro h
      obtain ⟨rfl, rfl⟩ : v = n ∧ cs = rest := by simpa [read?] using h
      exact ⟨[], 0, rfl, by decide, rfl, by simp⟩
    · rintro ⟨ds, m, rfl, hm, hds, rfl⟩
      obtain rfl : m = 0 := by simpa using hm
      obtain rfl : ds = [] := by simpa [padded] using hds
      simp [read?]
  | succ w ih =>
    -- the digits read so far move up by one place with each digit
    have hshift (d m : Nat) :
        v * 16 ^ (w + 1) + (d * 16 ^ w + m) = (16 * v + d) * 16 ^ w + m := by
      rw [Nat.pow_succ', Nat.add_mul, ← Nat.mul_assoc, Nat.mul_comm v 16, Nat.add_assoc]
    constructor
    · intro h
      cases cs with
      | nil => simp [read?] at h
      | cons c cs =>
        obtain ⟨d, hd, hread⟩ := Option.bind_eq_some_iff.mp h
        obtain ⟨hd16, hlower⟩ := digit?_eq_some_iff.mp hd
        obtain ⟨ds, m, rfl, hm, hds, rfl⟩ := ih.mp hread
        obtain ⟨hlt, hpad⟩ := padded_join hd16 hm
        exact ⟨c :: ds, d * 16 ^ w + m, rfl, hlt, by rw [hpad, List.map_cons, hlower, hds],
          (hshift d m).symm⟩
    · rintro ⟨ds, n, rfl, hn, hds, rfl⟩
      obtain ⟨d, m, hd16, hm, rfl, hpad⟩ := padded_split hn
      rw [hpad] at hds
      obtain ⟨c, ds, rfl, hlower, hds⟩ := List.map_eq_cons_iff.mp hds
      rw [List.cons_append, read?, digit?_eq_some_iff.mpr ⟨hd16, hlower⟩, Option.bind_some]
      exact ih.mpr ⟨ds, m, rfl, hm, hds, hshift d m⟩

theorem read?_zero_iff : read? w 0 cs = some (n, rest) ↔
    ∃ ds, cs = ds ++ rest ∧ n < 16 ^ w ∧ ds.map Char.toLower = padded w n := by
  rw [read?_eq_some_iff]
  constructor
  · rintro ⟨ds, m, hcs, hm, hds, hn⟩
    obtain rfl : n = m := by omega
    exact ⟨ds, hcs, hm, hds⟩
  · rintro ⟨ds, hcs, hn, hds⟩
    exact ⟨ds, n, hcs, hn, hds, by omega⟩

def digits : List Char := "0123456789abcdef".toList

/-- The number that a run of digits spells, in either case. -/
def value (cs : List Char) : Nat :=
  Nat.ofDigits 16 (cs.map fun c => digits.idxOf c.toLower).reverse

theorem idxOf_digit (hd : d < 16) : digits.idxOf (digit d) = d := by
  have hall : ∀ d < 16, digits.idxOf (digit d) = d := by decide
  exact hall d hd

theorem value_of_toLower (h : ds.map Char.toLower = padded w m) : value ds = m % 16 ^ w := by
  have hmap : (ds.map fun c => digits.idxOf c.toLower) = (padded w m).map digits.idxOf := by
    rw [← h, List.map_map]
    rfl
  rw [value, hmap]
  clear h hmap
  induction w generalizing m with
  | zero => simp [padded, Nat.mod_one]
  | succ w ih =>
    have hlast := idxOf_digit (Nat.mod_lt m (show 0 < 16 by decide))
    rw [padded, List.map_append, List.reverse_append, Nat.ofDigits_append, ih, Nat.pow_succ',
      Nat.mod_mul]
    simp [hlast]

/-- The bytes that pairs of digits spell. -/
def octets : List Char → Bytes
  | c :: d :: cs => UInt8.ofNat (value [c, d]) :: octets cs
  | _ => []

theorem octets_append (w : Nat) (h : cs.length = 2 * w) :
    octets (cs ++ ds) = octets cs ++ octets ds := by
  induction w generalizing cs with
  | zero =>
    obtain rfl : cs = [] := List.length_eq_zero_iff.mp h
    rfl
  | succ w ih =>
    obtain ⟨c, d, cs, rfl⟩ : ∃ c d tail, cs = c :: d :: tail := by
      match cs, h with
      | c :: d :: cs, _ => exact ⟨c, d, cs, rfl⟩
    have hcs : cs.length = 2 * w := by
      simp only [List.length_cons] at h
      omega
    simp only [List.cons_append, octets, ih hcs]

theorem octets_of_toLower (h : ds.map Char.toLower = padded (2 * w) n) :
    octets ds = (littleEndian w n).reverse := by
  induction w generalizing ds n with
  | zero =>
    obtain rfl : ds = [] := by simpa [padded] using h
    rfl
  | succ w ih =>
    rw [show 2 * (w + 1) = 2 * w + 2 by omega, padded_append] at h
    obtain ⟨front, pair, rfl, hfront, hpair⟩ := List.map_eq_append_iff.mp h
    have hlength : front.length = 2 * w := by
      simpa using congrArg List.length hfront
    obtain ⟨c, d, rfl⟩ : ∃ c d, pair = [c, d] := by
      refine List.length_eq_two.mp ?_
      simpa using congrArg List.length hpair
    have hbyte : UInt8.ofNat (value [c, d]) = UInt8.ofNat n := by
      rw [value_of_toLower hpair]
      exact UInt8.ofNat_mod_size
    rw [octets_append w hlength, ih hfront, littleEndian, List.reverse_cons, octets, hbyte]
    rfl

end FirmwareHost.Hex
