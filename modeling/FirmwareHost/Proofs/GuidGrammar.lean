import FirmwareHost.Efi.GuidText
import FirmwareHost.Proofs.HexReading
import FirmwareHost.Proofs.Layout
import FirmwareHost.Proofs.Utf8Reading
import Mathlib.Data.List.Forall2

/-! Which texts are GUIDs. A text is one exactly when each of its 36 bytes is admitted where it
stands; it is then read as the GUID whose own text it is in lower case. -/

namespace FirmwareHost.Guid

variable {g h : Guid} {t : String} {cs ds rest : List Char} {n w : Nat}

theorem toList_toLower (t : String) : t.toLower.toList = t.toList.map Char.toLower :=
  String.toList_map

theorem toList_text (g : Guid) : g.text.toList =
    Hex.padded 8 g.data1.toNat ++ '-' :: (Hex.padded 4 g.data2.toNat ++
      '-' :: (Hex.padded 4 g.data3.toNat ++
        '-' :: (Hex.padded 4 (g.data4.toNat / 0x1000000000000) ++
          '-' :: Hex.padded 12 g.data4.toNat))) := by
  simp [text]

theorem toLower_of_readGroup? (h : readGroup? w cs = some (n, rest)) :
    n < 16 ^ w ∧ cs.map Char.toLower = Hex.padded w n ++ '-' :: rest.map Char.toLower := by
  unfold readGroup? at h
  split at h
  · next value rest' hr =>
    obtain ⟨rfl, rfl⟩ : value = n ∧ rest' = rest := by simpa using h
    obtain ⟨ds, rfl, hn, hds⟩ := Hex.read?_zero_iff.mp hr
    exact ⟨hn, by simp [hds, Hex.toLower_eq_hyphen_iff.mpr]⟩
  · cases h

theorem split_of_toLower {x : List Char} (h : cs.map Char.toLower = Hex.padded w n ++ '-' :: x) :
    ∃ ds rest, cs = ds ++ '-' :: rest ∧ ds.map Char.toLower = Hex.padded w n ∧
      rest.map Char.toLower = x := by
  obtain ⟨ds, tail, rfl, hds, h⟩ := List.map_eq_append_iff.mp h
  obtain ⟨c, rest, rfl, hc, hrest⟩ := List.map_eq_cons_iff.mp h
  obtain rfl := Hex.toLower_eq_hyphen_iff.mp hc
  exact ⟨ds, rest, rfl, hds, hrest⟩

theorem readGroup?_of_toLower {x : List Char} (hn : n < 16 ^ w)
    (h : cs.map Char.toLower = Hex.padded w n ++ '-' :: x) :
    ∃ rest, readGroup? w cs = some (n, rest) ∧ rest.map Char.toLower = x := by
  obtain ⟨ds, rest, rfl, hds, hrest⟩ := split_of_toLower h
  have hr : Hex.read? w 0 (ds ++ '-' :: rest) = some (n, '-' :: rest) :=
    Hex.read?_zero_iff.mpr ⟨ds, rfl, hn, hds⟩
  exact ⟨rest, by simp [readGroup?, hr], hrest⟩

theorem read?_last_iff : Hex.read? w 0 cs = some (n, []) ↔
    n < 16 ^ w ∧ cs.map Char.toLower = Hex.padded w n := by
  rw [Hex.read?_zero_iff]
  constructor
  · rintro ⟨ds, rfl, hn, hds⟩
    exact ⟨hn, by rw [List.append_nil, hds]⟩
  · rintro ⟨hn, hcs⟩
    exact ⟨cs, by rw [List.append_nil], hn, hcs⟩

/-- The GUID whose text has groups with these values. -/
def ofGroups (data1 data2 data3 high low : Nat) : Guid :=
  ⟨.ofNat data1, .ofNat data2, .ofNat data3, .ofNat (high * 0x1000000000000 + low)⟩

theorem toList_text_ofGroups {data1 data2 data3 high low : Nat} (h1 : data1 < 16 ^ 8)
    (h2 : data2 < 16 ^ 4) (h3 : data3 < 16 ^ 4) (h4 : high < 16 ^ 4) (h5 : low < 16 ^ 12) :
    (ofGroups data1 data2 data3 high low).text.toList =
      Hex.padded 8 data1 ++ '-' :: (Hex.padded 4 data2 ++ '-' :: (Hex.padded 4 data3 ++
        '-' :: (Hex.padded 4 high ++ '-' :: Hex.padded 12 low))) := by
  have hsize : high * 0x1000000000000 + low < UInt64.size := by
    simp only [UInt64.size]
    omega
  have hhigh : (high * 0x1000000000000 + low) / 0x1000000000000 = high := by omega
  have hlow : Hex.padded 12 (high * 0x1000000000000 + low) = Hex.padded 12 low :=
    Hex.padded_inj.mpr (by omega)
  simp only [toList_text, ofGroups, UInt32.toNat_ofNat_of_lt' h1, UInt16.toNat_ofNat_of_lt' h2,
    UInt16.toNat_ofNat_of_lt' h3, UInt64.toNat_ofNat_of_lt' hsize, hhigh, hlow]

theorem exists_ofGroups (g : Guid) : ∃ data1 data2 data3 high low, data1 < 16 ^ 8 ∧
    data2 < 16 ^ 4 ∧ data3 < 16 ^ 4 ∧ high < 16 ^ 4 ∧ low < 16 ^ 12 ∧
    g = ofGroups data1 data2 data3 high low := by
  have hdata4 := g.data4.toNat_lt
  have hsum : g.data4.toNat / 0x1000000000000 * 0x1000000000000 +
      g.data4.toNat % 0x1000000000000 = g.data4.toNat := by omega
  refine ⟨g.data1.toNat, g.data2.toNat, g.data3.toNat, g.data4.toNat / 0x1000000000000,
    g.data4.toNat % 0x1000000000000, g.data1.toNat_lt, g.data2.toNat_lt, g.data3.toNat_lt,
    by omega, by omega, ?_⟩
  simp only [ofGroups, hsum, UInt32.ofNat_toNat, UInt16.ofNat_toNat, UInt64.ofNat_toNat]

/-- Text is read as a GUID exactly when, in lower case, it is that GUID's text. -/
theorem ofGroups?_eq_some_iff :
    ofGroups? cs = some g ↔ cs.map Char.toLower = g.text.toList := by
  constructor
  · intro h
    simp only [ofGroups?, Option.bind_eq_bind, Option.bind_eq_some_iff] at h
    obtain ⟨⟨data1, cs1⟩, h1, ⟨data2, cs2⟩, h2, ⟨data3, cs3⟩, h3, ⟨high, cs4⟩, h4, h5⟩ := h
    obtain ⟨hd1, hm1⟩ := toLower_of_readGroup? h1
    obtain ⟨hd2, hm2⟩ := toLower_of_readGroup? h2
    obtain ⟨hd3, hm3⟩ := toLower_of_readGroup? h3
    obtain ⟨hd4, hm4⟩ := toLower_of_readGroup? h4
    split at h5
    · next low hlow =>
      obtain ⟨hd5, hm5⟩ := read?_last_iff.mp hlow
      obtain rfl : ofGroups data1 data2 data3 high low = g := Option.some.inj h5
      rw [toList_text_ofGroups hd1 hd2 hd3 hd4 hd5, hm1, hm2, hm3, hm4, hm5]
    · cases h5
  · intro h
    obtain ⟨data1, data2, data3, high, low, hd1, hd2, hd3, hd4, hd5, rfl⟩ := g.exists_ofGroups
    rw [toList_text_ofGroups hd1 hd2 hd3 hd4 hd5] at h
    obtain ⟨cs1, h1, h⟩ := readGroup?_of_toLower hd1 h
    obtain ⟨cs2, h2, h⟩ := readGroup?_of_toLower hd2 h
    obtain ⟨cs3, h3, h⟩ := readGroup?_of_toLower hd3 h
    obtain ⟨cs4, h4, h⟩ := readGroup?_of_toLower hd4 h
    have h5 : Hex.read? 12 0 cs4 = some (low, []) := read?_last_iff.mpr ⟨hd5, h⟩
    simp only [ofGroups?, Option.bind_eq_bind, h1, h2, h3, h4, h5, Option.bind_some]
    rfl

/-- The offsets of the hyphens. -/
def hyphens : List Nat := [8, 13, 18, 23]

/-- Whether a character, in lower case, fits a place that is a hyphen's or a digit's. -/
def Fits : Bool → Char → Prop
  | true, c => c = '-'
  | false, c => ∃ d < 16, c = Hex.digit d

def shape : List Bool := (List.range 36).map fun i => decide (i ∈ hyphens)

variable {s : List Bool} {i : Nat} {b : UInt8} {c : Char}

theorem forall₂_group_iff : List.Forall₂ Fits (List.replicate w false ++ s) cs ↔
    ∃ n < 16 ^ w, ∃ rest, cs = Hex.padded w n ++ rest ∧ List.Forall₂ Fits s rest := by
  induction w generalizing cs with
  | zero =>
    constructor
    · intro h
      exact ⟨0, by decide, cs, rfl, h⟩
    · rintro ⟨n, -, rest, rfl, h⟩
      exact h
  | succ w ih =>
    rw [List.replicate_succ, List.cons_append, List.forall₂_cons_left_iff]
    constructor
    · rintro ⟨-, tail, ⟨d, hd, rfl⟩, h, rfl⟩
      obtain ⟨m, hm, rest, rfl, hrest⟩ := ih.mp h
      obtain ⟨hlt, hpad⟩ := Hex.padded_join hd hm
      exact ⟨_, hlt, rest, by rw [hpad]; rfl, hrest⟩
    · rintro ⟨n, hn, rest, rfl, hrest⟩
      obtain ⟨d, m, hd, hm, rfl, hpad⟩ := Hex.padded_split hn
      exact ⟨_, _, ⟨d, hd, rfl⟩, ih.mpr ⟨m, hm, rest, rfl, hrest⟩, by rw [hpad]; rfl⟩

theorem forall₂_hyphen_iff : List.Forall₂ Fits (true :: s) cs ↔
    ∃ rest, cs = '-' :: rest ∧ List.Forall₂ Fits s rest := by
  rw [List.forall₂_cons_left_iff]
  constructor
  · rintro ⟨-, rest, rfl, h, rfl⟩
    exact ⟨rest, rfl, h⟩
  · rintro ⟨rest, rfl, h⟩
    exact ⟨'-', rest, rfl, h, rfl⟩

theorem shape_eq : shape = List.replicate 8 false ++ true :: (List.replicate 4 false ++
    true :: (List.replicate 4 false ++ true :: (List.replicate 4 false ++
      true :: (List.replicate 12 false ++ [])))) := by
  decide

theorem exists_text_iff : (∃ g : Guid, cs = g.text.toList) ↔ List.Forall₂ Fits shape cs := by
  rw [shape_eq]
  constructor
  · rintro ⟨g, hg⟩
    obtain ⟨data1, data2, data3, high, low, hd1, hd2, hd3, hd4, hd5, rfl⟩ := g.exists_ofGroups
    rw [hg, toList_text_ofGroups hd1 hd2 hd3 hd4 hd5, ← List.append_nil (Hex.padded 12 low)]
    refine forall₂_group_iff.mpr ⟨data1, hd1, _, rfl, forall₂_hyphen_iff.mpr ⟨_, rfl, ?_⟩⟩
    refine forall₂_group_iff.mpr ⟨data2, hd2, _, rfl, forall₂_hyphen_iff.mpr ⟨_, rfl, ?_⟩⟩
    refine forall₂_group_iff.mpr ⟨data3, hd3, _, rfl, forall₂_hyphen_iff.mpr ⟨_, rfl, ?_⟩⟩
    refine forall₂_group_iff.mpr ⟨high, hd4, _, rfl, forall₂_hyphen_iff.mpr ⟨_, rfl, ?_⟩⟩
    exact forall₂_group_iff.mpr ⟨low, hd5, _, rfl, .nil⟩
  · intro h
    obtain ⟨data1, hd1, _, rfl, h1⟩ := forall₂_group_iff.mp h
    obtain ⟨_, rfl, t1⟩ := forall₂_hyphen_iff.mp h1
    obtain ⟨data2, hd2, _, rfl, h2⟩ := forall₂_group_iff.mp t1
    obtain ⟨_, rfl, t2⟩ := forall₂_hyphen_iff.mp h2
    obtain ⟨data3, hd3, _, rfl, h3⟩ := forall₂_group_iff.mp t2
    obtain ⟨_, rfl, t3⟩ := forall₂_hyphen_iff.mp h3
    obtain ⟨high, hd4, _, rfl, h4⟩ := forall₂_group_iff.mp t3
    obtain ⟨_, rfl, t4⟩ := forall₂_hyphen_iff.mp h4
    obtain ⟨low, hd5, _, rfl, h5⟩ := forall₂_group_iff.mp t4
    obtain rfl := List.forall₂_nil_left_iff.mp h5
    exact ⟨ofGroups data1 data2 data3 high low, by
      rw [toList_text_ofGroups hd1 hd2 hd3 hd4 hd5, List.append_nil]⟩

/-- Whether a byte may stand at an offset of a GUID's text. -/
def Admits (i : Nat) (b : UInt8) : Prop :=
  if i ∈ hyphens then b = 45 else 48 ≤ b ∧ b ≤ 57 ∨ 65 ≤ b ∧ b ≤ 70 ∨ 97 ≤ b ∧ b ≤ 102

instance (i : Nat) (b : UInt8) : Decidable (Admits i b) :=
  inferInstanceAs (Decidable (ite _ _ _))

theorem lt_of_admits (h : Admits i b) : b.toNat < 128 := by
  unfold Admits at h
  split at h
  · simp [h]
  · simp only [UInt8.le_iff_toNat_le, UInt8.reduceToNat] at h
    omega

theorem admits_iff (h : c.toNat < 128) :
    Admits i (UInt8.ofNat c.toNat) ↔ Fits (decide (i ∈ hyphens)) c.toLower := by
  have hbyte : (UInt8.ofNat c.toNat).toNat = c.toNat := by
    rw [UInt8.toNat_ofNat']
    omega
  by_cases hi : i ∈ hyphens
  · have hc : UInt8.ofNat c.toNat = 45 ↔ c = '-' := by
      rw [← UInt8.toNat_inj, hbyte, ← Char.toNat_inj]
      rfl
    simp [Admits, Fits, hi, hc, Hex.toLower_eq_hyphen_iff]
  · have hdigit : (∃ d < 16, c.toLower = Hex.digit d) ↔ (Hex.digit? c).isSome := by
      simp only [Option.isSome_iff_exists, Hex.digit?_eq_some_iff]
    simp only [Admits, hi, if_false, decide_false, Fits, hdigit, Hex.digit?_eq,
      UInt8.le_iff_toNat_le, hbyte, UInt8.reduceToNat]
    grind

theorem forall₂_shape_iff : List.Forall₂ Fits shape (cs.map Char.toLower) ↔
    cs.length = 36 ∧ ∀ i c, cs[i]? = some c → Fits (decide (i ∈ hyphens)) c.toLower := by
  have hlength : shape.length = 36 := by simp [shape]
  rw [List.forall₂_map_right_iff, List.forall₂_iff_get]
  constructor
  · rintro ⟨hcs, h⟩
    refine ⟨hcs.symm.trans hlength, fun i c hc => ?_⟩
    obtain ⟨hi, rfl⟩ := List.getElem?_eq_some_iff.mp hc
    simpa [shape] using h i (hcs ▸ hi) hi
  · rintro ⟨hcs, h⟩
    refine ⟨hlength.trans hcs.symm, fun i h1 h2 => ?_⟩
    simpa [shape] using h i _ (List.getElem?_eq_getElem h2)

theorem ascii_of_fits {p : Bool} (h : Fits p c.toLower) : c.toNat < 128 := by
  have hlower : c.toLower.toNat < 128 := by
    cases p with
    | true =>
      obtain rfl : c = '-' := Hex.toLower_eq_hyphen_iff.mp h
      decide
    | false =>
      obtain ⟨d, hd, hc⟩ := h
      rw [hc, Hex.toNat_digit hd]
      split <;> omega
  have hc := Hex.toNat_toLower c
  split at hc <;> omega

/-- The bytes of a text are admitted, each where it stands, exactly when the text in lower case is
that of some GUID. -/
theorem admitted_iff : (Utf8.encode t).length = 36 ∧
    (∀ i b, (Utf8.encode t)[i]? = some b → Admits i b) ↔ ∃ g : Guid, t.toLower = g.text := by
  have hchars : (∃ g : Guid, t.toLower = g.text) ↔
      List.Forall₂ Fits shape (t.toList.map Char.toLower) := by
    rw [← exists_text_iff]
    simp only [← String.toList_inj, toList_toLower]
  rw [hchars, forall₂_shape_iff]
  constructor
  · rintro ⟨hlength, h⟩
    have hascii : ∀ c ∈ t.toList, c.toNat < 128 := by
      refine Utf8.ascii_of_encode fun b hb => ?_
      obtain ⟨i, hi⟩ := List.mem_iff_getElem?.mp hb
      exact lt_of_admits (h i b hi)
    rw [Utf8.encode_of_ascii hascii] at hlength h
    refine ⟨by simpa using hlength, fun i c hc => ?_⟩
    have hadmits := h i (UInt8.ofNat c.toNat) (by simp [hc])
    exact (admits_iff (hascii c (List.mem_of_getElem? hc))).mp hadmits
  · rintro ⟨hlength, h⟩
    have hascii : ∀ c ∈ t.toList, c.toNat < 128 := by
      intro c hc
      obtain ⟨i, hi⟩ := List.mem_iff_getElem?.mp hc
      exact ascii_of_fits (h i c hi)
    rw [Utf8.encode_of_ascii hascii]
    refine ⟨by simpa using hlength, fun i b hb => ?_⟩
    obtain ⟨c, hc, rfl⟩ : ∃ c, t.toList[i]? = some c ∧ UInt8.ofNat c.toNat = b := by
      simpa using hb
    exact (admits_iff (hascii c (List.mem_of_getElem? hc))).mpr (h i c hc)

theorem parse_eq_ok_iff : parse t = .ok g ↔ t.toLower = g.text := by
  have hgroups : ofGroups? t.toList = some g ↔ t.toLower = g.text := by
    rw [ofGroups?_eq_some_iff, ← String.toList_inj, toList_toLower]
  rw [← hgroups]
  constructor
  · intro h
    unfold parse at h
    split at h
    · cases h
    · split at h
      · next g' hg => rw [hg, Except.ok.inj h]
      · cases h
  · intro h
    have hsize : t.utf8ByteSize = textLength := by
      rw [← Utf8.length_encode]
      exact (admitted_iff.mpr ⟨g, hgroups.mp h⟩).1
    simp [parse, hsize, h]

theorem parse_eq_length_iff : parse t = .error (.length n) ↔
    (Utf8.encode t).length = n ∧ n ≠ 36 := by
  rw [Utf8.length_encode]
  unfold parse
  split
  · next hsize =>
    simp only [Except.error.injEq, TextError.length.injEq]
    constructor
    · rintro rfl
      exact ⟨rfl, hsize⟩
    · rintro ⟨hn, -⟩
      exact hn
  · next hsize =>
    have hsize : t.utf8ByteSize = 36 := not_not.mp hsize
    constructor
    · intro h
      split at h <;> cases h
    · rintro ⟨rfl, hne⟩
      exact absurd hsize hne

theorem parse_eq_malformed_iff : parse t = .error .malformed ↔
    (Utf8.encode t).length = 36 ∧ ∃ i b, (Utf8.encode t)[i]? = some b ∧ ¬ Admits i b := by
  have hnot : (∃ i b, (Utf8.encode t)[i]? = some b ∧ ¬ Admits i b) ↔
      ¬ ∀ i b, (Utf8.encode t)[i]? = some b → Admits i b := by
    simp only [not_forall, exists_prop]
  rw [hnot]
  constructor
  · intro h
    have hlength : (Utf8.encode t).length = 36 := by
      by_contra hne
      have := parse_eq_length_iff.mpr ⟨rfl, hne⟩
      rw [h] at this
      cases this
    refine ⟨hlength, fun hall => ?_⟩
    obtain ⟨g, hg⟩ := admitted_iff.mp ⟨hlength, hall⟩
    rw [parse_eq_ok_iff.mpr hg] at h
    cases h
  · rintro ⟨hlength, hbad⟩
    cases hp : parse t with
    | ok g =>
      exact absurd (admitted_iff.mpr ⟨g, parse_eq_ok_iff.mp hp⟩).2 hbad
    | error e =>
      cases e with
      | malformed => rfl
      | length n =>
        obtain ⟨rfl, hne⟩ := parse_eq_length_iff.mp hp
        exact absurd hlength hne


theorem text_lt_iff : g < h ↔ g.text < h.text := by
  have hlt : g < h ↔ g.toNat < h.toNat := Iff.rfl
  have hgroups {w : Nat} {m n : Nat} {x y : List Char} :
      Hex.padded w m ++ x < Hex.padded w n ++ y ↔
        m % 16 ^ w < n % 16 ^ w ∨ m % 16 ^ w = n % 16 ^ w ∧ x < y := by
    rw [Hex.append_lt_append_iff (by simp), Hex.padded_lt_iff, Hex.padded_inj]
  have hhyphen {x y : List Char} : '-' :: x < '-' :: y ↔ x < y := by
    simp
  rw [hlt, String.lt_iff, toList_text, toList_text]
  simp only [hgroups, hhyphen, Hex.padded_lt_iff, toNat, UInt16.size, UInt64.size]
  have := g.data1.toNat_lt
  have := g.data2.toNat_lt
  have := g.data3.toNat_lt
  have := g.data4.toNat_lt
  have := h.data1.toNat_lt
  have := h.data2.toNat_lt
  have := h.data3.toNat_lt
  have := h.data4.toNat_lt
  omega

theorem toLower_text (g : Guid) : g.text.toLower = g.text := by
  rw [← String.toList_inj, toList_toLower, toList_text]
  simp [Hex.toLower_padded]

/-- The groups of a text, when in lower case it is that of a GUID, spell the GUID's fields. -/
theorem fields_of_toLower (ht : t.toLower = g.text) : ∃ a b c d e,
    t.toList = a ++ '-' :: (b ++ '-' :: (c ++ '-' :: (d ++ '-' :: e))) ∧
    [a.length, b.length, c.length, d.length, e.length] = [8, 4, 4, 4, 12] ∧
    g.fields = (.ofNat (Hex.value a), .ofNat (Hex.value b), .ofNat (Hex.value c),
      Hex.octets (d ++ e)) := by
  have hlower : t.toList.map Char.toLower = g.text.toList := by
    rw [← ht, toList_toLower]
  rw [toList_text] at hlower
  obtain ⟨a, cs, hcs, ha, hlower⟩ := split_of_toLower hlower
  obtain ⟨b, cs, rfl, hb, hlower⟩ := split_of_toLower hlower
  obtain ⟨c, cs, rfl, hc, hlower⟩ := split_of_toLower hlower
  obtain ⟨d, e, rfl, hd, he⟩ := split_of_toLower hlower
  have hlength {ds : List Char} {w n : Nat} (h : ds.map Char.toLower = Hex.padded w n) :
      ds.length = w := by simpa using congrArg List.length h
  have hwords : (d ++ e).map Char.toLower = Hex.padded (2 * 8) g.data4.toNat := by
    rw [List.map_append, hd, he]
    exact (Hex.padded_append 4 12 _).symm
  refine ⟨a, b, c, d, e, hcs, ?_, ?_⟩
  · simp [hlength ha, hlength hb, hlength hc, hlength hd, hlength he]
  · have h1 : Hex.value a = g.data1.toNat :=
      (Hex.value_of_toLower ha).trans (Nat.mod_eq_of_lt g.data1.toNat_lt)
    have h2 : Hex.value b = g.data2.toNat :=
      (Hex.value_of_toLower hb).trans (Nat.mod_eq_of_lt g.data2.toNat_lt)
    have h3 : Hex.value c = g.data3.toNat :=
      (Hex.value_of_toLower hc).trans (Nat.mod_eq_of_lt g.data3.toNat_lt)
    rw [fields, h1, h2, h3, Hex.octets_of_toLower hwords, UInt32.ofNat_toNat,
      UInt16.ofNat_toNat, UInt16.ofNat_toNat]

theorem parse_of_admitted (hlength : (Utf8.encode t).length = 36)
    (h : ∀ i b, (Utf8.encode t)[i]? = some b → Admits i b) :
    ∃ g, parse t = .ok g ∧ t.toLower = g.text := by
  obtain ⟨g, hg⟩ := admitted_iff.mp ⟨hlength, h⟩
  exact ⟨g, parse_eq_ok_iff.mpr hg, hg⟩

theorem ascii_of_parse (ht : parse t = .ok g) : ∀ c ∈ t.toList, c.toNat < 128 := by
  have h := (admitted_iff.mpr ⟨g, parse_eq_ok_iff.mp ht⟩).2
  refine Utf8.ascii_of_encode fun b hb => ?_
  obtain ⟨i, hi⟩ := List.mem_iff_getElem?.mp hb
  exact lt_of_admits (h i b hi)

/-- A text is refused for its length first, then for a byte out of place, and is otherwise the GUID
whose text it is in lower case; texts, fields and both layouts carry a GUID back and forth, and the
order of GUIDs is that of their texts. -/
theorem parse_exact (t : String) (g h : Guid) :
    (∀ n, parse t = .error (.length n) ↔ (Utf8.encode t).length = n ∧ n ≠ 36) ∧
    (parse t = .error .malformed ↔ (Utf8.encode t).length = 36 ∧
      ∃ i b, (Utf8.encode t)[i]? = some b ∧ ¬ Admits i b) ∧
    ((∃ c ∈ t.toList, 128 ≤ c.toNat) → ∃ e, parse t = .error e) ∧
    ((Utf8.encode t).length = 36 → (∀ i b, (Utf8.encode t)[i]? = some b → Admits i b) →
      ∃ f a b c d e, parse t = .ok f ∧ f.text = t.toLower ∧
        t.toList = a ++ '-' :: (b ++ '-' :: (c ++ '-' :: (d ++ '-' :: e))) ∧
        [a.length, b.length, c.length, d.length, e.length] = [8, 4, 4, 4, 12] ∧
        f.fields = (.ofNat (Hex.value a), .ofNat (Hex.value b), .ofNat (Hex.value c),
          Hex.octets (d ++ e))) ∧
    parse g.text = .ok g ∧ ofBytes g.toBytes = g ∧
    (∀ bs : Bytes, bs.length = 16 → (ofBytes bs).toBytes = bs) ∧
    (g < h ↔ g.text < h.text) := by
  refine ⟨fun n => parse_eq_length_iff, parse_eq_malformed_iff, ?_, ?_,
    parse_eq_ok_iff.mpr g.toLower_text, ofBytes_toBytes g, fun bs hbs => toBytes_ofBytes hbs,
    text_lt_iff⟩
  · rintro ⟨c, hc, hhigh⟩
    cases hp : parse t with
    | error e => exact ⟨e, rfl⟩
    | ok f =>
      have hlow := ascii_of_parse hp c hc
      omega
  · intro hlength hall
    obtain ⟨f, hf, ht⟩ := parse_of_admitted hlength hall
    obtain ⟨a, b, c, d, e, hcs, hgroups, hfields⟩ := fields_of_toLower ht
    exact ⟨f, a, b, c, d, e, hf, ht.symm, hcs, hgroups, hfields⟩

theorem parse_exact_sample :
    (∃ f, parse "E1475E0C-1d3a-4D61-8c9b-1A2b3c4d5e6F" = .ok f ∧
      f.fields = (0xE1475E0C, 0x1D3A, 0x4D61, [0x8C, 0x9B, 0x1A, 0x2B, 0x3C, 0x4D, 0x5E, 0x6F])) ∧
    (∃ e, parse "\u00e91475e0c-1d3a-4d61-8c9b-1a2b3c4d5e6" = .error e) ∧
    (zero < ⟨0, 0, 1, 0⟩ ↔ zero.text < text ⟨0, 0, 1, 0⟩) := by
  obtain ⟨-, -, -, hread, -, -, -, hlt⟩ :=
    parse_exact "E1475E0C-1d3a-4D61-8c9b-1A2b3c4d5e6F" zero ⟨0, 0, 1, 0⟩
  obtain ⟨-, -, hascii, -⟩ := parse_exact "\u00e91475e0c-1d3a-4d61-8c9b-1a2b3c4d5e6" zero zero
  have hall : ∀ p ∈ (Utf8.encode "E1475E0C-1d3a-4D61-8c9b-1A2b3c4d5e6F").zipIdx,
      Admits p.2 p.1 := by decide
  obtain ⟨f, -, -, -, -, -, hf, -⟩ := hread (by decide) fun i b hb =>
    hall (b, i) (List.mem_zipIdx_iff_getElem?.mpr hb)
  refine ⟨⟨f, hf, ?_⟩, hascii ⟨Char.ofNat 0xE9, by decide, by decide⟩, hlt⟩
  have heval : (parse "E1475E0C-1d3a-4D61-8c9b-1A2b3c4d5e6F").map fields = .ok
      (0xE1475E0C, 0x1D3A, 0x4D61, [0x8C, 0x9B, 0x1A, 0x2B, 0x3C, 0x4D, 0x5E, 0x6F]) := by rfl
  rw [hf] at heval
  exact Except.ok.inj heval

end FirmwareHost.Guid
