import FirmwareHost.Efi.Failure

/-! What a wire status keeps of a status word. Seen bit by bit, the top three bits move down beside
the low 29 and the hole between them is closed, so the words with one wire status differ in bits 29
to 60 only. Failures carry a word past this: every word is that of its class. -/

namespace FirmwareHost

namespace Status

/-- Bit `i` of the word, from 0 up to 63 for the error bit. -/
def bit (s : Status) (i : Nat) : Bool := s.word.toBitVec.getLsbD i

variable {s t : Status} {w : UInt32} {i : Nat}

theorem testBit_namespaces (i : Nat) :
    Nat.testBit 0xE0000000 i = (decide (29 ≤ i) && decide (i < 32)) := by
  change ((2 ^ 3 - 1) <<< 29).testBit i = _
  rw [Nat.testBit_shiftLeft, Nat.testBit_two_pow_sub_one]
  grind

theorem testBit_mantissa (i : Nat) : Nat.testBit 0x1FFFFFFF i = decide (i < 29) :=
  Nat.testBit_two_pow_sub_one 29 i

theorem bit_of_le (h : 64 ≤ i) : s.bit i = false := BitVec.getLsbD_of_ge _ _ h

theorem ext_bit (h : ∀ i < 64, s.bit i = t.bit i) : s = t := by
  have hw : s.word = t.word := UInt64.toBitVec_inj.mp (BitVec.eq_of_getLsbD_eq h)
  cases s
  cases t
  exact congrArg Status.mk hw

theorem bit_toWire (s : Status) (i : Nat) : s.toWire.toBitVec.getLsbD i =
    if i < 29 then s.bit i else if i < 32 then s.bit (i + 32) else false := by
  simp [toWire, bit, BitVec.getLsbD_ofNat, testBit_namespaces, testBit_mantissa]
  grind

theorem bit_ofWire (w : UInt32) (i : Nat) : (ofWire w).bit i =
    if i < 29 then w.toBitVec.getLsbD i
    else if 61 ≤ i then w.toBitVec.getLsbD (i - 32) else false := by
  have hcut := fun n => BitVec.getLsbD_of_ge w.toBitVec n
  simp [ofWire, bit, BitVec.getLsbD_ofNat, testBit_namespaces, testBit_mantissa]
  grind

theorem isError_eq_bit (s : Status) : s.isError = s.bit 63 := by
  have hzero : s.word &&& errorBit = 0 ↔ s.bit 63 = false := by
    rw [← UInt64.toBitVec_inj]
    change s.word.toBitVec &&& BitVec.twoPow 64 63 = 0 ↔ s.word.toBitVec.getLsbD 63 = false
    rw [BitVec.and_twoPow]
    cases s.word.toBitVec.getLsbD 63 <;> simp
  cases hb : s.bit 63 with
  | false => simp [isError, hzero.mpr hb]
  | true =>
    have hne : s.word &&& errorBit ≠ 0 := fun h0 => by simp [hzero.mp h0] at hb
    simpa [isError] using hne

theorem bit_toWire_top (s : Status) : s.toWire.toBitVec.getLsbD 31 = s.isError := by
  rw [bit_toWire, isError_eq_bit]
  rfl

theorem toWire_ne_zero (h : s.isError = true) : s.toWire ≠ 0 := by
  intro h0
  have htop := s.bit_toWire_top
  simp [h, h0] at htop

theorem toWire_ofWire (w : UInt32) : (ofWire w).toWire = w := by
  apply UInt32.toBitVec_inj.mp
  apply BitVec.eq_of_getLsbD_eq
  intro i hi
  rw [bit_toWire, bit_ofWire, bit_ofWire]
  grind

theorem bit_ofWire_toWire (s : Status) (i : Nat) :
    (ofWire s.toWire).bit i = (s.bit i && decide (i < 29 ∨ 61 ≤ i)) := by
  have hcut := s.bit_of_le (i := i)
  rw [bit_ofWire, bit_toWire, bit_toWire]
  grind

theorem ofWire_toWire_iff : ofWire s.toWire = s ↔ ∀ i, 29 ≤ i → i ≤ 60 → s.bit i = false := by
  constructor
  · intro h i hlow hhigh
    rw [← h, bit_ofWire_toWire]
    grind
  · intro h
    refine ext_bit fun i _ => ?_
    have hi := h i
    rw [bit_ofWire_toWire]
    grind

theorem toWire_eq_iff :
    s.toWire = t.toWire ↔ ∀ i, i ≤ 28 ∨ 61 ≤ i ∧ i ≤ 63 → s.bit i = t.bit i := by
  constructor
  · intro h i hi
    have hs := s.bit_ofWire_toWire i
    have ht := t.bit_ofWire_toWire i
    rw [h] at hs
    grind
  · intro h
    rw [← toWire_ofWire s.toWire, ← toWire_ofWire t.toWire]
    refine congrArg toWire (ext_bit fun i hi => ?_)
    have hi := h i
    rw [bit_ofWire_toWire, bit_ofWire_toWire]
    grind

end Status

namespace Failure

variable {e f : Failure}

/-- Whether a failure is of a class of its own and not just a word. -/
def IsNamed (f : Failure) : Prop := ∀ s, f ≠ .other s

theorem mem_classes_iff : f ∈ classes ↔ f.IsNamed := by
  cases f <;> simp [classes, IsNamed]

theorem status_ofStatus (s : Status) : (ofStatus s).status = s := by
  unfold ofStatus
  cases hf : classes.find? fun f => f.status = s with
  | none => rfl
  | some f => simpa using List.find?_some hf

theorem status_inj (he : e.IsNamed) (hf : f.IsNamed) (h : e.status = f.status) : e = f := by
  have hinj : ∀ e ∈ classes, ∀ f ∈ classes, e.status = f.status → e = f := by decide
  exact hinj e (mem_classes_iff.mpr he) f (mem_classes_iff.mpr hf) h

theorem ofStatus_of_named (hf : f.IsNamed) : ofStatus f.status = f := by
  have hfind : (classes.find? fun g => g.status = f.status).isSome := by
    rw [List.find?_isSome]
    exact ⟨f, mem_classes_iff.mpr hf, by simp⟩
  obtain ⟨g, hg⟩ := Option.isSome_iff_exists.mp hfind
  have hs : g.status = f.status := by simpa using List.find?_some hg
  have hn : g.IsNamed := mem_classes_iff.mp (List.mem_of_find?_eq_some hg)
  rw [ofStatus, hg]
  exact status_inj hn hf hs

theorem ofStatus_status_iff :
    ofStatus e.status = e ↔ ∀ f : Failure, f.IsNamed → e ≠ .other f.status := by
  constructor
  · rintro h f hf rfl
    have hof := ofStatus_of_named hf
    rw [status, hof] at h
    exact hf _ h
  · intro h
    by_cases he : e.IsNamed
    · exact ofStatus_of_named he
    · obtain ⟨s, rfl⟩ : ∃ s, e = .other s := by simpa [IsNamed] using he
      have hnone : (classes.find? fun f => f.status = s) = none := by
        rw [List.find?_eq_none]
        intro f hf hs
        have hs : f.status = s := by simpa using hs
        exact h f (mem_classes_iff.mp hf) (by rw [hs])
      change ofStatus s = .other s
      rw [ofStatus, hnone]
      rfl

end Failure

/-- The wire keeps exactly bits 63 to 61 and 28 to 0, and a failure keeps its whole word. -/
theorem Status.loses_middle_bits (s t : Status) (w : UInt32) (e : Failure) :
    (ofWire w).toWire = w ∧
    (ofWire s.toWire = s ↔ ∀ i, 29 ≤ i → i ≤ 60 → s.bit i = false) ∧
    (s.toWire = t.toWire ↔ ∀ i, i ≤ 28 ∨ 61 ≤ i ∧ i ≤ 63 → s.bit i = t.bit i) ∧
    s.toWire.toBitVec.getLsbD 31 = s.isError ∧
    (Failure.ofStatus s).status = s ∧
    (Failure.ofStatus e.status = e ↔ ∀ f : Failure, f.IsNamed → e ≠ .other f.status) :=
  ⟨toWire_ofWire w, ofWire_toWire_iff, toWire_eq_iff, s.bit_toWire_top, Failure.status_ofStatus s,
    Failure.ofStatus_status_iff⟩

end FirmwareHost
