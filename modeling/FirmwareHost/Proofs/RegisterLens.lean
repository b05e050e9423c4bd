import FirmwareHost.Scenario.Context

/-! Snapshots as views of a frame. A frame is made of what its snapshot exposes and of a hidden
part. A commit writes the one and keeps the other, and the laws of a lens follow from that alone. -/

namespace FirmwareHost

/-- Frames seen through snapshots. A commit exposes the reduced snapshot, since a frame may hold
fewer bits of a register than a snapshot does. -/
structure View {F S : Type} (capture : F → S) (commit : S → F → F) (reduced : S → S)
    (hidden : F → List UInt64) : Prop where
  captured : ∀ s f, capture (commit s f) = reduced s
  kept : ∀ s f, hidden (commit s f) = hidden f
  exact : ∀ f, reduced (capture f) = capture f
  ext : ∀ f g, capture f = capture g → hidden f = hidden g → f = g

theorem View.eq_commit_iff {F S : Type} {capture : F → S} {commit : S → F → F} {reduced : S → S}
    {hidden : F → List UInt64} (hv : View capture commit reduced hidden) {s : S} {f g : F} :
    commit s f = g ↔ capture g = reduced s ∧ hidden g = hidden f := by
  constructor
  · rintro rfl
    exact ⟨hv.captured s f, hv.kept s f⟩
  · rintro ⟨hc, hh⟩
    exact hv.ext _ g ((hv.captured s f).trans hc.symm) ((hv.kept s f).trans hh.symm)

def Arm.Frame.hidden (f : Frame) : List UInt64 :=
  [f.trapNo, f.errorCode, f.oldmask, f.faultAddress].map UInt32.toUInt64

theorem Arm.view : View Frame.capture Snapshot.commit id Frame.hidden where
  captured _ _ := rfl
  kept _ _ := rfl
  exact _ := rfl
  ext f g hc hh := by
    cases f
    cases g
    simp only [Frame.capture, Snapshot.mk.injEq] at hc
    simp_all [Frame.hidden, UInt32.toUInt64_inj]

def Ia32.Frame.hidden (f : Frame) : List UInt64 :=
  [f.trapno, f.err, f.uesp, f.fpregs, f.oldmask].map UInt32.toUInt64

theorem Ia32.view : View Frame.capture Snapshot.commit id Frame.hidden where
  captured _ _ := rfl
  kept _ _ := rfl
  exact _ := rfl
  ext f g hc hh := by
    cases f
    cases g
    simp only [Frame.capture, Snapshot.mk.injEq] at hc
    simp_all [Frame.hidden, UInt32.toUInt64_inj]

namespace X64

theorem bit_selectorMask (i : Nat) : selectorMask.toBitVec.getLsbD i = decide (i < 16) := by
  change (BitVec.ofNat 64 (2 ^ 16 - 1)).getLsbD i = _
  rw [BitVec.getLsbD_ofNat, Nat.testBit_two_pow_sub_one]
  grind

theorem bit_reservedMask (i : Nat) :
    reservedMask.toBitVec.getLsbD i = (decide (48 ≤ i) && decide (i < 64)) := by
  change (BitVec.ofNat 64 ((2 ^ 16 - 1) <<< 48)).getLsbD i = _
  rw [BitVec.getLsbD_ofNat, Nat.testBit_shiftLeft, Nat.testBit_two_pow_sub_one]
  grind

/-- Each bit of the selector word comes from one selector or stays as it was. -/
theorem bit_packSelectors (old : UInt64) (s : Snapshot) (i : Nat) :
    (packSelectors old s).toBitVec.getLsbD i =
      if i < 16 then s.cs.toBitVec.getLsbD i
      else if i < 32 then s.gs.toBitVec.getLsbD (i - 16)
      else if i < 48 then s.fs.toBitVec.getLsbD (i - 32)
      else old.toBitVec.getLsbD i := by
  have hcut := fun n => BitVec.getLsbD_of_ge old.toBitVec n
  simp [packSelectors, bit_selectorMask, bit_reservedMask]
  grind

theorem eq_of_bits {a b : UInt64} (h : ∀ i < 64, a.toBitVec.getLsbD i = b.toBitVec.getLsbD i) :
    a = b :=
  UInt64.toBitVec_inj.mp (BitVec.eq_of_getLsbD_eq h)

variable (old : UInt64) (s : Snapshot)

theorem packSelectors_cs : packSelectors old s &&& selectorMask = s.cs &&& selectorMask := by
  refine eq_of_bits fun i hi => ?_
  simp [bit_selectorMask, bit_packSelectors]
  grind

theorem packSelectors_gs :
    (packSelectors old s >>> 16) &&& selectorMask = s.gs &&& selectorMask := by
  refine eq_of_bits fun i hi => ?_
  simp [bit_selectorMask, bit_packSelectors]
  grind

theorem packSelectors_fs :
    (packSelectors old s >>> 32) &&& selectorMask = s.fs &&& selectorMask := by
  refine eq_of_bits fun i hi => ?_
  simp [bit_selectorMask, bit_packSelectors]
  grind

theorem packSelectors_reserved : packSelectors old s &&& reservedMask = old &&& reservedMask := by
  refine eq_of_bits fun i hi => ?_
  simp [bit_reservedMask, bit_packSelectors]
  grind

theorem eq_of_windows {v w : UInt64} (hcs : v &&& selectorMask = w &&& selectorMask)
    (hgs : (v >>> 16) &&& selectorMask = (w >>> 16) &&& selectorMask)
    (hfs : (v >>> 32) &&& selectorMask = (w >>> 32) &&& selectorMask)
    (hold : v &&& reservedMask = w &&& reservedMask) : v = w := by
  refine eq_of_bits fun i hi => ?_
  have bit_eq {a b : UInt64} (h : a = b) (j : Nat) : a.toBitVec.getLsbD j = b.toBitVec.getLsbD j :=
    by rw [h]
  have h0 := bit_eq hcs i
  have h1 := bit_eq hgs (i - 16)
  have h2 := bit_eq hfs (i - 32)
  have h3 := bit_eq hold i
  simp [bit_selectorMask, bit_reservedMask] at h0 h1 h2 h3
  grind

/-- The frame has 16 bits for each selector. -/
def Snapshot.reduced (s : Snapshot) : Snapshot :=
  { s with
    cs := s.cs &&& selectorMask
    fs := s.fs &&& selectorMask
    gs := s.gs &&& selectorMask }

def Frame.hidden (f : Frame) : List UInt64 :=
  [f.err, f.trapno, f.oldmask, f.selectors &&& reservedMask]

theorem view : View Frame.capture Snapshot.commit Snapshot.reduced Frame.hidden where
  captured s f := by
    simp only [Snapshot.commit, Frame.capture, Snapshot.reduced, packSelectors_cs,
      packSelectors_gs, packSelectors_fs]
  kept s f := by simp only [Snapshot.commit, Frame.hidden, packSelectors_reserved]
  exact f := by
    simp only [Frame.capture, Snapshot.reduced, UInt64.and_assoc, UInt64.and_self]
  ext f g hc hh := by
    simp only [Frame.capture, Snapshot.mk.injEq] at hc
    simp only [Frame.hidden, List.cons.injEq] at hh
    -- every other register is equal word by word
    have hw : f.selectors = g.selectors := by
      obtain ⟨-, -, -, hcs, hfs, hgs, -⟩ := hc
      obtain ⟨-, -, -, hold, -⟩ := hh
      exact eq_of_windows hcs hgs hfs hold
    cases f
    cases g
    simp_all

end X64

def Snapshot.reduced : Snapshot → Snapshot
  | .x64 s => .x64 s.reduced
  | s => s

/-- The words of a frame that no snapshot of it exposes. -/
def Frame.hidden : Frame → List UInt64
  | .arm f => f.hidden
  | .ia32 f => f.hidden
  | .x64 f => f.hidden

section

variable {c d : Snapshot} {f g : Frame}

theorem Snapshot.arch_reduced (c : Snapshot) : c.reduced.arch = c.arch := by
  cases c <;> rfl

theorem Frame.arch_capture (f : Frame) : f.capture.arch = f.arch := by
  cases f <;> rfl

theorem Frame.reduced_capture (f : Frame) : f.capture.reduced = f.capture := by
  cases f with
  | arm f => rfl
  | ia32 f => rfl
  | x64 f => exact congrArg Snapshot.x64 (X64.view.exact f)

theorem Snapshot.commit_of_arch_ne (h : c.arch ≠ f.arch) :
    c.commit f = .error .invalidParameter := by
  cases c <;> cases f <;> first | rfl | exact absurd rfl h

theorem Snapshot.commit_of_arch_eq (h : c.arch = f.arch) : ∃ g, c.commit f = .ok g := by
  cases c <;> cases f <;> first | exact ⟨_, rfl⟩ | cases h

/-- A commit is the one way to show a snapshot and keep the hidden words. -/
theorem Snapshot.commit_eq_ok_iff :
    c.commit f = .ok g ↔ c.arch = f.arch ∧ g.capture = c.reduced ∧ g.hidden = f.hidden := by
  by_cases h : c.arch = f.arch
  · cases c <;> cases f <;> cases h <;> cases g <;>
      simp [commit, reduced, arch, Frame.arch, Frame.capture, Frame.hidden, Arm.view.eq_commit_iff,
        Ia32.view.eq_commit_iff, X64.view.eq_commit_iff]
  · simp [commit_of_arch_ne h, h]

theorem Frame.commit_capture (f : Frame) : f.capture.commit f = .ok f :=
  Snapshot.commit_eq_ok_iff.mpr ⟨f.arch_capture, f.reduced_capture.symm, rfl⟩

theorem Snapshot.arch_of_commit (h : c.commit f = .ok g) : g.arch = f.arch := by
  obtain ⟨ha, hc, -⟩ := commit_eq_ok_iff.mp h
  rw [← g.arch_capture, hc, arch_reduced, ha]

theorem Snapshot.commit_commit (h : c.commit f = .ok g) : d.commit g = d.commit f := by
  have ha := arch_of_commit h
  by_cases hd : d.arch = f.arch
  · obtain ⟨k, hk⟩ := commit_of_arch_eq hd
    obtain ⟨-, hc, hh⟩ := commit_eq_ok_iff.mp hk
    have hg := (commit_eq_ok_iff.mp h).2.2
    rw [hk, commit_eq_ok_iff, ha]
    exact ⟨hd, hc, hh.trans hg.symm⟩
  · rw [commit_of_arch_ne hd, commit_of_arch_ne (ha ▸ hd)]

/-- Capture and commit lose nothing. A snapshot of another architecture is refused, and the frame
stays as it was. -/
theorem Frame.lossless (f : Frame) (c d : Snapshot) :
    f.capture.commit f = .ok f ∧
    (c.arch = f.arch → ∃ g, c.commit f = .ok g ∧ g.capture = c.reduced ∧ g.hidden = f.hidden ∧
      d.commit g = d.commit f ∧ ∀ k, k.capture = c.reduced → k.hidden = f.hidden → k = g) ∧
    (c.arch ≠ f.arch → c.commit f = .error .invalidParameter ∧
      Scenario.committed c f = (.committed (.error .invalidParameter) f, f)) := by
  refine ⟨f.commit_capture, fun ha => ?_, fun ha => ?_⟩
  · obtain ⟨g, hg⟩ := Snapshot.commit_of_arch_eq ha
    obtain ⟨-, hc, hh⟩ := Snapshot.commit_eq_ok_iff.mp hg
    refine ⟨g, hg, hc, hh, Snapshot.commit_commit hg, fun k hkc hkh => ?_⟩
    have hk : c.commit f = .ok k := Snapshot.commit_eq_ok_iff.mpr ⟨ha, hkc, hkh⟩
    exact Except.ok.inj (hk.symm.trans hg)
  · have he := Snapshot.commit_of_arch_ne ha
    exact ⟨he, by rw [Scenario.committed, he]⟩

theorem Frame.lossless_sample :
    let f : Frame := .x64 { (default : X64.Frame) with selectors := 0xABCD002B00630033, err := 6 }
    let c : Snapshot := .x64 { X64.Snapshot.zero with cs := 0x10023, rip := 0x1000 }
    let g : Frame := .x64 { (default : X64.Frame) with
      selectors := 0xABCD000000000023, err := 6, rip := 0x1000 }
    (c.commit f = .ok g ∧ g.hidden = f.hidden) ∧
      (Snapshot.zero .arm).commit f = .error .invalidParameter := by
  intro f c g
  obtain ⟨k, hk, -, hh, -, -⟩ := (f.lossless c c).2.1 rfl
  have hg : c.commit f = .ok g := by rfl
  obtain rfl : k = g := Except.ok.inj (hk.symm.trans hg)
  exact ⟨⟨hk, hh⟩, ((f.lossless (Snapshot.zero .arm) c).2.2 (by decide)).1⟩

end

end FirmwareHost
