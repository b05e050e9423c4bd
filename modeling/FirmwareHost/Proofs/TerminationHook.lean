import FirmwareHost.Proofs.HookStages

/-! Runs of a process that makes, copies, sets and drops shutdown flags and hooks them to the
termination signal. At most one hook is live, and the signal raises the flag of that hook alone. -/

namespace FirmwareHost

variable {η : Type}

/-- What is not about shutdown flags leaves them and their signal alone. -/
structure Process.SameFlags (p q : Process η) : Prop where
  flags : p.flags = q.flags
  hooked : p.hooked = q.hooked
  routed : p.dispositions SignalNumber.terminate = q.dispositions SignalNumber.terminate

/-- A process together with what its thread owns: the flag of each copy and of each hook. -/
structure FlagUser (η : Type) where
  process : Process η
  copies : List Nat
  hooks : List Nat

inductive FlagAction where
  | make
  | copy (flag : Nat)
  | set (flag : Nat) (value : Bool)
  | drop (flag : Nat)
  | install (flag : Nat)
  | remove (flag : Nat)
  /-- A termination signal arrives. -/
  | signal

/-- What an action writes to a flag while the flags `hooks` have a hook. -/
def FlagAction.writes (hooks : List Nat) (flag : Nat) : FlagAction → Option Bool
  | .set other value => if flag = other then some value else none
  | .signal => if flag ∈ hooks then some true else none
  | _ => none

namespace FlagUser

def initial : FlagUser η := ⟨.initial, [], []⟩

/-- Only what is owned can be used. Without its hook a termination signal ends the process. -/
def step (u : FlagUser η) : FlagAction → Option (FlagUser η)
  | .make => some ⟨u.process.newFlag.2, u.process.newFlag.1 :: u.copies, u.hooks⟩
  | .copy flag =>
    if flag ∈ u.copies then
      some { u with process := u.process.shareFlag flag, copies := flag :: u.copies }
    else none
  | .set flag value =>
    if flag ∈ u.copies then some { u with process := u.process.setFlag flag value } else none
  | .drop flag =>
    if flag ∈ u.copies then
      some { u with process := u.process.releaseFlag flag, copies := u.copies.erase flag }
    else none
  | .install flag =>
    if flag ∈ u.copies then
      match u.process.hook flag with
      | (.ok (), p) => some { u with process := p, hooks := flag :: u.hooks }
      | (.error _, p) => some { u with process := p }
    else none
  | .remove flag =>
    if flag ∈ u.hooks then
      some { u with process := u.process.unhook flag, hooks := u.hooks.erase flag }
    else none
  | .signal =>
    if u.process.Routed then some { u with process := u.process.raiseHooked } else none

/-- All that one action can do. -/
inductive Step (u : FlagUser η) : FlagAction → FlagUser η → Prop where
  | made : Step u .make ⟨u.process.newFlag.2, u.process.flags.length :: u.copies, u.hooks⟩
  | copied {flag : Nat} (h : flag ∈ u.copies) :
      Step u (.copy flag) ⟨u.process.shareFlag flag, flag :: u.copies, u.hooks⟩
  | set {flag : Nat} {value : Bool} (h : flag ∈ u.copies) :
      Step u (.set flag value) ⟨u.process.setFlag flag value, u.copies, u.hooks⟩
  | dropped {flag : Nat} (h : flag ∈ u.copies) :
      Step u (.drop flag) ⟨u.process.releaseFlag flag, u.copies.erase flag, u.hooks⟩
  | installed {flag : Nat} (h : flag ∈ u.copies) (hfree : u.process.hooked = none) :
      Step u (.install flag) ⟨u.process.hookedTo flag, u.copies, flag :: u.hooks⟩
  | refused {flag g : Nat} (h : flag ∈ u.copies) (hlive : u.process.hooked = some g) :
      Step u (.install flag) u
  | removed {flag : Nat} (h : flag ∈ u.hooks) :
      Step u (.remove flag) ⟨u.process.unhook flag, u.copies, u.hooks.erase flag⟩
  | signalled (hd : u.process.Routed) : Step u .signal ⟨u.process.raiseHooked, u.copies, u.hooks⟩

inductive Run (u : FlagUser η) : List FlagAction → FlagUser η → Prop where
  | start : Run u [] u
  | next {l : List FlagAction} {v w : FlagUser η} {a : FlagAction} (hr : Run u l v)
      (hs : v.step a = some w) : Run u (l ++ [a]) w
  /-- The rest of the process goes on. -/
  | apart {l : List FlagAction} {v : FlagUser η} {p : Process η} (hr : Run u l v)
      (hp : p.SameFlags v.process) : Run u l { v with process := p }

variable {u v w : FlagUser η} {a : FlagAction} {l l' : List FlagAction} {flag g k : Nat}
  {value : Bool}

theorem step_inv (hs : u.step a = some v) : Step u a v := by
  cases a with
  | make =>
    cases hs
    exact .made
  | install flag =>
    obtain ⟨h, hs⟩ := Option.ite_none_right_eq_some.mp hs
    cases hhook : u.process.hooked with
    | none =>
      rw [Process.hook_of_free hhook] at hs
      cases hs
      exact .installed h hhook
    | some g =>
      rw [Process.hook_of_live hhook] at hs
      cases hs
      exact .refused h hhook
  | copy | set | drop | remove | signal =>
    obtain ⟨h, hs⟩ := Option.ite_none_right_eq_some.mp hs
    cases hs
    constructor
    exact h

/-- What the process counts and routes is what its thread owns. -/
structure Steady (u : FlagUser η) : Prop where
  counts : u.process.Counts (u.copies ++ u.hooks)
  hooked : u.process.hooked.toList = u.hooks
  routed : u.process.dispositions SignalNumber.terminate =
    if u.hooks = [] then .default else .shutdown

namespace Steady

theorem initial : (initial : FlagUser η).Steady := ⟨fun _ => rfl, rfl, rfl⟩

theorem hooks_eq (hi : u.Steady) (h : u.process.hooked = some g) : u.hooks = [g] := by
  simpa [h, eq_comm] using hi.hooked

theorem hooks_eq_nil (hi : u.Steady) (h : u.process.hooked = none) : u.hooks = [] := by
  simpa [h, eq_comm] using hi.hooked

theorem hooked_of_mem (hi : u.Steady) (h : flag ∈ u.hooks) : u.process.hooked = some flag := by
  rw [← hi.hooked] at h
  simpa [Option.mem_toList] using h

theorem not_routed (hi : u.Steady) (h : u.process.hooked = none) : ¬ u.process.Routed := by
  intro hd
  rw [Process.Routed, hi.routed, if_pos (hi.hooks_eq_nil h)] at hd
  cases hd

theorem live (hi : u.Steady) (hd : u.process.Routed) : ∃ g, u.process.hooked = some g :=
  Option.ne_none_iff_exists'.mp fun hn => hi.not_routed hn hd

theorem step (hi : u.Steady) (hs : Step u a v) : v.Steady := by
  have hcopy {flag : Nat} (h : flag ∈ u.copies) : flag ∈ u.copies ++ u.hooks :=
    List.mem_append_left _ h
  cases hs with
  | made => exact ⟨hi.counts.newFlag, hi.hooked, hi.routed⟩
  | copied h => exact ⟨hi.counts.shareFlag (hcopy h), hi.hooked, hi.routed⟩
  | set h => exact ⟨hi.counts.setFlag (hcopy h), hi.hooked, hi.routed⟩
  | dropped h =>
    refine ⟨?_, hi.hooked, hi.routed⟩
    have hc := hi.counts.releaseFlag (hcopy h)
    rwa [List.erase_append_left _ h] at hc
  | installed h hfree =>
    refine ⟨(hi.counts.shareFlag (hcopy h)).perm List.perm_middle.symm, ?_, ?_⟩
    · rw [hi.hooks_eq_nil hfree]
      rfl
    · rfl
  | refused => exact hi
  | @removed flag h =>
    have hh := hi.hooked_of_mem h
    have hnil : u.hooks.erase flag = [] := by simp [hi.hooks_eq hh]
    refine ⟨?_, ?_, ?_⟩
    · have hc := (hi.counts.perm List.perm_append_comm).releaseFlag (List.mem_append_left _ h)
      rw [List.erase_append_left _ h] at hc
      exact hc.perm List.perm_append_comm
    · simp only [Process.hooked_unhook hh, hnil, Option.toList_none]
    · rw [hnil]
      rfl
  | signalled hd =>
    obtain ⟨g, hg⟩ := hi.live hd
    have hmem : g ∈ u.copies ++ u.hooks := by simp [hi.hooks_eq hg]
    rw [Process.raiseHooked_of_live hg]
    exact ⟨hi.counts.setFlag hmem, hi.hooked, hi.routed⟩

end Steady

theorem Step.isRaised (hi : u.Steady) (hs : Step u a v) :
    v.process.isRaised k = (a.writes u.hooks k).getD (u.process.isRaised k) := by
  have hcopy {flag : Nat} (h : flag ∈ u.copies) : flag < u.process.flags.length :=
    hi.counts.lt_length (List.mem_append_left _ h)
  cases hs with
  | made => exact Process.isRaised_newFlag
  | copied | dropped | installed | removed => exact Process.isRaised_changeFlag fun _ => rfl
  | refused => rfl
  | @set flag value h =>
    rw [Process.isRaised_setFlag (hcopy h), FlagAction.writes]
    split <;> rfl
  | signalled hd =>
    obtain ⟨g, hg⟩ := hi.live hd
    have hlt : g < u.process.flags.length := hi.counts.lt_length (by simp [hi.hooks_eq hg])
    simp only [Process.raiseHooked_of_live hg, Process.isRaised_setFlag hlt, FlagAction.writes,
      hi.hooks_eq hg, List.mem_singleton]
    split <;> rfl

theorem Steady.apart {p : Process η} (hi : u.Steady) (hp : p.SameFlags u.process) :
    Steady { u with process := p } where
  counts := by
    intro k
    simp only [Process.owners, hp.flags]
    exact hi.counts k
  hooked := hp.hooked ▸ hi.hooked
  routed := hp.routed.trans hi.routed

theorem Run.steady (hr : Run u l v) (hi : u.Steady) : v.Steady := by
  induction hr with
  | start => exact hi
  | next _ hs ih => exact ih.step (step_inv hs)
  | apart _ hp ih => exact ih.apart hp

theorem Steady.lowered (hi : u.Steady) (hs : u.step a = some v)
    (hu : u.process.isRaised k = true) (hv : v.process.isRaised k = false) :
    a = .set k false ∧ k ∈ u.copies := by
  have hw := (step_inv hs).isRaised (k := k) hi
  rw [hu, hv] at hw
  cases step_inv hs with
  | @set flag value h =>
    by_cases hk : k = flag
    · subst hk
      simp only [FlagAction.writes, if_true, Option.getD_some] at hw
      exact ⟨hw ▸ rfl, h⟩
    · simp [FlagAction.writes, hk] at hw
  | signalled =>
    simp only [FlagAction.writes] at hw
    split at hw <;> cases hw
  | _ => cases hw

def KeepsRaised (u : FlagUser η) (flag : Nat) : Prop :=
  ∀ l v, Run u l v → .set flag false ∉ l → v.process.isRaised flag = true

theorem Steady.keepsRaised (hi : u.Steady) (hu : u.process.isRaised flag = true) :
    u.KeepsRaised flag := by
  intro l v hr hl
  induction hr with
  | start => exact hu
  | next hr hs ih =>
    simp only [List.mem_append, List.mem_singleton, not_or] at hl
    refine Bool.not_eq_false _ |>.mp fun hv => hl.2 ?_
    exact ((hr.steady hi).lowered hs (ih hl.1) hv).1.symm
  | apart _ hp ih =>
    simp only [Process.isRaised, hp.flags]
    exact ih hl

/-- How flags and hooks stand between two operations. -/
structure WellHooked (u : FlagUser η) : Prop where
  single : u.hooks.length ≤ 1
  hooked : u.process.hooked.toList = u.hooks
  routed : u.process.dispositions SignalNumber.terminate =
    if u.hooks = [] then .default else .shutdown
  /-- A flag is in memory exactly as long as a copy or a hook holds it. -/
  held : ∀ flag, 0 < u.process.owners flag ↔ flag ∈ u.copies ∨ flag ∈ u.hooks
  installs : ∀ flag, u.process.hook flag =
    if u.hooks = [] then (.ok (), u.process.hookedTo flag)
    else (.error .alreadyStarted, u.process)
  signalled : ∀ flag ∈ u.hooks, ∃ v, u.step .signal = some v ∧ v.KeepsRaised flag ∧
    ∀ other, other ≠ flag → v.process.isRaised other = u.process.isRaised other
  kept : ∀ flag, u.process.isRaised flag = true → u.KeepsRaised flag
  lowered : ∀ {a v flag}, u.step a = some v → u.process.isRaised flag = true →
    v.process.isRaised flag = false → a = .set flag false ∧ flag ∈ u.copies
  /-- Signals that arrive during an installation might as well arrive after it. -/
  installing : ∀ flag ∈ u.copies,
    u.process.Interrupted flag .share (u.process.hook flag).1 (u.process.hook flag).2 ∧
      ∀ answer q, u.process.Interrupted flag .share answer q →
        answer = (u.process.hook flag).1 ∧ ∃ v, v.process = q ∧
          (Run u [.install flag] v ∨ Run u [.install flag, .signal] v)
  /-- Signals that arrive during a removal might as well arrive before it. -/
  removing : ∀ flag ∈ u.hooks,
    u.process.Interrupted flag .unroute (.ok ()) (u.process.unhook flag) ∧
      ∀ answer q, u.process.Interrupted flag .unroute answer q →
        answer = .ok () ∧ ∃ v, v.process = q ∧
          (Run u [.remove flag] v ∨ Run u [.signal, .remove flag] v)

theorem Steady.hook (hi : u.Steady) (flag : Nat) : u.process.hook flag =
    if u.hooks = [] then (.ok (), u.process.hookedTo flag)
    else (.error .alreadyStarted, u.process) := by
  cases h : u.process.hooked with
  | none => rw [Process.hook_of_free h, if_pos (hi.hooks_eq_nil h)]
  | some g => rw [Process.hook_of_live h, if_neg (by simp [hi.hooks_eq h])]

theorem step_signal (hd : u.process.Routed) :
    u.step .signal = some { u with process := u.process.raiseHooked } :=
  if_pos hd

theorem step_install (h : flag ∈ u.copies) : ∃ v, u.step (.install flag) = some v ∧
    v.process = (u.process.hook flag).2 := by
  obtain ⟨x, p, hp⟩ : ∃ x p, u.process.hook flag = (x, p) := ⟨_, _, rfl⟩
  cases x <;> simp [step, h, hp]

theorem Steady.wellHooked (hi : u.Steady) : u.WellHooked where
  single := by
    rw [← hi.hooked]
    cases u.process.hooked <;> simp
  hooked := hi.hooked
  routed := hi.routed
  held flag := by rw [hi.counts, List.count_pos_iff, List.mem_append]
  installs := hi.hook
  signalled flag hf := by
    have hd : u.process.Routed := hi.routed.trans (if_neg (List.ne_nil_of_mem hf))
    have hs := step_signal hd
    have hraised : u.process.raiseHooked.isRaised flag = true := by
      rw [(step_inv hs).isRaised hi]
      simp [FlagAction.writes, hf]
    refine ⟨_, hs, (hi.step (step_inv hs)).keepsRaised hraised, fun other ho => ?_⟩
    have hnot : other ∉ u.hooks := by
      rw [hi.hooks_eq (hi.hooked_of_mem hf)]
      simpa using ho
    rw [(step_inv hs).isRaised hi]
    simp [FlagAction.writes, hnot]
  kept _ := hi.keepsRaised
  lowered := hi.lowered
  installing flag h := by
    refine ⟨Process.interrupted_hook flag u.process, fun answer q hp => ?_⟩
    obtain ⟨rfl, hq⟩ := hp.install hi.not_routed
    obtain ⟨v, hs, hv⟩ := step_install h
    have hr : Run u [.install flag] v := .next .start hs
    rw [← hv] at hq
    rcases hq with rfl | ⟨hd, rfl⟩
    · exact ⟨rfl, v, rfl, .inl hr⟩
    · exact ⟨rfl, _, rfl, .inr (hr.next (step_signal hd))⟩
  removing flag h := by
    refine ⟨Process.interrupted_unhook flag u.process, fun answer q hp => ?_⟩
    obtain ⟨rfl, r, hr, rfl⟩ := hp.removal
    have hremove {v : FlagUser η} {l : List FlagAction} (hv : Run u l v) (hh : v.hooks = u.hooks) :
        Run u (l ++ [.remove flag]) ⟨v.process.unhook flag, v.copies, v.hooks.erase flag⟩ :=
      hv.next (if_pos (hh ▸ h))
    rcases hr with rfl | ⟨hd, rfl⟩
    · exact ⟨rfl, _, rfl, .inl (hremove .start rfl)⟩
    · exact ⟨rfl, _, rfl, .inr (hremove (.next .start (step_signal hd)) rfl)⟩

/-- At most one hook is live after any run, and another is refused without a trace. The signal is
routed exactly while there is one; it raises the hooked flag, for every copy and whatever comes of
them, and no other. A raised flag is lowered through one of its copies only. -/
theorem Run.well_hooked (hr : Run initial l u) : u.WellHooked := (hr.steady .initial).wellHooked

/-- The flag is copied after it was hooked, and the copy that it was hooked through is dropped. -/
theorem Run.well_hooked_sample : ∃ u : FlagUser Unit,
    Run initial [.make, .make, .install 0, .copy 0, .drop 0, .install 1] u ∧
      u.process.hook 1 = (.error .alreadyStarted, u.process) ∧
      ∃ v, u.step .signal = some v ∧ v.KeepsRaised 0 ∧ v.process.isRaised 1 = false := by
  have hr : Run (initial : FlagUser Unit)
      [.make, .make, .install 0, .copy 0, .drop 0, .install 1] _ :=
    .next (.next (.next (.next (.next (.next .start rfl) rfl) rfl) rfl) rfl) rfl
  have hw := Run.well_hooked hr
  obtain ⟨v, hs, hv, hother⟩ := hw.signalled 0 (by decide)
  exact ⟨_, hr, hw.installs 1, v, hs, hv, hother 1 (by decide)⟩

end FlagUser

end FirmwareHost
