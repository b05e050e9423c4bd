import FirmwareHost.Process

/-! Shutdown flags in memory. A flag counts the copies and hooks that hold it, and a hook that is
refused gives back what it took. -/

namespace FirmwareHost

variable {η : Type}

namespace Process

variable {p q : Process η} {flag g k : Nat} {f f' : FlagCell → FlagCell}

theorem getElem?_newFlag : p.newFlag.2.flags[k]? =
    if k = p.flags.length then some ⟨false, 1⟩ else p.flags[k]? := by
  rcases Nat.lt_trichotomy k p.flags.length with hlt | rfl | hgt
  · rw [if_neg (Nat.ne_of_lt hlt)]
    exact List.getElem?_append_left hlt
  · simp [newFlag]
  · have hlen : p.newFlag.2.flags.length = p.flags.length + 1 := List.length_append
    rw [if_neg (Nat.ne_of_gt hgt), List.getElem?_eq_none (hlen ▸ Nat.succ_le_of_lt hgt),
      List.getElem?_eq_none (Nat.le_of_lt hgt)]

theorem getElem?_changeFlag : (p.changeFlag flag f).flags[k]? =
    if k = flag then p.flags[k]?.map f else p.flags[k]? := by
  by_cases hk : k = flag
  · simp [changeFlag, hk]
  · simp [changeFlag, hk, Ne.symm hk]

def owners (flag : Nat) (p : Process η) : Nat := (p.flags[flag]?.map (·.owners)).getD 0

/-- Each flag counts how often it is held. -/
def Counts (p : Process η) (held : List Nat) : Prop := ∀ flag, p.owners flag = held.count flag

namespace Counts

variable {held held' : List Nat}

theorem perm (hc : p.Counts held) (h : held.Perm held') : p.Counts held' :=
  fun k => (hc k).trans (h.count_eq k)

theorem lt_length (hc : p.Counts held) (h : flag ∈ held) : flag < p.flags.length := by
  refine Nat.lt_of_not_le fun hle => ?_
  have hzero : p.owners flag = 0 := by simp [owners, hle]
  exact List.count_eq_zero.mp ((hc flag).symm.trans hzero) h

theorem newFlag (hc : p.Counts held) : p.newFlag.2.Counts (p.flags.length :: held) := by
  intro k
  by_cases hk : k = p.flags.length
  · have hfresh : held.count p.flags.length = 0 := by
      rw [← hc]
      simp [owners]
    simp [owners, getElem?_newFlag, hk, hfresh]
  · rw [List.count_cons_of_ne (Ne.symm hk), ← hc k]
    simp [owners, getElem?_newFlag, hk]

theorem changeFlag (hc : p.Counts held) (h : flag ∈ held)
    (hsame : ∀ k ≠ flag, held'.count k = held.count k)
    (hown : ∀ c, c.owners = held.count flag → (f c).owners = held'.count flag) :
    (p.changeFlag flag f).Counts held' := by
  intro k
  by_cases hk : k = flag
  · subst hk
    have hlt := hc.lt_length h
    have hcount : p.flags[k].owners = held.count k := by simpa [owners, hlt] using hc k
    simp [owners, getElem?_changeFlag, hlt, hown _ hcount]
  · rw [hsame k hk, ← hc k]
    simp [owners, getElem?_changeFlag, hk]

theorem shareFlag (hc : p.Counts held) (h : flag ∈ held) :
    (p.shareFlag flag).Counts (flag :: held) :=
  hc.changeFlag h (fun _ hk => List.count_cons_of_ne (Ne.symm hk)) fun _ ho => by simp [ho]

theorem releaseFlag (hc : p.Counts held) (h : flag ∈ held) :
    (p.releaseFlag flag).Counts (held.erase flag) :=
  hc.changeFlag h (fun _ hk => List.count_erase_of_ne hk) fun _ ho => by simp [ho]

theorem setFlag {value : Bool} (hc : p.Counts held) (h : flag ∈ held) :
    (p.setFlag flag value).Counts held :=
  hc.changeFlag h (fun _ _ => rfl) fun _ ho => ho

end Counts

theorem isRaised_newFlag : p.newFlag.2.isRaised k = p.isRaised k := by
  by_cases hk : k = p.flags.length <;> simp [isRaised, getElem?_newFlag, hk]

theorem isRaised_changeFlag (hf : ∀ c, (f c).raised = c.raised) :
    (p.changeFlag flag f).isRaised k = p.isRaised k := by
  simp only [isRaised, getElem?_changeFlag]
  split
  · simp [Option.any_map, hf]
  · rfl

theorem isRaised_setFlag {value : Bool} (h : flag < p.flags.length) :
    (p.setFlag flag value).isRaised k = if k = flag then value else p.isRaised k := by
  by_cases hk : k = flag <;> simp [setFlag, isRaised, getElem?_changeFlag, hk, h]

theorem releaseFlag_shareFlag : (p.shareFlag flag).releaseFlag flag = p := by
  have hflags : ((p.shareFlag flag).releaseFlag flag).flags = p.flags := by
    refine List.ext_getElem? fun i => ?_
    simp only [shareFlag, releaseFlag, getElem?_changeFlag]
    split <;> simp [Function.comp_def]
  exact congrArg (fun l => { p with flags := l }) hflags

theorem changeFlag_comm (h : ∀ c, f' (f c) = f (f' c)) :
    (p.changeFlag flag f).changeFlag k f' = (p.changeFlag k f').changeFlag flag f := by
  have hflags : ((p.changeFlag flag f).changeFlag k f').flags =
      ((p.changeFlag k f').changeFlag flag f).flags := by
    refine List.ext_getElem? fun i => ?_
    simp only [getElem?_changeFlag]
    split <;> split <;> simp [Function.comp_def, h]
  exact congrArg (fun l => { p with flags := l }) hflags

/-- Whether a termination signal is handled. -/
def Routed (p : Process η) : Prop := p.dispositions SignalNumber.terminate = .shutdown

instance : Decidable p.Routed := inferInstanceAs (Decidable (_ = _))

/-- The process with a hook to `flag`. -/
def hookedTo (flag : Nat) (p : Process η) : Process η :=
  { p.shareFlag flag with hooked := some flag }.setDisposition SignalNumber.terminate .shutdown

theorem hook_of_free (h : p.hooked = none) : p.hook flag = (.ok (), p.hookedTo flag) := by
  have hs : (p.shareFlag flag).hooked = none := h
  simp only [hook, hs]
  rfl

/-- Nothing changes at all: the reference taken for the hook is given back. -/
theorem hook_of_live (h : p.hooked = some g) :
    p.hook flag = (.error .alreadyStarted, p) := by
  have hs : (p.shareFlag flag).hooked = some g := h
  simp only [hook, hs]
  exact congrArg _ releaseFlag_shareFlag

theorem hooked_unhook (h : p.hooked = some flag) : (p.unhook flag).hooked = none :=
  if_pos h

theorem raiseHooked_of_live (h : p.hooked = some g) : p.raiseHooked = p.setFlag g true := by
  simp only [raiseHooked, h]

end Process

end FirmwareHost
