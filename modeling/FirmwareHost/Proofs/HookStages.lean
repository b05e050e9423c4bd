import FirmwareHost.Proofs.SharedFlags

/-! Hooks among signals. Installing and removing a hook take several stages, and a termination
signal may arrive between any two. It is as if the signals came after the installation or before the
removal. -/

namespace FirmwareHost

variable {η : Type}

/-- Where the installation or the removal of a hook stands. -/
inductive HookStage where
  | share
  | claim
  | route
  | unroute
  | disclaim
  | release (answer : Outcome Unit)
  | finished (answer : Outcome Unit)

namespace Process

variable {p q : Process η} {flag g : Nat} {f : FlagCell → FlagCell} {stage : HookStage}
  {answer answer' : Outcome Unit}

/-- What happens at a stage happens at once: signals come before or after it. -/
def advance (flag : Nat) (p : Process η) : HookStage → HookStage × Process η
  | .share => (.claim, p.shareFlag flag)
  | .claim =>
    match p.hooked with
    | none => (.route, { p with hooked := some flag })
    | some _ => (.release (.error .alreadyStarted), p)
  | .route => (.finished (.ok ()), p.setDisposition SignalNumber.terminate .shutdown)
  | .unroute => (.disclaim, p.setDisposition SignalNumber.terminate .default)
  | .disclaim =>
    (.release (.ok ()), { p with hooked := if p.hooked = some flag then none else p.hooked })
  | .release answer => (.finished answer, p.releaseFlag flag)
  | .finished answer => (.finished answer, p)

/-- From `p` at a stage to the answer and `q`, while handled signals arrive at any point. -/
inductive Interrupted (flag : Nat) : Process η → HookStage → Outcome Unit → Process η → Prop where
  | finished {p : Process η} {answer : Outcome Unit} : p.Interrupted flag (.finished answer) answer p
  | advanced {p q : Process η} {stage : HookStage} {answer : Outcome Unit}
      (h : (p.advance flag stage).2.Interrupted flag (p.advance flag stage).1 answer q) :
      p.Interrupted flag stage answer q
  | signalled {p q : Process η} {stage : HookStage} {answer : Outcome Unit} (hd : p.Routed)
      (h : p.raiseHooked.Interrupted flag stage answer q) : p.Interrupted flag stage answer q

theorem interrupted_hook (flag : Nat) (p : Process η) :
    p.Interrupted flag .share (p.hook flag).1 (p.hook flag).2 := by
  refine .advanced (.advanced ?_)
  cases h : p.hooked with
  | none =>
    have hs : (p.shareFlag flag).hooked = none := h
    rw [hook_of_free h]
    simp only [advance, hs]
    exact .advanced .finished
  | some g =>
    have hs : (p.shareFlag flag).hooked = some g := h
    simp only [hook, advance, hs]
    exact .advanced .finished

theorem interrupted_unhook (flag : Nat) (p : Process η) :
    p.Interrupted flag .unroute (.ok ()) (p.unhook flag) :=
  .advanced (.advanced (.advanced .finished))

/-- Some handled signals, of which all but the first change nothing. -/
def Heard (p q : Process η) : Prop := q = p ∨ p.Routed ∧ q = p.raiseHooked

theorem raiseHooked_raiseHooked : p.raiseHooked.raiseHooked = p.raiseHooked := by
  cases h : p.hooked with
  | none => simp only [raiseHooked, h]
  | some g =>
    have hs : (p.setFlag g true).hooked = some g := h
    rw [raiseHooked_of_live h, raiseHooked_of_live hs]
    simp only [setFlag, changeFlag, List.modify_modify_eq]
    rfl

theorem Heard.signalled (hd : p.Routed) (h : Heard p.raiseHooked q) : Heard p q := by
  rcases h with rfl | ⟨-, rfl⟩
  · exact .inr ⟨hd, rfl⟩
  · exact .inr ⟨hd, raiseHooked_raiseHooked⟩

theorem Heard.trans {r : Process η} (h : Heard p q) (h' : Heard q r) : Heard p r := by
  rcases h with rfl | ⟨hd, rfl⟩
  · exact h'
  · exact .signalled hd h'

theorem Heard.eq_of_not_routed (h : Heard p q) (hd : ¬ p.Routed) : q = p :=
  h.resolve_right fun hr => hd hr.1

theorem Heard.hooked (h : Heard p q) : q.hooked = p.hooked := by
  rcases h with rfl | ⟨-, rfl⟩
  · rfl
  · unfold raiseHooked
    split <;> rfl

theorem Heard.changeFlag (h : Heard p q)
    (hf : ∀ c, f { c with raised := true } = { f c with raised := true }) :
    Heard (p.changeFlag flag f) (q.changeFlag flag f) := by
  rcases h with rfl | ⟨hd, rfl⟩
  · exact .inl rfl
  · refine .inr ⟨hd, ?_⟩
    cases h : p.hooked with
    | none =>
      have hs : (p.changeFlag flag f).hooked = none := h
      simp only [raiseHooked, h, hs]
    | some g =>
      have hs : (p.changeFlag flag f).hooked = some g := h
      rw [raiseHooked_of_live h, raiseHooked_of_live hs]
      exact changeFlag_comm hf

namespace Interrupted

theorem ends (h : p.Interrupted flag (.finished answer) answer' q) :
    answer' = answer ∧ Heard p q := by
  generalize hs : HookStage.finished answer = stage at h
  induction h with
  | finished =>
    cases hs
    exact ⟨rfl, .inl rfl⟩
  | advanced _ ih =>
    subst hs
    exact ih rfl
  | signalled hd _ ih => exact ⟨(ih hs).1, .signalled hd (ih hs).2⟩

/-- The signals of a stage come before what happens there. -/
theorem passes (h : p.Interrupted flag stage answer q) (hs : ∀ x, stage ≠ .finished x) :
    ∃ r, Heard p r ∧
      (r.advance flag stage).2.Interrupted flag (r.advance flag stage).1 answer q := by
  induction h with
  | finished => exact absurd rfl (hs _)
  | @advanced p q stage _ h => exact ⟨p, .inl rfl, h⟩
  | signalled hd _ ih =>
    obtain ⟨r, hr, h⟩ := ih hs
    exact ⟨r, .signalled hd hr, h⟩

/-- An installation that signals interrupt ends as one that they follow. -/
theorem install (h : p.Interrupted flag .share answer q) (hn : p.hooked = none → ¬ p.Routed) :
    answer = (p.hook flag).1 ∧ Heard (p.hook flag).2 q := by
  obtain ⟨p₁, h₁, h⟩ := h.passes nofun
  obtain ⟨p₂, h₂, h⟩ := h.passes nofun
  have hheard : Heard (p.shareFlag flag) p₂ := (h₁.changeFlag fun _ => rfl).trans h₂
  have hclaim : p₂.hooked = p.hooked := hheard.hooked
  cases hhook : p.hooked with
  | none =>
    -- no signal is handled before the route is there
    obtain rfl := hheard.eq_of_not_routed (hn hhook)
    simp only [advance, hclaim, hhook] at h
    obtain ⟨p₃, h₃, h⟩ := h.passes nofun
    obtain rfl := h₃.eq_of_not_routed (hn hhook)
    rw [hook_of_free hhook]
    exact h.ends
  | some g =>
    simp only [advance, hclaim, hhook] at h
    obtain ⟨p₃, h₃, h⟩ := h.passes nofun
    obtain ⟨rfl, hends⟩ := h.ends
    rw [hook_of_live hhook]
    have hreleased : Heard ((p.shareFlag flag).releaseFlag flag) q :=
      ((hheard.trans h₃).changeFlag fun _ => rfl).trans hends
    rw [releaseFlag_shareFlag] at hreleased
    exact ⟨rfl, hreleased⟩

/-- A removal that signals interrupt ends as one that follows them. -/
theorem removal (h : p.Interrupted flag .unroute answer q) :
    answer = .ok () ∧ ∃ r, Heard p r ∧ q = r.unhook flag := by
  have hdeaf {r : Process η} (hr : r.dispositions SignalNumber.terminate = .default) :
      ¬ r.Routed := by
    rw [Routed, hr]
    nofun
  obtain ⟨p₁, h₁, h⟩ := h.passes nofun
  obtain ⟨p₂, h₂, h⟩ := h.passes nofun
  obtain rfl := h₂.eq_of_not_routed (hdeaf rfl)
  obtain ⟨p₃, h₃, h⟩ := h.passes nofun
  obtain rfl := h₃.eq_of_not_routed (hdeaf rfl)
  obtain ⟨rfl, hends⟩ := h.ends
  exact ⟨rfl, p₁, h₁, hends.eq_of_not_routed (hdeaf rfl)⟩

end Interrupted

end Process

end FirmwareHost
