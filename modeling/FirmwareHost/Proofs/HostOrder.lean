import FirmwareHost.Proofs.Dispositions
import FirmwareHost.Proofs.HostOperations

/-! The host bridge of a process in order. A bridge is attached from its making until its owner's
drop has taken back every route, so that no signal is ever routed without a bridge to go to, and
what an operation still has to do never leaves a signal routed to an empty slot. -/

namespace FirmwareHost

variable {η : Type}

theorem length_flatMap_set {α β : Type} {f : α → List β} {l : List α} {i : Nat} {x : α}
    (h : l[i]? = some x) (y : α) :
    ((l.set i y).flatMap f).length + (f x).length = (l.flatMap f).length + (f y).length := by
  induction l generalizing i with
  | nil => simp at h
  | cons z l ih =>
    cases i with
    | zero =>
      obtain rfl : z = x := by simpa using h
      simp only [List.set_cons_zero, List.flatMap_cons, List.length_append]
      omega
    | succ i =>
      have hl := ih (i := i) (by simpa using h)
      simp only [List.set_cons_succ, List.flatMap_cons, List.length_append]
      omega

theorem FaultSlot.native_inj {slot other : FaultSlot} :
    slot.native = other.native ↔ slot = other := by
  constructor
  · cases slot <;> cases other <;> simp [native]
  · exact congrArg native

namespace BridgeView

variable {v : BridgeView η}

def afterEffect (v : BridgeView η) : Effect η → BridgeView η
  | .publish slot h => v.store slot (some h)
  | .withdraw slot => v.store slot none
  | .install slot => v.route slot true
  | .restore slot => v.route slot false
  | .discard _ | .retire _ | .detach | .close => v

/-- What is left of an operation on the attached bridge never leaves a signal routed to an empty
slot. It ends with slots and routes in step, or it takes every route back and detaches. -/
def Leads (owned : Bool) : BridgeView η → List (Effect η) → Prop
  | v, [] => owned = true ∧ v.Matched
  | v, .detach :: rest => owned = false ∧ (∀ slot, v.installed slot = false) ∧ rest = [.close]
  | _, .close :: _ => False
  | v, e :: rest => v.Covered ∧ Leads owned (v.afterEffect e) rest

theorem Leads.covered {owned : Bool} {l : List (Effect η)} (h : v.Leads owned l) : v.Covered := by
  cases l with
  | nil => exact h.2.covered
  | cons e rest =>
    cases e with
    | detach =>
      intro slot hs
      rw [h.2.1 slot] at hs
      cases hs
    | close => exact h.elim
    | _ => exact h.1

theorem leads_registration {b : Bridge η} (hv : v.slots = b.slots) (hm : v.Matched)
    (signal : UInt64) (handler : Option η) : v.Leads true (b.registration signal handler) := by
  have hc := hm.covered
  unfold Bridge.registration
  cases handler with
  | none => exact ⟨rfl, hm⟩
  | some h =>
    cases faultSlot signal with
    | error e => exact ⟨hc, rfl, hm⟩
    | ok slot =>
      cases ho : b.slots slot with
      | some old =>
        simp only [ho]
        rw [← hv] at ho
        have hm' := hm.publish ho h
        exact ⟨hc, hm'.covered, rfl, hm'⟩
      | none =>
        simp only [ho]
        have hm' := hm.install slot h
        exact ⟨hc, hc.publish slot h, hm'.covered, rfl, hm'⟩

theorem leads_unregistration {b : Bridge η} (hm : v.Matched) (signal : UInt64) :
    v.Leads true (b.unregistration signal) := by
  unfold Bridge.unregistration
  cases faultSlot signal with
  | error e => exact ⟨rfl, hm⟩
  | ok slot =>
    cases ho : b.slots slot with
    | none =>
      simp only [ho]
      exact ⟨rfl, hm⟩
    | some h =>
      simp only [ho]
      have hm' := hm.restore slot
      exact ⟨hm.covered, hm.covered.restore slot, hm'.covered, rfl, hm'⟩

theorem leads_restores (l : List FaultSlot) (hc : v.Covered)
    (hl : ∀ slot, v.installed slot = true → slot ∈ l) :
    v.Leads false (l.map .restore ++ [.detach, .close]) := by
  induction l generalizing v with
  | nil =>
    have hoff : ∀ slot, v.installed slot = false := fun slot => by
      simpa using mt (hl slot) List.not_mem_nil
    exact ⟨rfl, hoff, rfl⟩
  | cons slot l ih =>
    refine ⟨hc, ih (hc.restore slot) fun other hi => ?_⟩
    have hne : other ≠ slot := by
      rintro rfl
      simp [afterEffect, route] at hi
    have hi : v.installed other = true := by simpa [afterEffect, route, hne] using hi
    exact (List.mem_cons.mp (hl other hi)).resolve_left hne

theorem leads_dropping {b : Bridge η} (hv : v.slots = b.slots) (hm : v.Matched) :
    v.Leads false b.dropping := by
  refine leads_restores _ hm.covered fun slot hi => ?_
  rw [hm slot, hv] at hi
  have hall : slot ∈ FaultSlot.all := by cases slot <;> decide
  exact List.mem_filter.mpr ⟨hall, hi⟩

end BridgeView

/-- What the slots of a bridge and the dispositions of the process tell together. -/
def Process.view (p : Process η) (m : Mounted η) : BridgeView η :=
  ⟨m.bridge.slots, fun slot => p.dispositions slot.native = .faults, []⟩

namespace Process

variable {p : Process η}

def calls (p : Process η) : List (Invocation η) := p.bridges.flatMap fun m => m.bridge.calls

theorem calls_length_le {id : Nat} {m : Mounted η} (hm : p.bridges[id]? = some m) :
    m.bridge.calls.length ≤ p.calls.length := by
  have hlength := length_flatMap_set (f := fun m : Mounted η => m.bridge.calls) hm
    { m with bridge := .empty }
  simp only [Bridge.empty, List.length_nil] at hlength
  simp only [calls]
  omega

/-- The handler that the attached bridge has for a signal. -/
def handler? (p : Process η) (slot : FaultSlot) : Option η :=
  (p.attached.bind fun id => p.bridges[id]?).bind fun m => m.bridge.slots slot

theorem view_install (slot : FaultSlot) (m : Mounted η) :
    (p.setDisposition slot.native .faults).view m = (p.view m).route slot true := by
  simp only [view, setDisposition, BridgeView.route, FaultSlot.native_inj, BridgeView.mk.injEq,
    true_and, and_true]
  funext other
  by_cases he : other = slot <;> simp [he]

theorem view_restore (slot : FaultSlot) (m : Mounted η) :
    (p.setDisposition slot.native .default).view m = (p.view m).route slot false := by
  simp only [view, setDisposition, BridgeView.route, FaultSlot.native_inj, BridgeView.mk.injEq,
    true_and, and_true]
  funext other
  by_cases he : other = slot <;> simp [he]

theorem view_installed {slot : FaultSlot} {m : Mounted η} :
    (p.view m).installed slot = true ↔ p.dispositions slot.native = .faults :=
  decide_eq_true_iff

end Process

namespace Interleaving

structure Orderly (s : Interleaving η) : Prop where
  hosts : ∀ {id : Nat} {m : Mounted η}, s.process.bridges[id]? = some m →
    m.isHost = true ∧ m.borrowed = 0
  known : ∀ slot : FaultSlot, s.process.dispositions slot.native = .faults ∨
    s.process.dispositions slot.native = .default
  counted : s.process.trampolines = s.process.calls.length
  owned : ∀ {id : Nat} {m : Mounted η}, s.process.bridges[id]? = some m → m.owned = true →
    s.process.attached = some id
  away : ∀ {id : Nat}, s.process.attached ≠ some id →
    s.pending id = [] ∨ s.pending id = [.close] ∧ id < s.process.bridges.length
  attached : ∀ {id : Nat}, s.process.attached = some id → ∃ m, s.process.bridges[id]? = some m ∧
    (s.process.view m).Leads m.owned (s.pending id)
  released : s.process.attached = none →
    ∀ slot : FaultSlot, s.process.dispositions slot.native = .default

theorem orderly_initial : (initial : Interleaving η).Orderly where
  hosts h := by simp [initial, Process.initial] at h
  known _ := .inr rfl
  counted := rfl
  owned h := by simp [initial, Process.initial] at h
  away _ := .inl rfl
  attached h := by simp [initial, Process.initial] at h
  released _ _ := rfl

variable {s t : Interleaving η} {id : Nat} {m n : Mounted η} {q : Process η} {l : List (Effect η)}
  {es : List (Nat × BridgeEvent η)}

/-- From `p` to `q` nothing changes but one bridge, from `m` to `n`, and routes. -/
structure Touches (p q : Process η) (id : Nat) (m n : Mounted η) : Prop where
  bridges : q.bridges = p.bridges.set id n
  attached : q.attached = p.attached
  kind : n.isHost = m.isHost ∧ n.borrowed = m.borrowed
  owned : n.owned = true → m.owned = true
  calls : q.trampolines + m.bridge.calls.length = p.trampolines + n.bridge.calls.length

theorem Touches.refl (hm : q.bridges[id]? = some m) : Touches q q id m m :=
  ⟨(congrArg Process.bridges (Process.setMounted_self hm)).symm, rfl, ⟨rfl, rfl⟩, fun h => h, rfl⟩

theorem Touches.route (hm : q.bridges[id]? = some m) (signum : Int) (d : Disposition) :
    Touches q (q.setDisposition signum d) id m m :=
  { Touches.refl hm with }

theorem Touches.bridge {b : Bridge η} (hc : b.calls.length = m.bridge.calls.length) :
    Touches q (q.setMounted id { m with bridge := b }) id m { m with bridge := b } :=
  ⟨rfl, rfl, ⟨rfl, rfl⟩, fun h => h, congrArg (q.trampolines + ·) hc.symm⟩

/-- A step that touches one bridge: an operation on the attached one still leads where it should,
and one on a bridge that is no longer attached changes no routes and has at most its end to go. -/
theorem Orderly.go (ho : s.Orderly) (hm : s.process.bridges[id]? = some m)
    (ht : Touches s.process q id m n)
    (hknown : ∀ slot : FaultSlot, q.dispositions slot.native = .faults ∨
      q.dispositions slot.native = .default)
    (hat : s.process.attached = some id → (q.view n).Leads n.owned l)
    (haway : s.process.attached ≠ some id →
      q.dispositions = s.process.dispositions ∧ (l = [] ∨ l = [.close])) :
    (s.go id q l).Orderly := by
  obtain ⟨hlt, -⟩ := List.getElem?_eq_some_iff.mp hm
  have hself : q.bridges[id]? = some n := by rw [ht.bridges, List.getElem?_set_self hlt]
  have hother {k : Nat} (hk : k ≠ id) : q.bridges[k]? = s.process.bridges[k]? := by
    rw [ht.bridges, List.getElem?_set_ne (Ne.symm hk)]
  refine ⟨fun {k x} hx => ?_, hknown, ?_, fun {k x} hx hox => ?_, fun {k} hk => ?_,
    fun {k} hk => ?_, fun hnone slot => ?_⟩
  · by_cases hk : k = id
    · subst hk
      obtain rfl := Option.some.inj (hself.symm.trans hx)
      rw [ht.kind.1, ht.kind.2]
      exact ho.hosts hm
    · exact ho.hosts ((hother hk).symm.trans hx)
  · have hlength := length_flatMap_set (f := fun m : Mounted η => m.bridge.calls) hm n
    have hcalls := ht.calls
    have hcounted : _ = (s.process.bridges.flatMap _).length := ho.counted
    show q.trampolines = (q.bridges.flatMap fun m => m.bridge.calls).length
    rw [ht.bridges]
    omega
  · show q.attached = some k
    rw [ht.attached]
    by_cases hk : k = id
    · subst hk
      obtain rfl := Option.some.inj (hself.symm.trans hx)
      exact ho.owned hm (ht.owned hox)
    · exact ho.owned ((hother hk).symm.trans hx) hox
  · have hk' : s.process.attached ≠ some k := ht.attached ▸ hk
    show _ ∨ _ ∧ k < q.bridges.length
    rw [ht.bridges, List.length_set]
    by_cases hki : k = id
    · subst hki
      rw [go_pending_self]
      exact (haway hk').2.imp id fun h => ⟨h, hlt⟩
    · rw [go_pending_ne _ _ _ hki]
      exact ho.away hk'
  · have hk' : s.process.attached = some k := ht.attached ▸ hk
    by_cases hki : k = id
    · subst hki
      refine ⟨n, hself, ?_⟩
      rw [go_pending_self]
      exact hat hk'
    · obtain ⟨x, hx, hl⟩ := ho.attached hk'
      have haway := (haway fun h => hki (Option.some.inj (hk'.symm.trans h))).1
      refine ⟨x, (hother hki).trans hx, ?_⟩
      rw [go_pending_ne _ _ _ hki]
      simp only [Process.view, Interleaving.go, haway]
      exact hl
  · have hnone : s.process.attached = none := ht.attached.symm.trans hnone
    show q.dispositions slot.native = .default
    rw [(haway (by simp [hnone])).1]
    exact ho.released hnone slot

theorem Orderly.host (ho : s.Orderly) (ha : s.process.attached = none) :
    Orderly { s with process := s.process.host.2 } := by
  have hp : s.process.host.2 = { s.process with
      bridges := s.process.bridges ++ [⟨.empty, true, true, 0⟩]
      attached := some s.process.bridges.length } := by simp only [Process.host, ha]
  have hnew {k : Nat} {x : Mounted η}
      (hx : (s.process.bridges ++ [⟨.empty, true, true, 0⟩])[k]? = some x) :
      s.process.bridges[k]? = some x ∨
        k = s.process.bridges.length ∧ x = ⟨.empty, true, true, 0⟩ := by
    rcases Nat.lt_trichotomy k s.process.bridges.length with hk | rfl | hk
    · rw [List.getElem?_append_left hk] at hx
      exact .inl hx
    · rw [List.getElem?_concat_length] at hx
      exact .inr ⟨rfl, (Option.some.inj hx).symm⟩
    · rw [List.getElem?_eq_none (by simp; omega)] at hx
      cases hx
  have hidle : s.pending s.process.bridges.length = [] := by
    have hlast : s.process.attached ≠ some s.process.bridges.length := by simp [ha]
    exact (ho.away hlast).resolve_right fun h => Nat.lt_irrefl _ h.2
  rw [hp]
  refine ⟨fun {k x} hx => ?_, ho.known, ?_, fun {k x} hx hox => ?_, fun {k} hk => ?_,
    fun {k} hk => ?_, nofun⟩
  · rcases hnew hx with hx | ⟨-, rfl⟩
    · exact ho.hosts hx
    · exact ⟨rfl, rfl⟩
  · simp [Process.calls, ho.counted, Bridge.empty]
  · rcases hnew hx with hx | ⟨rfl, rfl⟩
    · rw [ho.owned hx hox] at ha
      cases ha
    · rfl
  · have hk' : s.process.attached ≠ some k := by simp [ha]
    refine (ho.away hk').imp_right fun h => ⟨h.1, ?_⟩
    simp only [List.length_append]
    omega
  · obtain rfl := Option.some.inj hk
    refine ⟨⟨.empty, true, true, 0⟩, by simp, ?_⟩
    rw [hidle]
    refine ⟨rfl, fun slot => ?_⟩
    simp [Process.view, Bridge.empty, ho.released ha slot]

theorem Orderly.known_route (ho : s.Orderly) {signum : Int} {d : Disposition}
    (hd : d = .faults ∨ d = .default) (slot : FaultSlot) :
    (s.process.setDisposition signum d).dispositions slot.native = .faults ∨
      (s.process.setDisposition signum d).dispositions slot.native = .default := by
  simp only [Process.setDisposition]
  split
  · exact hd
  · exact ho.known slot

theorem Orderly.detach (ho : s.Orderly) (ha : s.process.attached = some id)
    (hm : s.process.bridges[id]? = some m) (howned : m.owned = false)
    (hoff : ∀ slot, (s.process.view m).installed slot = false) :
    (s.go id { s.process with attached := none } [.close]).Orderly := by
  have hdefault (slot : FaultSlot) : s.process.dispositions slot.native = .default := by
    refine (ho.known slot).resolve_left fun hf => ?_
    have hon := Process.view_installed (m := m).mpr hf
    rw [hoff slot] at hon
    cases hon
  refine ⟨ho.hosts, ho.known, ho.counted, fun {k x} hx hox => ?_, fun {k} _ => ?_, nofun,
    fun _ => hdefault⟩
  · obtain rfl := Option.some.inj (ha.symm.trans (ho.owned hx hox))
    obtain rfl := Option.some.inj (hm.symm.trans hx)
    rw [howned] at hox
    cases hox
  · by_cases hk : k = id
    · subst hk
      rw [go_pending_self]
      exact .inr ⟨rfl, (List.getElem?_eq_some_iff.mp hm).1⟩
    · rw [go_pending_ne _ _ _ hk]
      exact ho.away fun h => hk (Option.some.inj (h.symm.trans ha))

/-- The bridge that an operation is in progress on is the attached one, or it waits for its end. -/
theorem Orderly.proceed (ho : s.Orderly) {e : Effect η} (hp : s.pending id = e :: l) :
    (s.go id (s.process.effect id e).2 l).Orderly := by
  by_cases ha : s.process.attached = some id
  · obtain ⟨m, hm, hl⟩ := ho.attached ha
    rw [hp] at hl
    have haway {A : Prop} (hne : s.process.attached ≠ some id) : A := absurd ha hne
    simp only [Process.effect, hm]
    cases e with
    | detach =>
      obtain ⟨howned, hoff, rfl⟩ := hl
      simp only [ha, if_true]
      exact ho.detach ha hm howned hoff
    | close => exact hl.elim
    | discard h => exact ho.go hm (.refl hm) ho.known (fun _ => hl.2) haway
    | publish slot h => exact ho.go hm (.bridge rfl) ho.known (fun _ => hl.2) haway
    | withdraw slot => exact ho.go hm (.bridge rfl) ho.known (fun _ => hl.2) haway
    | install slot =>
      refine ho.go hm (.route hm _ _) (ho.known_route (.inl rfl)) (fun _ => ?_) haway
      rw [Process.view_install]
      exact hl.2
    | restore slot =>
      refine ho.go hm (.route hm _ _) (ho.known_route (.inr rfl)) (fun _ => ?_) haway
      rw [Process.view_restore]
      exact hl.2
    | retire hs =>
      have hcalls := congrArg List.length (Bridge.retire_calls m.bridge hs)
      refine ho.go hm (.bridge hcalls) ho.known (fun _ => ?_) haway
      simp only [Process.view, Process.setMounted, Bridge.retire_slots]
      exact hl.2
  · -- only the end of a drop that has detached its bridge is left, and it changes no route
    obtain ⟨he, hlt⟩ := (ho.away ha).resolve_left (by simp [hp])
    obtain ⟨rfl, rfl⟩ := List.cons.inj (hp.symm.trans he)
    obtain ⟨m, hm⟩ : ∃ m, s.process.bridges[id]? = some m := ⟨_, List.getElem?_eq_getElem hlt⟩
    have hat {A : Prop} (h : s.process.attached = some id) : A := absurd h ha
    simp only [Process.effect, hm]
    split
    · exact ho.go hm (.bridge rfl) ho.known hat fun _ => ⟨rfl, .inl rfl⟩
    · exact ho.go hm (.refl hm) ho.known hat fun _ => ⟨rfl, .inl rfl⟩

/-- Calls begin and end without a change to slots, routes or operations. -/
theorem Orderly.calls (ho : s.Orderly) (hm : s.process.bridges[id]? = some m)
    {active trampolines : Nat} {calls : List (Invocation η)}
    (hc : trampolines + m.bridge.calls.length = s.process.trampolines + calls.length) :
    Orderly { s with process := { s.process.setMounted id { m with
      bridge := { m.bridge with active, calls } } with trampolines } } := by
  rw [← go_same s id]
  refine ho.go hm ⟨rfl, rfl, ⟨rfl, rfl⟩, fun h => h, hc⟩ ho.known (fun ha => ?_) fun ha => ⟨rfl, ?_⟩
  · obtain ⟨x, hx, hl⟩ := ho.attached ha
    obtain rfl := Option.some.inj (hm.symm.trans hx)
    exact hl
  · exact (ho.away ha).imp_right And.left

theorem Orderly.step (ho : s.Orderly) (hs : Step s es t) : t.Orderly := by
  cases hs with
  | same => exact ho
  | hosted ha => exact ho.host ha
  | @begun id m l hm howned hp hl =>
    have ha := ho.owned hm howned
    obtain ⟨x, hx, hleads⟩ := ho.attached ha
    obtain rfl := Option.some.inj (hm.symm.trans hx)
    rw [hp] at hleads
    refine ho.go hm (.refl hm) ho.known (fun _ => ?_) fun hne => absurd ha hne
    rw [howned]
    rcases hl with ⟨signal, handler, rfl⟩ | ⟨signal, rfl⟩
    · exact BridgeView.leads_registration rfl hleads.2 signal handler
    · exact BridgeView.leads_unregistration hleads.2 signal
  | @dropped id m hm howned hp =>
    have ha := ho.owned hm howned
    obtain ⟨x, hx, hleads⟩ := ho.attached ha
    obtain rfl := Option.some.inj (hm.symm.trans hx)
    rw [hp] at hleads
    refine ho.go hm ⟨rfl, rfl, ⟨rfl, rfl⟩, nofun, rfl⟩ ho.known (fun _ => ?_) fun hne => ?_
    · exact BridgeView.leads_dropping rfl hleads.2
    · exact absurd ha hne
  | proceeded hp => exact ho.proceed hp
  | @called id m i ha hm hstored =>
    refine ho.calls hm ?_
    rw [List.length_cons]
    omega
  | @edited id m calls hm hc =>
    refine ho.calls hm ?_
    rw [hc]
  | @returned id m i outer handled hm hc =>
    have hpos : m.bridge.calls.length ≤ s.process.trampolines :=
      ho.counted ▸ Process.calls_length_le hm
    refine ho.calls hm ?_
    rw [hc, List.length_cons] at hpos ⊢
    omega

theorem Run.orderly (hr : Run initial es s) : s.Orderly := by
  induction hr with
  | start => exact orderly_initial
  | next _ hs ih => exact ih.step (step_inv hs)

end Interleaving

end FirmwareHost
