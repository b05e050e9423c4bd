import FirmwareHost.Proofs.BridgeHistory

/-! The life of a handler. From its registration until it is freed a handler is in a slot, or out
of it and retired, and never in two places. Handlers are only freed while nothing runs, so a
handler that runs is still in one of these places. -/

namespace FirmwareHost

variable {η : Type} {v : BridgeView η} {es fs : List (BridgeEvent η)}

theorem freed_append : freed (es ++ fs) = freed es ++ freed fs := List.filterMap_append

theorem freed_cons {e : BridgeEvent η} (h : e.freed? = none) : freed (e :: es) = freed es :=
  List.filterMap_cons_none h

theorem freed_free (hs : List η) : freed (hs.map .free) = hs := by
  induction hs with
  | nil => rfl
  | cons h hs ih => exact congrArg (h :: ·) ih

/-- A handler is in no slot, and no call of it is in progress. -/
def BridgeView.Idle (v : BridgeView η) (h : η) : Prop :=
  (∀ slot, v.slots slot ≠ some h) ∧ h ∉ v.running

def BridgeView.FreedIdle (v : BridgeView η) (e : BridgeEvent η) : Prop :=
  ∀ h, e = .free h → v.Idle h

open BridgeView

namespace Bridge

variable {b b' : Bridge η} {slot : FaultSlot} {given gs held fr : List η}

theorem mem_stored {h : η} : h ∈ b.stored ↔ ∃ slot, b.slots slot = some h := by
  simp only [stored, FaultSlot.all, List.mem_filterMap]
  constructor
  · rintro ⟨slot, -, hs⟩
    exact ⟨slot, hs⟩
  · rintro ⟨slot, hs⟩
    exact ⟨slot, by cases slot <;> simp, hs⟩

theorem stored_eq : b.stored = (b.slots .ill).toList ++ ((b.slots .bus).toList ++
    (b.slots .segv).toList) := by
  unfold stored FaultSlot.all
  cases hi : b.slots .ill <;> cases hb : b.slots .bus <;> cases hs : b.slots .segv <;>
    simp [hi, hb, hs]

theorem stored_store (b : Bridge η) (slot : FaultSlot) (h : Option η) :
    ((b.store slot h).stored ++ (b.slots slot).toList).Perm (b.stored ++ h.toList) := by
  classical
  rw [List.perm_iff_count]
  intro k
  simp only [stored_eq, List.count_append]
  cases slot <;> simp [store] <;> omega

/-- The handlers `given` are those freed so far, those that an operation holds, and those that the
bridge owns; what runs is owned or held. -/
structure Owned (given freed held : List η) (b : Bridge η) : Prop where
  conserved : (freed ++ (held ++ (b.retired ++ b.stored))).Perm given
  running : ∀ i ∈ b.calls, i.handler ∈ held ++ (b.retired ++ b.stored)
  active : b.active = b.calls.length

theorem Owned.empty : Owned [] [] [] (.empty : Bridge η) :=
  ⟨.refl [], fun _ hi => (List.not_mem_nil hi).elim, rfl⟩

/-- Storing a handler takes the one before it out into the hands of the operation. -/
theorem Owned.store {old : Option η} (ho : Owned given fr [] b) (h : Option η)
    (hold : b.slots slot = old) : Owned (given ++ h.toList) fr old.toList (b.store slot h) := by
  subst hold
  have hp := stored_store b slot h
  refine ⟨?_, fun i hi => ?_, ho.active⟩
  · classical
    have hc := ho.conserved
    rw [List.perm_iff_count] at hp hc ⊢
    intro k
    have hpk := hp k
    have hck := hc k
    simp only [List.count_append, store_retired, List.nil_append] at hpk hck ⊢
    omega
  · have hi := ho.running i hi
    have hm := hp.mem_iff (a := i.handler)
    simp only [List.nil_append, List.mem_append, store_retired] at hi hm ⊢
    rcases hi with hi | hi
    · exact .inr (.inl hi)
    · exact (hm.mpr (.inl hi)).elim (fun hi => .inr (.inr hi)) .inl

theorem Owned.take (ho : Owned given fr [] b) (h : η) : Owned (given ++ [h]) fr [h] b := by
  refine ⟨?_, fun i hi => List.mem_append_right _ (ho.running i hi), ho.active⟩
  have hc := ho.conserved.append_right [h]
  refine .trans ?_ hc
  rw [List.append_assoc]
  exact List.perm_append_comm.append_left fr

theorem Owned.calls_eq_nil (ho : Owned given fr held b) (ha : b.active = 0) : b.calls = [] :=
  List.eq_nil_of_length_eq_zero (ho.active.symm.trans ha)

theorem stored_congr {c : Bridge η} (h : c.slots = b.slots) : c.stored = b.stored := by
  unfold stored
  rw [h]

theorem Owned.retire (ho : Owned given fr held b) :
    Owned given (fr ++ (b.retire held).1) [] (b.retire held).2 := by
  have hs : (b.retire held).2.stored = b.stored := stored_congr (retire_slots b held)
  have hcat := retire_append b held
  refine ⟨?_, fun i hi => ?_, ?_⟩
  · have hp : (fr ++ (b.retire held).1 ++ ((b.retire held).2.retired ++ b.stored)).Perm
        (fr ++ (held ++ (b.retired ++ b.stored))) := by
      rw [List.append_assoc, ← List.append_assoc (b.retire held).1, hcat, ← List.append_assoc held]
      exact (List.perm_append_comm.append_right b.stored).append_left fr
    rw [hs, List.nil_append]
    exact hp.trans ho.conserved
  · -- something runs, so nothing is freed and what was held waits with the retired
    rw [retire_calls] at hi
    have hne : b.active ≠ 0 := by
      rw [ho.active]
      exact Nat.ne_of_gt (List.length_pos_of_mem hi)
    rw [retire_freed b held hne, List.nil_append] at hcat
    have hi := ho.running i hi
    simp only [hcat, hs, List.nil_append, List.mem_append] at hi ⊢
    tauto
  · rw [retire_active, retire_calls]
    exact ho.active

theorem Owned.mem_given (ho : Owned given fr held b) {h : η}
    (hm : h ∈ held ++ (b.retired ++ b.stored)) : h ∈ given :=
  ho.conserved.mem_iff.mp (List.mem_append_right _ hm)

theorem Owned.step (ho : Owned given fr [] b) (hs : Step b gs fs b') :
    Owned (given ++ gs) (fr ++ freed fs) [] b' := by
  cases hs with
  | quiet hc =>
    simp only [List.append_nil, freed, List.filterMap_nil]
    have hlen := congrArg List.length hc
    simp only [List.length_map] at hlen
    refine ⟨ho.conserved, fun i hi => ?_, ho.active.trans hlen.symm⟩
    obtain ⟨j, hj, he⟩ := List.mem_map.mp (hc ▸ List.mem_map_of_mem hi)
    exact he ▸ ho.running j hj
  | @stray h =>
    refine ⟨?_, ho.running, ho.active⟩
    have hc := ho.conserved.append_right [h]
    refine .trans ?_ hc
    rw [List.append_assoc, List.append_assoc]
    exact List.perm_append_comm.append_left fr
  | @swapped slot h old hold =>
    rw [freed_cons rfl, freed_free]
    exact (ho.store (some h) hold).retire
  | @routed slot h hold =>
    rw [freed_cons rfl, freed_cons rfl, freed_free]
    exact (ho.store (some h) hold).retire
  | @refused slot h e =>
    rw [freed_cons rfl, freed_cons rfl, freed_cons rfl, freed_free]
    exact (ho.take h).retire
  | kept =>
    rw [freed_cons rfl, List.append_nil]
    exact (List.append_nil fr).symm ▸ ho
  | removed hold =>
    rw [freed_cons rfl, freed_cons rfl, freed_free, List.append_nil]
    exact List.append_nil given ▸ (ho.store none hold).retire
  | @called slot i hold =>
    simp only [List.append_nil, freed, BridgeEvent.freed?, List.filterMap_cons, List.filterMap_nil]
    refine ⟨ho.conserved, fun j hj => ?_, by simp [ho.active]⟩
    rcases List.mem_cons.mp hj with rfl | hj
    · exact List.mem_append_right _ (List.mem_append_right _ (mem_stored.mpr ⟨slot, hold⟩))
    · exact ho.running j hj
  | @finished i outer handled hc =>
    simp only [List.append_nil, freed, BridgeEvent.freed?, List.filterMap_cons, List.filterMap_nil]
    refine ⟨ho.conserved, fun j hj => ho.running j (hc ▸ List.mem_cons_of_mem i hj), ?_⟩
    simp [ho.active, hc]

theorem History.owned (hr : History given es b) : Owned given (freed es) [] b := by
  refine hr.preserves (I := fun given es b => Owned given (freed es) [] b) .empty ?_
  intro given es b gs fs b' ho hs
  rw [freed_append]
  exact ho.step hs

theorem Owned.nodup (ho : Owned given fr held b) (hn : given.Nodup) :
    (fr ++ (held ++ (b.retired ++ b.stored))).Nodup :=
  ho.conserved.nodup_iff.mpr hn

/-- Retired handlers are only freed while nothing runs, and then they are in no slot. -/
theorem Owned.retire_idle (ho : Owned given fr held b) (hn : given.Nodup) (ht : Told v b) :
    ∀ h ∈ (b.retire held).1, v.Idle h := by
  intro h hh
  have ha : b.active = 0 := by
    by_contra hne
    rw [retire_freed b held hne] at hh
    cases hh
  refine ⟨fun slot hs => ?_, by simp [ht.running, ho.calls_eq_nil ha]⟩
  have hst : h ∈ b.stored := mem_stored.mpr ⟨slot, ht.slots ▸ hs⟩
  have hm : h ∈ b.retired ++ held := retire_append b held ▸ List.mem_append_left _ hh
  have hnd := (List.nodup_append.mp (ho.nodup hn)).2.1
  have hne : ∀ k ∈ b.retired ++ held, k ∉ b.stored := by
    intro k hk hks
    rw [← List.append_assoc] at hnd
    have hk : k ∈ held ++ b.retired := List.perm_append_comm.mem_iff.mp hk
    exact (List.nodup_append.mp hnd).2.2 k hk k hks rfl
  exact hne h hm hst

theorem Owned.fresh_idle (ho : Owned given fr [] b) (ht : Told v b) {h : η} (hh : h ∉ given) :
    v.Idle h := by
  refine ⟨fun slot hs => hh (ho.mem_given ?_), fun hr => ?_⟩
  · exact List.mem_append_right _ (List.mem_append_right _ (mem_stored.mpr ⟨slot, ht.slots ▸ hs⟩))
  · rw [ht.running] at hr
    obtain ⟨i, hi, rfl⟩ := List.mem_map.mp hr
    exact hh (ho.mem_given (ho.running i hi))

theorem Owned.step_idle (ho : Owned given fr [] b) (hn : (given ++ gs).Nodup) (ht : Told v b)
    (hs : Step b gs fs b') : Along FreedIdle v fs := by
  have hfree {w : BridgeView η} {hs : List η} (h : ∀ k ∈ hs, w.Idle k) :
      Along FreedIdle w (hs.map .free) := by
    rw [along_free]
    rintro k hk _ ⟨⟩
    exact h k hk
  cases hs with
  | quiet => trivial
  | @stray h =>
    have hh : h ∉ given := fun hm => (List.nodup_append.mp hn).2.2 h hm h (by simp) rfl
    refine ⟨?_, trivial⟩
    rintro _ ⟨⟩
    exact ho.fresh_idle ht hh
  | @swapped slot h old hold =>
    have hst := ho.store (some h) hold
    exact ⟨nofun, hfree (hst.retire_idle hn (ht.store slot _))⟩
  | @routed slot h hold =>
    have hst := ho.store (some h) hold
    exact ⟨nofun, nofun, hfree (hst.retire_idle hn ((ht.store slot _).route slot true))⟩
  | @refused slot h e hold =>
    have hp : Told ((v.store slot (some h)).store slot none) b := by
      have hp := (ht.store slot (some h)).store slot none
      rwa [store_undone hold] at hp
    exact ⟨nofun, nofun, nofun, hfree ((ho.take h).retire_idle hn hp)⟩
  | kept => exact ⟨nofun, trivial⟩
  | @removed slot h hold =>
    have hst := ho.store none hold
    rw [Option.toList_none] at hst
    exact ⟨nofun, nofun, hfree (hst.retire_idle hn ((ht.route slot false).store slot none))⟩
  | called | finished => exact ⟨nofun, trivial⟩

theorem Told.restore (ht : Told v b) (slot : FaultSlot) (answer : Outcome Unit) :
    Told (v.after (.restore slot answer)) b := by
  cases answer with
  | ok => exact ht.route slot false
  | error => exact ht

theorem Told.detach (ht : Told v b) (os : Installer) :
    Told (v.afterAll (b.detach os)) b ∧ Along FreedIdle v (b.detach os) := by
  unfold Bridge.detach
  generalize FaultSlot.all.filter (fun slot => (b.slots slot).isSome) = l
  induction l generalizing v with
  | nil => exact ⟨ht, trivial⟩
  | cons slot l ih =>
    obtain ⟨ht, hl⟩ := ih (ht.restore slot (os.restore slot))
    exact ⟨ht, nofun, hl⟩

theorem freed_detach (os : Installer) : freed (b.detach os) = [] := by
  unfold detach freed
  simp [BridgeEvent.freed?]

theorem freed_vacate (l : List FaultSlot) : freed (l.flatMap b.vacate) = l.filterMap b.slots := by
  induction l with
  | nil => rfl
  | cons slot l ih =>
    rw [List.flatMap_cons, freed_append, ih, List.filterMap_cons]
    unfold vacate
    cases b.slots slot <;> rfl

theorem freed_destroy : freed b.destroy.events = b.stored ++ b.retired := by
  unfold destroy
  rw [freed_append, freed_vacate, freed_free]
  rfl

theorem freed_drop (os : Installer) : freed (b.drop os).events = b.stored ++ b.retired := by
  unfold drop
  rw [freed_append, freed_detach, freed_destroy, List.nil_append]

theorem Owned.slot_unique (ho : Owned given fr held b) (hn : given.Nodup) {other : FaultSlot}
    {h : η} (hs : b.slots slot = some h) (ht : b.slots other = some h) : slot = other := by
  have hnd : b.stored.Nodup := by
    have hnd := (List.nodup_append.mp (ho.nodup hn)).2.1
    exact (List.nodup_append.mp (List.nodup_append.mp hnd).2.1).2.1
  by_contra hne
  have hm : h ∈ (b.store slot none).stored :=
    mem_stored.mpr ⟨other, (store_slots_ne b none (Ne.symm hne)).trans ht⟩
  have hp := stored_store b slot none
  rw [hs, Option.toList_none, List.append_nil] at hp
  exact (List.nodup_append.mp (hp.nodup_iff.mpr hnd)).2.2 h hm h (by simp) rfl

theorem Owned.vacate_idle (ho : Owned given fr held b) (hn : given.Nodup) {l : List FaultSlot}
    (hl : l.Nodup) (hr : v.running = [])
    (hv : ∀ slot, v.slots slot = if slot ∈ l then b.slots slot else none) :
    Along FreedIdle v (l.flatMap b.vacate) ∧
      (v.afterAll (l.flatMap b.vacate)).running = [] ∧
      ∀ slot, (v.afterAll (l.flatMap b.vacate)).slots slot = none := by
  -- on the slots that are still to be emptied, and the view holds nothing in the others
  induction l generalizing v with
  | nil => exact ⟨trivial, hr, fun slot => (hv slot).trans (by simp)⟩
  | cons slot l ih =>
    obtain ⟨hnot, hl⟩ := List.nodup_cons.mp hl
    rw [List.flatMap_cons]
    cases hs : b.slots slot with
    | none =>
      have he : b.vacate slot = [] := by simp [vacate, hs]
      rw [he, List.nil_append]
      refine ih hl hr fun other => (hv other).trans ?_
      by_cases hso : other = slot
      · simp [hso, hs]
      · simp [hso]
    | some h =>
      have he : b.vacate slot = [.withdraw slot, .free h] := by simp [vacate, hs]
      have hw : ∀ other, (v.store slot none).slots other =
          if other ∈ l then b.slots other else none := by
        intro other
        by_cases hso : other = slot
        · simp [BridgeView.store, hso, hnot]
        · simp [BridgeView.store, hso, hv other]
      have hidle : (v.store slot none).Idle h := by
        refine ⟨fun other ht => ?_, by simp [BridgeView.store, hr]⟩
        rw [hw other] at ht
        split at ht
        · next hm => exact hnot (ho.slot_unique hn hs ht ▸ hm)
        · cases ht
      obtain ⟨hal, hrun, hslots⟩ := ih hl (v := v.store slot none) hr hw
      have hwithdraw : FreedIdle v (.withdraw slot) := by
        intro _ hfree
        cases hfree
      rw [he]
      refine ⟨⟨hwithdraw, ?_, hal⟩, hrun, hslots⟩
      rintro _ ⟨⟩
      exact hidle

theorem Owned.drop_idle (ho : Owned given fr [] b) (hn : given.Nodup) (ht : Told v b)
    (hc : b.calls = []) (os : Installer) : Along FreedIdle v (b.drop os).events := by
  obtain ⟨htold, hdetach⟩ := ht.detach os
  have hrun : (v.afterAll (b.detach os)).running = [] := by simp [htold.running, hc]
  obtain ⟨hvac, hrun, hslots⟩ := ho.vacate_idle hn (l := FaultSlot.all) (by decide) hrun
    (fun slot => by cases slot <;> simp [htold.slots, FaultSlot.all])
  refine along_append.mpr ⟨hdetach, along_append.mpr ⟨hvac, ?_⟩⟩
  rw [along_free]
  rintro h - _ ⟨⟩
  exact ⟨fun slot hs => by simp [hslots slot] at hs, by simp [hrun]⟩

theorem register_settles (os : Installer) {signal : UInt64} (hs : faultSlot signal = .ok slot)
    (ha : b.active = 0) (h : η) : (b.register os signal (some h)).bridge.retired = [] := by
  unfold register
  cases ho : b.slots slot with
  | some old =>
    simp only [hs, ho]
    exact retire_retired _ _ ha
  | none =>
    cases hi : os.install slot with
    | ok | error =>
      simp only [hs, ho, hi]
      exact retire_retired _ _ ha

theorem unregister_settles {os : Installer} {signal : UInt64} (ha : b.active = 0)
    (hok : (b.unregister os signal).answer = .ok ()) :
    (b.unregister os signal).bridge.retired = [] := by
  unfold unregister at hok ⊢
  cases hs : faultSlot signal with
  | error e => simp [hs] at hok
  | ok slot =>
    cases ho : b.slots slot with
    | none => simp [hs, ho] at hok
    | some h =>
      cases hr : os.restore slot with
      | error e => simp [hs, ho, hr] at hok
      | ok =>
        simp only [ho, hr]
        exact retire_retired _ _ ha

/-- Of the handlers that the bridge was given, exactly the stored ones are left. -/
def OnlyStoredLeft (given : List η) (es : List (BridgeEvent η)) (b : Bridge η) : Prop :=
  ∀ h ∈ given, h ∉ freed es ↔ ∃ slot, b.slots slot = some h

theorem Owned.only_stored_left (ho : Owned given (freed es) [] b) (hn : given.Nodup)
    (hr : b.retired = []) : OnlyStoredLeft given es b := by
  intro h hh
  have hm := ho.conserved.mem_iff (a := h)
  have hnd := (List.nodup_append.mp (ho.nodup hn)).2.2
  simp only [hr, List.nil_append, List.mem_append] at hm hnd
  rw [← mem_stored]
  constructor
  · intro hf
    exact (hm.mpr hh).resolve_left hf
  · intro hs hf
    exact hnd h hf h hs rfl

theorem History.freed_idle (hr : History given es b) (hn : given.Nodup) :
    Along FreedIdle .initial es := by
  induction hr with
  | made => trivial
  | @next given es b a fs b' hr ha ih =>
    have hs := step_of_act ha
    rw [along_append]
    exact ⟨ih (List.nodup_append.mp hn).1, hr.owned.step_idle hn hr.told hs⟩

/-- Handlers are only freed while they are idle, and no handler twice. The end of the bridge frees
what is left. Whenever an operation that changes the slots returns with no call in progress, only
the stored handlers are left. -/
theorem History.lifetime (hr : History given es b) (hn : given.Nodup) :
    Along FreedIdle .initial es ∧ (freed es).Nodup ∧
      (b.calls = [] → ∀ os, Along FreedIdle .initial (es ++ (b.drop os).events) ∧
        (freed (es ++ (b.drop os).events)).Perm given) ∧
      (b.calls = [] → ∀ os signal slot h, faultSlot signal = .ok slot → h ∉ given →
        OnlyStoredLeft (given ++ [h]) (es ++ (b.register os signal (some h)).events)
          (b.register os signal (some h)).bridge) ∧
      (b.calls = [] → ∀ os signal, (b.unregister os signal).answer = .ok () →
        OnlyStoredLeft given (es ++ (b.unregister os signal).events)
          (b.unregister os signal).bridge) := by
  have ho := hr.owned
  have hactive (hc : b.calls = []) : b.active = 0 := by rw [ho.active, hc]; rfl
  refine ⟨hr.freed_idle hn, (List.nodup_append.mp (ho.nodup hn)).1, ?_, ?_, ?_⟩
  · intro hc os
    refine ⟨along_append.mpr ⟨hr.freed_idle hn, ho.drop_idle hn hr.told hc os⟩, ?_⟩
    rw [freed_append, freed_drop]
    exact (List.perm_append_comm.append_left (freed es)).trans ho.conserved
  · intro hc os signal slot h hs hh
    have ho := (hr.next (a := .register os signal (some h)) rfl).owned
    have hn : (given ++ [h]).Nodup :=
      (List.perm_append_singleton h given).nodup_iff.mpr (List.nodup_cons.mpr ⟨hh, hn⟩)
    exact ho.only_stored_left hn (register_settles os hs (hactive hc) h)
  · intro hc os signal hok
    have ho := (hr.next (a := .unregister os signal) rfl).owned
    have hgiven : given ++ (BridgeAction.unregister os signal).given = given :=
      List.append_nil given
    rw [hgiven] at ho
    exact ho.only_stored_left hn (unregister_settles (hactive hc) hok)

theorem History.lifetime_sample : ∃ es b, History [0, 1, 2] es b ∧ [0, 1, 2].Nodup ∧
    b.calls = [] ∧ freed es = [0, 1, 2] ∧ Along FreedIdle .initial es ∧
    (freed (es ++ (b.drop .willing).events)).Perm [0, 1, 2] := by
  obtain ⟨es, b, hr, hc, hf⟩ := History.sample
  have hl := History.lifetime hr (by decide)
  exact ⟨es, b, hr, by decide, hc, hf, hl.1, (hl.2.2.1 hc .willing).2⟩

end Bridge

end FirmwareHost
