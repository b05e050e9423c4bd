import FirmwareHost.Proofs.HandlerLifetime
import FirmwareHost.Proofs.HostOrder

/-! The discipline of host bridges. Handlers may host, register and drop as anyone may, also the
bridge that they run for. What is dropped while a handler runs stays for good. -/

namespace FirmwareHost

variable {η : Type}

namespace Interleaving

variable {s t : Interleaving η} {id : Nat} {m : Mounted η} {es : List (Nat × BridgeEvent η)}

/-- A bridge whose drop is over. -/
structure Gone (s : Interleaving η) (id : Nat) (m : Mounted η) : Prop where
  kept : s.process.bridges[id]? = some m
  owned : m.owned = false
  detached : s.process.attached ≠ some id
  settled : s.pending id = []

theorem effect_frame (p : Process η) (e : Effect η) {k : Nat} (hk : k ≠ id) :
    (p.effect id e).2.bridges[k]? = p.bridges[k]? ∧
      ((p.effect id e).2.attached = some k → p.attached = some k) := by
  have hset (x : Mounted η) : (p.setMounted id x).bridges[k]? = p.bridges[k]? :=
    List.getElem?_set_ne (Ne.symm hk)
  cases hm : p.bridges[id]? with
  | none => simp only [Process.effect, hm, true_and, imp_self]
  | some m =>
    simp only [Process.effect, hm]
    cases e with
    | detach =>
      refine ⟨rfl, fun h => ?_⟩
      simp only at h
      split at h
      · cases h
      · exact h
    | close =>
      dsimp only
      split
      · exact ⟨hset _, fun h => h⟩
      · exact ⟨rfl, fun h => h⟩
    | publish | withdraw | retire => exact ⟨hset _, fun h => h⟩
    | discard | install | restore => exact ⟨rfl, fun h => h⟩

theorem Gone.calls (hg : s.Gone id m) {k : Nat} {x : Mounted η}
    (hx : s.process.bridges[k]? = some x) (active trampolines : Nat)
    (calls : List (Invocation η)) :
    ∃ n, Gone { s with process := { s.process.setMounted k { x with
        bridge := { x.bridge with active, calls } } with trampolines } } id n ∧
      n.bridge.slots = m.bridge.slots ∧ n.bridge.retired = m.bridge.retired := by
  by_cases hk : k = id
  · subst hk
    obtain rfl := Option.some.inj (hg.kept.symm.trans hx)
    exact ⟨_, ⟨Process.getElem?_setMounted hx _, hg.owned, hg.detached, hg.settled⟩, rfl, rfl⟩
  · refine ⟨m, ⟨?_, hg.owned, hg.detached, hg.settled⟩, rfl, rfl⟩
    exact (List.getElem?_set_ne hk).trans hg.kept

/-- What a bridge still holds when its drop is over it holds for good. -/
theorem Gone.step (hg : s.Gone id m) (hs : Step s es t) : (∀ h, (id, .free h) ∉ es) ∧
    ∃ n, t.Gone id n ∧ n.bridge.slots = m.bridge.slots ∧ n.bridge.retired = m.bridge.retired := by
  have hne {k : Nat} {x : Mounted η} (hx : s.process.bridges[k]? = some x) (hox : x.owned = true) :
      id ≠ k := by
    rintro rfl
    obtain rfl := Option.some.inj (hg.kept.symm.trans hx)
    rw [hg.owned] at hox
    cases hox
  have hset {k : Nat} {x : Mounted η} (hk : id ≠ k) :
      (s.process.setMounted k x).bridges[id]? = some m :=
    (List.getElem?_set_ne (Ne.symm hk)).trans hg.kept
  cases hs with
  | same => exact ⟨by simp, m, hg, rfl, rfl⟩
  | hosted ha =>
    obtain ⟨hlt, -⟩ := List.getElem?_eq_some_iff.mp hg.kept
    simp only [Process.host, ha]
    refine ⟨by simp, m, ⟨(List.getElem?_append_left hlt).trans hg.kept, hg.owned, fun h => ?_,
      hg.settled⟩, rfl, rfl⟩
    exact Nat.ne_of_gt hlt (Option.some.inj h)
  | @begun k x l hx hox hp hl =>
    have hpending := (go_pending_ne s s.process l (hne hx hox)).trans hg.settled
    exact ⟨by simp, m, ⟨hg.kept, hg.owned, hg.detached, hpending⟩, rfl, rfl⟩
  | @dropped k x hx hox hp =>
    have hk := hne hx hox
    have hpending := (go_pending_ne s (s.process.setMounted k { x with owned := false })
      x.bridge.dropping hk).trans hg.settled
    exact ⟨by simp, m, ⟨hset hk, hg.owned, hg.detached, hpending⟩, rfl, rfl⟩
  | @proceeded k e rest hp =>
    have hk : id ≠ k := by
      rintro rfl
      rw [hg.settled] at hp
      cases hp
    obtain ⟨hbridges, hattached⟩ := effect_frame s.process e hk
    have hpending := (go_pending_ne s (s.process.effect k e).2 rest hk).trans hg.settled
    refine ⟨fun h hh => ?_, m, ⟨hbridges.trans hg.kept, hg.owned, mt hattached hg.detached,
      hpending⟩, rfl, rfl⟩
    obtain ⟨x, -, hx⟩ := List.mem_map.mp hh
    exact hk (Prod.mk.inj hx).1.symm
  | called _ hx => exact ⟨by simp, hg.calls hx _ _ _⟩
  | edited hx => exact ⟨by simp, hg.calls hx _ _ _⟩
  | returned hx => exact ⟨by simp, hg.calls hx _ _ _⟩

theorem Gone.run (hg : s.Gone id m) (hr : Run s es t) : (∀ h, (id, .free h) ∉ es) ∧
    ∃ n, t.Gone id n ∧ n.bridge.slots = m.bridge.slots ∧ n.bridge.retired = m.bridge.retired := by
  induction hr with
  | start => exact ⟨by simp, m, hg, rfl, rfl⟩
  | next _ hs ih =>
    obtain ⟨hes, n, hn, hslots, hretired⟩ := ih
    obtain ⟨hfs, k, hk, hslots', hretired'⟩ := hn.step (step_inv hs)
    refine ⟨fun h hh => ?_, k, hk, hslots'.trans hslots, hretired'.trans hretired⟩
    exact (List.mem_append.mp hh).elim (hes h) (hfs h)

def Quiet (s : Interleaving η) : Prop := ∀ id, s.pending id = []

/-- The drop of a bridge ends with the events `fs` and leaves the handlers `left` in it, which are
never freed. -/
def Ends (s : Interleaving η) (id : Nat) (fs : List (BridgeEvent η)) (left : List η) : Prop :=
  ∃ t, s.step (.proceed id) = some (fs.map (id, ·), t) ∧ ∀ {gs u}, Run t gs u →
    (∀ h, (id, .free h) ∉ gs) ∧
      ∃ n, u.process.bridges[id]? = some n ∧ n.bridge.stored ++ n.bridge.retired = left

structure Disciplined (s : Interleaving η) : Prop where
  attached : s.Quiet → ∀ id, s.process.attached = some id ↔
    ∃ m, s.process.bridges[id]? = some m ∧ m.isHost = true ∧ m.owned = true
  routed : s.Quiet → ∀ slot : FaultSlot, s.process.dispositions slot.native =
    if (s.process.handler? slot).isSome then .faults else .default
  host : if s.process.attached = none then ∃ id p, s.process.host = (.ok id, p) ∧
      p.attached = some id
    else s.process.host = (.error .alreadyStarted, s.process)
  opened : ∀ n, s.process.openInstance n =
    if n = 0 then s.process.host else (.error .notFound, s.process)
  delivered : ∀ {slot : FaultSlot} (code : Int) (address : UInt64) (frame : Frame),
    s.process.dispositions slot.native = .faults → ∃ id h, s.process.attached = some id ∧
      s.process.handler? slot = some h ∧ (s.process.deliver slot.native code address frame).1 =
        some (id, ⟨h, slot, ⟨slot.reason code, address, frame.capture⟩, frame⟩)
  closed : ∀ {id m}, s.process.bridges[id]? = some m → s.pending id = [.close] →
    (s.process.calls = [] →
      ∃ fs, freed fs = m.bridge.stored ++ m.bridge.retired ∧ s.Ends id fs []) ∧
    (s.process.calls ≠ [] →
      s.Ends id [] (m.bridge.stored ++ m.bridge.retired))
  /-- Operations that nothing comes between are those of the process. -/
  alone : ∀ {id m} (given : Installer), s.process.bridges[id]? = some m →
    (∀ signal handler, s.process.register given id signal handler =
      some ((m.bridge.register .system signal handler).answer,
        s.process.perform id (m.bridge.registration signal handler))) ∧
    (∀ signal, s.process.unregister given id signal =
      some ((m.bridge.unregister .system signal).answer,
        s.process.perform id (m.bridge.unregistration signal))) ∧
    (m.owned = true → s.process.drop given id = some
      ((s.process.setMounted id { m with owned := false }).perform id m.bridge.dropping))

theorem Orderly.closed (ho : s.Orderly) (hm : s.process.bridges[id]? = some m)
    (hp : s.pending id = [.close]) :
    (s.process.calls = [] →
      ∃ fs, freed fs = m.bridge.stored ++ m.bridge.retired ∧ s.Ends id fs []) ∧
    (s.process.calls ≠ [] →
      s.Ends id [] (m.bridge.stored ++ m.bridge.retired)) := by
  have haway : s.process.attached ≠ some id := by
    intro ha
    obtain ⟨x, -, hl⟩ := ho.attached ha
    rw [hp] at hl
    exact hl
  have howned : m.owned = false := by
    rw [← Bool.not_eq_true]
    exact fun h => haway (ho.owned hm h)
  have hends {b : Bridge η} {fs : List (BridgeEvent η)}
      (he : s.process.effect id .close = (fs, s.process.setMounted id { m with bridge := b })) :
      s.Ends id fs (b.stored ++ b.retired) := by
    refine ⟨s.go id (s.process.setMounted id { m with bridge := b }) [], ?_, fun {gs u} hr => ?_⟩
    · simp only [Interleaving.step, hp, he]
    · have hgone : Gone (s.go id (s.process.setMounted id { m with bridge := b }) []) id
          { m with bridge := b } :=
        ⟨Process.getElem?_setMounted hm _, howned, haway, go_pending_self ..⟩
      obtain ⟨hfree, n, hn, hslots, hretired⟩ := hgone.run hr
      refine ⟨hfree, n, hn.kept, ?_⟩
      rw [Bridge.stored_congr hslots, hretired]
  constructor
  · intro hcalls
    have ht : s.process.trampolines = 0 := by rw [ho.counted, hcalls, List.length_nil]
    refine ⟨m.bridge.destroy.events, Bridge.freed_destroy, hends (b := m.bridge.destroy.bridge) ?_⟩
    simp only [Process.effect, hm, ht, if_true]
  · intro hcalls
    have ht : s.process.trampolines ≠ 0 := by
      rw [ho.counted]
      exact mt List.eq_nil_of_length_eq_zero hcalls
    refine hends (b := m.bridge) ?_
    simp only [Process.effect, hm, ht, if_false]
    rw [Process.setMounted_self hm]

/-- However operations, signals and handlers come between each other, when no operation is in
progress at most one bridge is attached, and it is the one that is still owned; a fault signal is
routed exactly if that bridge has a handler for it. A routed signal runs that handler at any time.
A drop frees what the bridge holds if no handler runs when its wait ends, and else nothing ever. -/
theorem Run.disciplined (hr : Run initial es s) : s.Disciplined where
  attached hq id := by
    have ho := hr.orderly
    constructor
    · intro ha
      obtain ⟨m, hm, hl⟩ := ho.attached ha
      rw [hq id] at hl
      exact ⟨m, hm, (ho.hosts hm).1, hl.1⟩
    · rintro ⟨m, hm, -, howned⟩
      exact ho.owned hm howned
  routed hq slot := by
    have ho := hr.orderly
    cases ha : s.process.attached with
    | none => simp [Process.handler?, ha, ho.released ha slot]
    | some id =>
      obtain ⟨m, hm, hl⟩ := ho.attached ha
      rw [hq id] at hl
      have hslot : s.process.handler? slot = m.bridge.slots slot := by
        simp only [Process.handler?, ha, Option.bind_some, hm]
      have hmatched : _ = (m.bridge.slots slot).isSome := hl.2 slot
      rw [hslot]
      split
      · next hsome => exact Process.view_installed.mp (hmatched.trans hsome)
      · next hnone =>
        refine (ho.known slot).resolve_left fun hf => hnone ?_
        rw [← hmatched]
        exact Process.view_installed.mpr hf
  host := by
    cases ha : s.process.attached with
    | none => exact ⟨_, _, by simp only [Process.host, ha]; rfl, rfl⟩
    | some id => simp only [Process.host, ha, reduceCtorEq, if_false]
  opened n := by
    unfold Process.openInstance requireFirstInstance
    by_cases hn : n = 0 <;> simp only [hn, if_true, if_false]
  delivered {slot} code address frame hf := by
    have ho := hr.orderly
    obtain ⟨id, ha⟩ : ∃ id, s.process.attached = some id := by
      refine Option.ne_none_iff_exists'.mp fun ha => ?_
      rw [ho.released ha slot] at hf
      cases hf
    obtain ⟨m, hm, hl⟩ := ho.attached ha
    obtain ⟨h, hs⟩ := Option.isSome_iff_exists.mp (hl.covered slot (Process.view_installed.mpr hf))
    have hslot : m.bridge.slots slot = some h := hs
    refine ⟨id, h, ha, by simp only [Process.handler?, ha, Option.bind_some, hm, hslot], ?_⟩
    rw [Process.deliver_of_stored code address frame ha hm hslot]
  closed := hr.orderly.closed
  alone given hm := by
    obtain ⟨hh, hb⟩ := hr.orderly.hosts hm
    exact ⟨fun signal handler => Process.register_eq_perform hm hh given signal handler,
      fun signal => Process.unregister_eq_perform hm hh given signal,
      fun howned => Process.drop_eq_perform hm hh howned hb given⟩

def play (s : Interleaving η) :
    List (HostAction η) → Option (List (Nat × BridgeEvent η) × Interleaving η)
  | [] => some ([], s)
  | a :: rest =>
    match s.step a with
    | none => none
    | some (fs, t) => (t.play rest).map fun (es, u) => (fs ++ es, u)

theorem Run.of_play {r : Interleaving η} {gs : List (Nat × BridgeEvent η)} {l : List (HostAction η)}
    (hr : Run r gs s) (hp : s.play l = some (es, t)) : Run r (gs ++ es) t := by
  induction l generalizing s gs es with
  | nil =>
    cases hp
    simpa using hr
  | cons a rest ih =>
    simp only [play] at hp
    split at hp
    · cases hp
    · next fs u hu =>
      obtain ⟨⟨hs, v⟩, hv, he⟩ := Option.map_eq_some_iff.mp hp
      cases he
      rw [← List.append_assoc]
      exact ih (hr.next hu) hv

/-- A handler drops its own bridge and makes another, while the drop still waits for it. -/
theorem Run.disciplined_sample : ∃ (es : List (Nat × BridgeEvent Nat)) (s : Interleaving Nat),
    Run initial es s ∧ s.process.attached = some 1 ∧
      s.process.host = (.error .alreadyStarted, s.process) ∧ s.Ends 0 [] [7] := by
  let drops : List (HostAction Nat) :=
    [.host, .register 0 4 (some 7), .proceed 0, .proceed 0, .proceed 0,
      .deliver .ill 1 0 (.ofWords [] .x64), .drop 0, .proceed 0, .proceed 0, .openInstance 0]
  obtain ⟨es, s, hp, ha, m, hm, hclose, hrun, hheld⟩ : ∃ es s, initial.play drops = some (es, s) ∧
      s.process.attached = some 1 ∧ ∃ m, s.process.bridges[0]? = some m ∧
        s.pending 0 = [.close] ∧ s.process.calls ≠ [] ∧
        m.bridge.stored ++ m.bridge.retired = [7] :=
    ⟨_, _, rfl, rfl, _, rfl, rfl, nofun, rfl⟩
  have hr : Run initial es s := Run.start.of_play hp
  have hd := Run.disciplined hr
  have hhost := hd.host
  rw [ha, if_neg nofun] at hhost
  exact ⟨es, s, hr, ha, hhost, hheld ▸ (hd.closed hm hclose).2 hrun⟩

end Interleaving

end FirmwareHost
