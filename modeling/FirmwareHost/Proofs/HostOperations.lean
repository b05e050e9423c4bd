import FirmwareHost.Process
import Mathlib.Logic.Function.Basic

/-! Operations on host bridges, step by step. An operation in progress is the list of what it still
has to do. Between two of its steps signals arrive, handlers run and return, and the operations of
other bridges go on. One that nothing comes between is the operation of the process. -/

namespace FirmwareHost

variable {η : Type}

inductive Effect (η : Type) where
  | discard (handler : η)
  | publish (slot : FaultSlot) (handler : η)
  | withdraw (slot : FaultSlot)
  | install (slot : FaultSlot)
  | restore (slot : FaultSlot)
  | retire (handlers : List η)
  | detach
  /-- The wait for the trampolines ends, because none is left or because it took too long. -/
  | close

namespace Bridge

def registration (signal : UInt64) (handler : Option η) (b : Bridge η) : List (Effect η) :=
  match handler with
  | none => []
  | some h =>
    match faultSlot signal with
    | .error _ => [.discard h]
    | .ok slot =>
      -- nobody else registers meanwhile, so the slot stays as it is found here
      match b.slots slot with
      | some old => [.publish slot h, .retire [old]]
      | none => [.publish slot h, .install slot, .retire []]

def unregistration (signal : UInt64) (b : Bridge η) : List (Effect η) :=
  match faultSlot signal with
  | .error _ => []
  | .ok slot =>
    match b.slots slot with
    | none => []
    | some h => [.restore slot, .withdraw slot, .retire [h]]

def dropping (b : Bridge η) : List (Effect η) :=
  (FaultSlot.all.filter fun slot => (b.slots slot).isSome).map .restore ++ [.detach, .close]

end Bridge

namespace Process

variable {p q : Process η} {id : Nat} {m : Mounted η}

/-- A step of an operation on a host bridge, with its events. The system routes every fault signal
as it is asked to. -/
def effect (id : Nat) (p : Process η) (e : Effect η) : List (BridgeEvent η) × Process η :=
  match p.bridges[id]?, e with
  | none, _ => ([], p)
  | some _, .discard h => ([.free h], p)
  | some m, .publish slot h =>
    ([.publish slot h], p.setMounted id { m with bridge := m.bridge.store slot (some h) })
  | some m, .withdraw slot =>
    ([.withdraw slot], p.setMounted id { m with bridge := m.bridge.store slot none })
  | some _, .install slot =>
    ([.install slot (.ok ())], p.setDisposition slot.native .faults)
  | some _, .restore slot =>
    ([.restore slot (.ok ())], p.setDisposition slot.native .default)
  | some m, .retire hs =>
    let (freed, after) := m.bridge.retire hs
    (freed.map .free, p.setMounted id { m with bridge := after })
  | some _, .detach =>
    ([], { p with attached := if p.attached = some id then none else p.attached })
  | some m, .close =>
    if p.trampolines = 0 then
      (m.bridge.destroy.events, p.setMounted id { m with bridge := m.bridge.destroy.bridge })
    else ([], p)

def perform (id : Nat) (p : Process η) : List (Effect η) → List (BridgeEvent η) × Process η
  | [] => ([], p)
  | e :: rest =>
    let (es, q) := p.effect id e
    let (fs, r) := q.perform id rest
    (es ++ fs, r)

theorem setMounted_setMounted (m n : Mounted η) :
    (p.setMounted id m).setMounted id n = p.setMounted id n := by
  simp only [setMounted, List.set_set]

theorem getElem?_setMounted (hm : p.bridges[id]? = some m) (n : Mounted η) :
    (p.setMounted id n).bridges[id]? = some n := by
  obtain ⟨hlt, -⟩ := List.getElem?_eq_some_iff.mp hm
  exact List.getElem?_set_self hlt

theorem foldl_applyEvent_free (hs : List η) : (hs.map .free).foldl applyEvent p = p := by
  induction hs with
  | nil => rfl
  | cons h hs ih => exact ih

theorem perform_append (l k : List (Effect η)) : p.perform id (l ++ k) =
    ((p.perform id l).1 ++ ((p.perform id l).2.perform id k).1,
      ((p.perform id l).2.perform id k).2) := by
  induction l generalizing p with
  | nil => rfl
  | cons e l ih => simp only [List.cons_append, perform, ih, List.append_assoc]

theorem perform_restore (hm : p.bridges[id]? = some m) (l : List FaultSlot) :
    p.perform id (l.map .restore) = (l.map fun slot => .restore slot (.ok ()),
      (l.map fun slot => (.restore slot (.ok ()) : BridgeEvent η)).foldl applyEvent p) := by
  induction l generalizing p with
  | nil => rfl
  | cons slot l ih =>
    have hrest := ih (p := p.setDisposition slot.native .default) hm
    simp only [List.map_cons, perform, effect, hm, hrest]
    rfl

end Process

theorem Installer.system_install (slot : FaultSlot) : system.install slot = .ok () := by
  cases slot <;> rfl

theorem Installer.system_restore (slot : FaultSlot) : system.restore slot = .ok () := by
  cases slot <;> rfl

namespace Process

variable {p : Process η} {id : Nat} {m : Mounted η}

theorem setMounted_self (hm : p.bridges[id]? = some m) : p.setMounted id m = p := by
  obtain ⟨hlt, rfl⟩ := List.getElem?_eq_some_iff.mp hm
  simp only [setMounted, List.set_getElem_self]

theorem installerFor_host (hh : m.isHost = true) (given : Installer) :
    installerFor m given = .system := if_pos hh

theorem commitTurn_host {α : Type} (hh : m.isHost = true) (t : Turn η α) :
    p.commitTurn id m t =
      t.events.foldl applyEvent (p.setMounted id { m with bridge := t.bridge }) :=
  if_pos hh

theorem register_eq_perform (hm : p.bridges[id]? = some m) (hh : m.isHost = true)
    (given : Installer) (signal : UInt64) (handler : Option η) :
    p.register given id signal handler =
      some ((m.bridge.register .system signal handler).answer,
        p.perform id (m.bridge.registration signal handler)) := by
  simp only [register, hm, installerFor_host hh, commitTurn_host hh]
  unfold Bridge.register Bridge.registration
  cases handler with
  | none => simp only [perform, List.foldl_nil, setMounted_self hm]
  | some h =>
    cases hs : faultSlot signal with
    | error e =>
      simp only [perform, effect, hm, List.foldl_cons, List.foldl_nil, applyEvent,
        setMounted_self hm, List.append_nil]
    | ok slot =>
      cases ho : m.bridge.slots slot with
      | some old =>
        simp only [ho, perform, effect, hm, getElem?_setMounted hm, setMounted_setMounted,
          List.foldl_cons, applyEvent, foldl_applyEvent_free, List.append_nil]
        rfl
      | none =>
        have hset (n : Mounted η) : ((p.setMounted id n).setDisposition slot.native
            .faults).bridges[id]? = some n := getElem?_setMounted hm n
        simp only [ho, Installer.system_install, perform, effect, hm, getElem?_setMounted hm, hset,
          List.foldl_cons, applyEvent, foldl_applyEvent_free, List.append_nil]
        rw [← setMounted_setMounted { m with bridge := m.bridge.store slot (some h) }]
        rfl

theorem unregister_eq_perform (hm : p.bridges[id]? = some m) (hh : m.isHost = true)
    (given : Installer) (signal : UInt64) :
    p.unregister given id signal =
      some ((m.bridge.unregister .system signal).answer,
        p.perform id (m.bridge.unregistration signal)) := by
  simp only [unregister, hm, installerFor_host hh, commitTurn_host hh]
  unfold Bridge.unregister Bridge.unregistration
  cases hs : faultSlot signal with
  | error e => simp only [perform, List.foldl_nil, setMounted_self hm]
  | ok slot =>
    cases ho : m.bridge.slots slot with
    | none => simp only [ho, perform, List.foldl_nil, setMounted_self hm]
    | some h =>
      have hset (n : Mounted η) : ((p.setDisposition slot.native .default).setMounted id n).bridges[
          id]? = some n := getElem?_setMounted (p := p.setDisposition slot.native .default) hm n
      have hroute : (p.setDisposition slot.native .default).bridges[id]? = some m := hm
      simp only [ho, Installer.system_restore, perform, effect, hm, hroute, hset,
        setMounted_setMounted, List.foldl_cons, applyEvent, foldl_applyEvent_free, List.append_nil]
      rfl

theorem bridges_foldl_applyEvent (es : List (BridgeEvent η)) :
    (es.foldl applyEvent p).bridges = p.bridges := by
  induction es generalizing p with
  | nil => rfl
  | cons e es ih =>
    have he : (p.applyEvent e).bridges = p.bridges := by
      unfold applyEvent
      split <;> rfl
    exact ih.trans he

theorem detach_system (b : Bridge η) : b.detach .system =
    (FaultSlot.all.filter fun slot => (b.slots slot).isSome).map fun slot =>
      .restore slot (.ok ()) := by
  simp only [Bridge.detach, Installer.system_restore]

theorem close_eq_perform (hm : p.bridges[id]? = some m) (hh : m.isHost = true)
    (given : Installer) : p.close given id = p.perform id m.bridge.dropping := by
  let restores : List (BridgeEvent η) := m.bridge.detach .system
  let q := restores.foldl applyEvent p
  have hq : q.bridges[id]? = some m := by rwa [bridges_foldl_applyEvent]
  have hrestore : p.perform id ((FaultSlot.all.filter fun slot =>
      (m.bridge.slots slot).isSome).map .restore) = (restores, q) := by
    simp only [restores, q, detach_system]
    exact perform_restore hm _
  simp only [close, hm, installerFor_host hh, if_pos hh, Bridge.dropping, perform_append, hrestore,
    perform, effect, hq, List.append_nil, List.nil_append]
  split
  · rfl
  · simp only [List.append_nil]
    rfl

theorem drop_eq_perform (hm : p.bridges[id]? = some m) (hh : m.isHost = true)
    (howned : m.owned = true) (hb : m.borrowed = 0) (given : Installer) :
    p.drop given id =
      some ((p.setMounted id { m with owned := false }).perform id m.bridge.dropping) := by
  have hclose := close_eq_perform (getElem?_setMounted hm { m with owned := false }) hh given
  simp only [drop, hm, howned, if_true, if_pos hb, hclose]

theorem abstractFault_native (slot : FaultSlot) (code : Int) :
    abstractFault slot.native code = .ok (slot, slot.reason code) := by
  cases slot <;> rfl

section Deliver

variable {slot : FaultSlot} (code : Int) (address : UInt64) (frame : Frame)

theorem deliver_of_detached (ha : p.attached = none) :
    p.deliver slot.native code address frame = (none, [], p) := by
  simp only [deliver, ha, Option.bind_none]

theorem deliver_of_vacant (ha : p.attached = some id) (hm : p.bridges[id]? = some m)
    (ho : m.bridge.slots slot = none) :
    p.deliver slot.native code address frame = (none, [], p) := by
  simp only [deliver, ha, Option.bind_some, hm, Option.map_some, Bridge.dispatch,
    abstractFault_native, ho]
  rw [setMounted_self hm]

theorem deliver_of_stored {h : η} (ha : p.attached = some id) (hm : p.bridges[id]? = some m)
    (ho : m.bridge.slots slot = some h) : p.deliver slot.native code address frame =
      let i : Invocation η := ⟨h, slot, ⟨slot.reason code, address, frame.capture⟩, frame⟩
      let b : Bridge η := { m.bridge with
        active := m.bridge.active + 1
        calls := i :: m.bridge.calls }
      (some (id, i), [.call i],
        { p.setMounted id { m with bridge := b } with trampolines := p.trampolines + 1 }) := by
  simp only [deliver, ha, Option.bind_some, hm, Option.map_some, Bridge.dispatch,
    abstractFault_native, ho]
  rfl

end Deliver

end Process

/-- A process with what is left of the operation in progress on each of its bridges. -/
structure Interleaving (η : Type) where
  process : Process η
  pending : Nat → List (Effect η)

inductive HostAction (η : Type) where
  | host
  | openInstance (n : UInt64)
  | register (id : Nat) (signal : UInt64) (handler : Option η)
  | unregister (id : Nat) (signal : UInt64)
  | drop (id : Nat)
  /-- The operation in progress on a bridge takes its next step. -/
  | proceed (id : Nat)
  | deliver (slot : FaultSlot) (code : Int) (address : UInt64) (frame : Frame)
  | edit (id : Nat) (f : Snapshot → Snapshot)
  /-- The innermost call of a handler of a bridge returns. -/
  | resume (id : Nat)

namespace Interleaving

def initial : Interleaving η := ⟨.initial, fun _ => []⟩

/-- A bridge whose owner is free to begin an operation on it. -/
def idle? (s : Interleaving η) (id : Nat) : Option (Mounted η) :=
  (s.process.bridges[id]?).filter fun m => m.owned && (s.pending id).isEmpty

def go (s : Interleaving η) (id : Nat) (p : Process η) (l : List (Effect η)) : Interleaving η :=
  ⟨p, Function.update s.pending id l⟩

@[simp] theorem go_pending_self (s : Interleaving η) (id : Nat) (p : Process η)
    (l : List (Effect η)) : (s.go id p l).pending id = l := by
  simp [go]

theorem go_pending_ne (s : Interleaving η) {id other : Nat} (p : Process η) (l : List (Effect η))
    (h : other ≠ id) : (s.go id p l).pending other = s.pending other := by
  simp [go, h]

theorem go_same (s : Interleaving η) (id : Nat) (p : Process η) :
    s.go id p (s.pending id) = { s with process := p } := by
  simp [go]

/-- The events of an action, each with its bridge, and the state after it. The system hands a signal
over only where it is routed. -/
def step (s : Interleaving η) : HostAction η → Option (List (Nat × BridgeEvent η) × Interleaving η)
  | .host => some ([], { s with process := s.process.host.2 })
  | .openInstance n => some ([], { s with process := (s.process.openInstance n).2 })
  | .register id signal handler =>
    (s.idle? id).map fun m => ([], s.go id s.process (m.bridge.registration signal handler))
  | .unregister id signal =>
    (s.idle? id).map fun m => ([], s.go id s.process (m.bridge.unregistration signal))
  | .drop id =>
    (s.idle? id).map fun m =>
      ([], s.go id (s.process.setMounted id { m with owned := false }) m.bridge.dropping)
  | .proceed id =>
    match s.pending id with
    | [] => none
    | e :: rest =>
      let (es, p) := s.process.effect id e
      some (es.map (id, ·), s.go id p rest)
  | .deliver slot code address frame =>
    if s.process.dispositions slot.native = .faults then
      let (call, es, p) := s.process.deliver slot.native code address frame
      some (es.flatMap fun e => call.toList.map fun (id, _) => (id, e), { s with process := p })
    else none
  | .edit id f => some ([], { s with process := s.process.edit id f })
  | .resume id =>
    (s.process.resume id).map fun (_, es, p) => (es.map (id, ·), { s with process := p })

inductive Run (s : Interleaving η) : List (Nat × BridgeEvent η) → Interleaving η → Prop
  | start : Run s [] s
  | next {es t a fs u} (hr : Run s es t) (hs : t.step a = some (fs, u)) : Run s (es ++ fs) u

/-- Everything that an action can do. -/
inductive Step (s : Interleaving η) : List (Nat × BridgeEvent η) → Interleaving η → Prop
  | same : Step s [] s
  | hosted (ha : s.process.attached = none) : Step s [] { s with process := s.process.host.2 }
  | begun {id m l} (hm : s.process.bridges[id]? = some m) (howned : m.owned = true)
      (hp : s.pending id = [])
      (hl : (∃ signal handler, l = m.bridge.registration signal handler) ∨
        ∃ signal, l = m.bridge.unregistration signal) :
      Step s [] (s.go id s.process l)
  | dropped {id m} (hm : s.process.bridges[id]? = some m) (howned : m.owned = true)
      (hp : s.pending id = []) :
      Step s [] (s.go id (s.process.setMounted id { m with owned := false }) m.bridge.dropping)
  | proceeded {id e rest} (hp : s.pending id = e :: rest) :
      Step s ((s.process.effect id e).1.map (id, ·)) (s.go id (s.process.effect id e).2 rest)
  | called {id m i} (ha : s.process.attached = some id) (hm : s.process.bridges[id]? = some m)
      (ho : m.bridge.slots i.slot = some i.handler) :
      Step s [(id, .call i)] { s with process := { s.process.setMounted id { m with
        bridge := { m.bridge with
          active := m.bridge.active + 1
          calls := i :: m.bridge.calls } } with trampolines := s.process.trampolines + 1 } }
  | edited {id m calls} (hm : s.process.bridges[id]? = some m)
      (hc : calls.length = m.bridge.calls.length) :
      Step s [] { s with process := s.process.setMounted id { m with
        bridge := { m.bridge with calls } } }
  | returned {id m i outer handled} (hm : s.process.bridges[id]? = some m)
      (hc : m.bridge.calls = i :: outer) :
      Step s [(id, .finish i handled)] { s with process := { s.process.setMounted id { m with
        bridge := { m.bridge with
          active := m.bridge.active - 1
          calls := outer } } with trampolines := s.process.trampolines - 1 } }

variable {s t : Interleaving η} {id : Nat} {m : Mounted η} {es : List (Nat × BridgeEvent η)}

theorem idle?_eq_some (h : s.idle? id = some m) :
    s.process.bridges[id]? = some m ∧ m.owned = true ∧ s.pending id = [] := by
  obtain ⟨hm, hp⟩ := Option.filter_eq_some_iff.mp h
  simpa [hm] using hp

theorem step_host (s : Interleaving η) : Step s [] { s with process := s.process.host.2 } := by
  cases ha : s.process.attached with
  | none => exact .hosted ha
  | some id =>
    have hp : s.process.host.2 = s.process := by simp only [Process.host, ha]
    rw [hp]
    exact .same

theorem step_deliver {slot : FaultSlot} {code : Int} {address : UInt64} {frame : Frame}
    (h : s.step (.deliver slot code address frame) = some (es, t)) : Step s es t := by
  simp only [step] at h
  split at h
  next =>
    cases ha : s.process.attached with
    | none =>
      simp only [Process.deliver_of_detached _ _ _ ha] at h
      cases h
      exact .same
    | some id =>
      cases hm : s.process.bridges[id]? with
      | none =>
        simp only [Process.deliver, ha, Option.bind_some, hm, Option.map_none] at h
        cases h
        exact .same
      | some m =>
        cases ho : m.bridge.slots slot with
        | none =>
          simp only [Process.deliver_of_vacant _ _ _ ha hm ho] at h
          cases h
          exact .same
        | some handler =>
          simp only [Process.deliver_of_stored _ _ _ ha hm ho] at h
          cases h
          exact .called ha hm ho
  next => cases h

theorem step_edit (f : Snapshot → Snapshot) :
    Step s [] { s with process := s.process.edit id f } := by
  unfold Process.edit
  split
  · exact .same
  · next m hm =>
    unfold Bridge.edit
    split
    · next hc =>
      rw [Process.setMounted_self hm]
      exact .same
    · next i outer hc => exact .edited hm (by simp [hc])

theorem step_resume (h : s.step (.resume id) = some (es, t)) : Step s es t := by
  obtain ⟨⟨x, fs, p⟩, hp, he⟩ := Option.map_eq_some_iff.mp h
  cases he
  unfold Process.resume at hp
  split at hp
  · cases hp
  · next m hm =>
    split at hp
    · cases hp
    · next turn hturn =>
      unfold Bridge.finish at hturn
      split at hturn
      · cases hturn
      · next i outer hc =>
        split at hturn <;> cases hturn <;> cases hp <;> exact .returned hm hc

theorem step_inv {a : HostAction η} (h : s.step a = some (es, t)) : Step s es t := by
  cases a with
  | host =>
    cases h
    exact step_host s
  | openInstance n =>
    cases h
    unfold Process.openInstance
    split
    · exact .same
    · exact step_host s
  | register id signal handler =>
    obtain ⟨m, hm, he⟩ := Option.map_eq_some_iff.mp h
    cases he
    obtain ⟨hm, howned, hp⟩ := idle?_eq_some hm
    exact .begun hm howned hp (.inl ⟨signal, handler, rfl⟩)
  | unregister id signal =>
    obtain ⟨m, hm, he⟩ := Option.map_eq_some_iff.mp h
    cases he
    obtain ⟨hm, howned, hp⟩ := idle?_eq_some hm
    exact .begun hm howned hp (.inr ⟨signal, rfl⟩)
  | drop id =>
    obtain ⟨m, hm, he⟩ := Option.map_eq_some_iff.mp h
    cases he
    obtain ⟨hm, howned, hp⟩ := idle?_eq_some hm
    exact .dropped hm howned hp
  | proceed id =>
    simp only [step] at h
    split at h
    · cases h
    · next e rest hp =>
      cases h
      exact .proceeded hp
  | deliver slot code address frame => exact step_deliver h
  | edit id f =>
    cases h
    exact step_edit f
  | resume id => exact step_resume h

end Interleaving

end FirmwareHost
