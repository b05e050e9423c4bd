import FirmwareHost.Bridge
import Mathlib.Data.List.Perm.Basic

/-! Histories of a bridge. A handler that runs may register, unregister and dispatch as its owner
does, so the actions between a call and its return are whatever the innermost handler did. The
events so far tell, at each point, which handlers are stored, which signals are routed to the
bridge, and which handlers run. -/

namespace FirmwareHost

variable {η : Type}

/-- One thing that the owner of a bridge, or its innermost running handler, does with it. The
installer is the one that answers at that moment. -/
inductive BridgeAction (η : Type) where
  | register (os : Installer) (signal : UInt64) (handler : Option η)
  | unregister (os : Installer) (signal : UInt64)
  | dispatch (signum code : Int) (address : UInt64) (frame : Frame)
  | edit (f : Snapshot → Snapshot)
  | finish

def BridgeEvent.freed? : BridgeEvent η → Option η
  | .free h => some h
  | _ => none

def freed (es : List (BridgeEvent η)) : List η := es.filterMap BridgeEvent.freed?

def BridgeAction.given : BridgeAction η → List η
  | .register _ _ handler => handler.toList
  | _ => []

/-- What a history tells of the moment at its end. -/
structure BridgeView (η : Type) where
  slots : FaultSlot → Option η
  installed : FaultSlot → Bool
  /-- Handlers running, innermost first. -/
  running : List η

namespace BridgeView

def initial : BridgeView η := ⟨fun _ => none, fun _ => false, []⟩

def store (v : BridgeView η) (slot : FaultSlot) (handler : Option η) : BridgeView η :=
  { v with slots := fun s => if s = slot then handler else v.slots s }

def route (v : BridgeView η) (slot : FaultSlot) (routed : Bool) : BridgeView η :=
  { v with installed := fun s => if s = slot then routed else v.installed s }

def after (v : BridgeView η) : BridgeEvent η → BridgeView η
  | .publish slot h => v.store slot (some h)
  | .withdraw slot => v.store slot none
  | .install slot (.ok ()) => v.route slot true
  | .restore slot (.ok ()) => v.route slot false
  | .call i => { v with running := i.handler :: v.running }
  | .finish .. => { v with running := v.running.tail }
  | .install _ (.error _) | .restore _ (.error _) | .free _ => v

def afterAll (v : BridgeView η) (es : List (BridgeEvent η)) : BridgeView η := es.foldl after v

/-- Each event is as `P` asks, at the moment at which it happens. -/
def Along (P : BridgeView η → BridgeEvent η → Prop) : BridgeView η → List (BridgeEvent η) → Prop
  | _, [] => True
  | v, e :: es => P v e ∧ Along P (v.after e) es

variable {P : BridgeView η → BridgeEvent η → Prop} {v : BridgeView η} {es fs : List (BridgeEvent η)}

theorem afterAll_cons {e : BridgeEvent η} : v.afterAll (e :: es) = (v.after e).afterAll es := rfl

theorem afterAll_append : v.afterAll (es ++ fs) = (v.afterAll es).afterAll fs := List.foldl_append

theorem afterAll_free (hs : List η) : v.afterAll (hs.map .free) = v := by
  induction hs with
  | nil => rfl
  | cons h hs ih => exact ih

theorem along_append : Along P v (es ++ fs) ↔ Along P v es ∧ Along P (v.afterAll es) fs := by
  induction es generalizing v with
  | nil => simp [Along, afterAll]
  | cons e es ih =>
    simp only [List.cons_append, Along, ih, and_assoc]
    rfl

theorem along_free {hs : List η} : Along P v (hs.map .free) ↔ ∀ h ∈ hs, P v (.free h) := by
  induction hs with
  | nil => simp [Along]
  | cons h hs ih => simp only [List.map_cons, Along, after, ih, List.forall_mem_cons]

end BridgeView

namespace Bridge

variable {b b' : Bridge η} {slot : FaultSlot} {given gs : List η} {es fs : List (BridgeEvent η)}

/-- The events of an action and the bridge after it; only a running handler can return. -/
def act (b : Bridge η) : BridgeAction η → Option (List (BridgeEvent η) × Bridge η)
  | .register os signal handler =>
    let t := b.register os signal handler
    some (t.events, t.bridge)
  | .unregister os signal =>
    let t := b.unregister os signal
    some (t.events, t.bridge)
  | .dispatch signum code address frame =>
    let t := b.dispatch signum code address frame
    some (t.events, t.bridge)
  | .edit f => some ([], b.edit f)
  | .finish => b.finish.map fun t => (t.events, t.bridge)

/-- The handlers that a new bridge was given in a run, the events of the run, and the bridge. -/
inductive History : List η → List (BridgeEvent η) → Bridge η → Prop
  | made : History [] [] .empty
  | next {given es b a fs b'} (hr : History given es b) (ha : b.act a = some (fs, b')) :
      History (given ++ a.given) (es ++ fs) b'

/-- Everything that an action can do, with the handlers it hands over. -/
inductive Step (b : Bridge η) : List η → List (BridgeEvent η) → Bridge η → Prop
  | quiet {calls} (hc : calls.map Invocation.handler = b.calls.map Invocation.handler) :
      Step b [] [] { b with calls }
  | stray {h} : Step b [h] [.free h] b
  | swapped {slot h old} (ho : b.slots slot = some old) :
      Step b [h] (.publish slot h :: ((b.store slot (some h)).retire [old]).1.map .free)
        ((b.store slot (some h)).retire [old]).2
  | routed {slot h} (ho : b.slots slot = none) :
      Step b [h] (.publish slot h :: .install slot (.ok ()) ::
        ((b.store slot (some h)).retire []).1.map .free) ((b.store slot (some h)).retire []).2
  | refused {slot h e} (ho : b.slots slot = none) :
      Step b [h] (.publish slot h :: .install slot (.error e) :: .withdraw slot ::
        (b.retire [h]).1.map .free) (b.retire [h]).2
  | kept {slot h e} (ho : b.slots slot = some h) : Step b [] [.restore slot (.error e)] b
  | removed {slot h} (ho : b.slots slot = some h) :
      Step b [] (.restore slot (.ok ()) :: .withdraw slot ::
        ((b.store slot none).retire [h]).1.map .free) ((b.store slot none).retire [h]).2
  | called {slot i} (ho : b.slots slot = some i.handler) :
      Step b [] [.call i] { b with active := b.active + 1, calls := i :: b.calls }
  | finished {i outer handled} (hc : b.calls = i :: outer) :
      Step b [] [.finish i handled] { b with active := b.active - 1, calls := outer }

theorem Step.same : Step b [] [] b := .quiet rfl

theorem store_undone {h : Option η} (ho : b.slots slot = none) :
    (b.store slot h).store slot none = b := by
  have hs : (fun s => if s = slot then none else if s = slot then h else b.slots s) = b.slots := by
    funext s
    by_cases he : s = slot <;> simp [he, ho]
  simp [store, hs]

theorem step_register (os : Installer) (signal : UInt64) (handler : Option η) :
    Step b handler.toList (b.register os signal handler).events
      (b.register os signal handler).bridge := by
  cases handler with
  | none => exact .same
  | some h =>
    unfold register
    cases hs : faultSlot signal with
    | error e => exact .stray
    | ok slot =>
      cases ho : b.slots slot with
      | some old =>
        simp only [ho]
        exact .swapped ho
      | none =>
        cases hi : os.install slot with
        | ok =>
          simp only [ho, hi]
          exact .routed ho
        | error e =>
          -- the slot was empty, so taking the handler out again leaves the old bridge
          simp only [ho, hi, store_undone ho]
          exact .refused ho

theorem step_unregister (os : Installer) (signal : UInt64) :
    Step b [] (b.unregister os signal).events (b.unregister os signal).bridge := by
  unfold unregister
  cases hs : faultSlot signal with
  | error e => exact .same
  | ok slot =>
    cases ho : b.slots slot with
    | none =>
      simp only [ho]
      exact .same
    | some h =>
      cases hr : os.restore slot with
      | ok =>
        simp only [ho, hr]
        exact .removed ho
      | error e =>
        simp only [ho, hr]
        exact .kept ho

theorem step_dispatch (signum code : Int) (address : UInt64) (frame : Frame) :
    Step b [] (b.dispatch signum code address frame).events
      (b.dispatch signum code address frame).bridge := by
  unfold dispatch
  cases hs : abstractFault signum code with
  | error e => exact .same
  | ok found =>
    obtain ⟨slot, reason⟩ := found
    cases ho : b.slots slot with
    | none =>
      simp only [ho]
      exact .same
    | some h =>
      simp only [ho]
      exact .called ho

theorem step_of_act {a : BridgeAction η} (ha : b.act a = some (fs, b')) :
    Step b a.given fs b' := by
  cases a with
  | register os signal handler =>
    cases ha
    exact step_register os signal handler
  | unregister os signal =>
    cases ha
    exact step_unregister os signal
  | dispatch signum code address frame =>
    cases ha
    exact step_dispatch signum code address frame
  | edit f =>
    cases ha
    unfold edit
    split
    · exact .same
    · next i outer hc => exact .quiet (by simp [hc])
  | finish =>
    obtain ⟨t, ht, he⟩ := Option.map_eq_some_iff.mp ha
    cases he
    unfold finish at ht
    split at ht
    · cases ht
    · next i outer hc =>
      split at ht <;> cases ht <;> exact .finished hc

theorem History.preserves {I : List η → List (BridgeEvent η) → Bridge η → Prop}
    (hmade : I [] [] .empty)
    (hstep : ∀ {given es b gs fs b'}, I given es b → Step b gs fs b' →
      I (given ++ gs) (es ++ fs) b')
    (hr : History given es b) : I given es b := by
  induction hr with
  | made => exact hmade
  | next _ ha ih => exact hstep ih (step_of_act ha)

section Retire

variable (b : Bridge η) (hs : List η)

@[simp] theorem retire_slots : (b.retire hs).2.slots = b.slots := by
  unfold retire
  split <;> rfl

@[simp] theorem retire_active : (b.retire hs).2.active = b.active := by
  unfold retire
  split <;> rfl

@[simp] theorem retire_calls : (b.retire hs).2.calls = b.calls := by
  unfold retire
  split <;> rfl

theorem retire_append : (b.retire hs).1 ++ (b.retire hs).2.retired = b.retired ++ hs := by
  unfold retire
  split <;> simp

theorem retire_freed (ha : b.active ≠ 0) : (b.retire hs).1 = [] := by
  simp [retire, ha]

theorem retire_retired (ha : b.active = 0) : (b.retire hs).2.retired = [] := by
  simp [retire, ha]

@[simp] theorem store_retired (slot : FaultSlot) (h : Option η) :
    (b.store slot h).retired = b.retired := rfl

end Retire

structure Told (v : BridgeView η) (b : Bridge η) : Prop where
  slots : v.slots = b.slots
  running : v.running = b.calls.map Invocation.handler

theorem Told.store {v : BridgeView η} (ht : Told v b) (slot : FaultSlot) (h : Option η) :
    Told (v.store slot h) (b.store slot h) :=
  ⟨by simp only [BridgeView.store, Bridge.store, ht.slots], ht.running⟩

theorem Told.route {v : BridgeView η} (ht : Told v b) (slot : FaultSlot) (routed : Bool) :
    Told (v.route slot routed) b :=
  ⟨ht.slots, ht.running⟩

theorem Told.retire {v : BridgeView η} (ht : Told v b) (hs : List η) : Told v (b.retire hs).2 :=
  ⟨ht.slots.trans (retire_slots b hs).symm,
    ht.running.trans (congrArg _ (retire_calls b hs).symm)⟩

theorem Told.step {v : BridgeView η} (ht : Told v b) (hs : Step b gs fs b') :
    Told (v.afterAll fs) b' := by
  cases hs with
  | quiet hc => exact ⟨ht.slots, ht.running.trans hc.symm⟩
  | stray | kept => exact ht
  | swapped =>
    simp only [BridgeView.afterAll_cons, BridgeView.afterAll_free]
    exact (ht.store _ _).retire _
  | routed =>
    simp only [BridgeView.afterAll_cons, BridgeView.afterAll_free]
    exact ((ht.store _ _).route _ _).retire _
  | @refused slot h e ho =>
    simp only [BridgeView.afterAll_cons, BridgeView.afterAll_free]
    have hp : Told ((v.store slot (some h)).store slot none) b := by
      have hp := (ht.store slot (some h)).store slot none
      rwa [store_undone ho] at hp
    exact hp.retire _
  | removed =>
    simp only [BridgeView.afterAll_cons, BridgeView.afterAll_free]
    exact ((ht.route _ _).store _ none).retire _
  | called => exact ⟨ht.slots, congrArg (_ :: ·) ht.running⟩
  | finished hc =>
    have hr : v.running.tail = _ := congrArg List.tail (ht.running.trans (by rw [hc]))
    exact ⟨ht.slots, hr⟩

theorem History.told (hr : History given es b) : Told (BridgeView.initial.afterAll es) b := by
  refine hr.preserves (I := fun _ es b => Told (BridgeView.initial.afterAll es) b) ⟨rfl, rfl⟩ ?_
  intro given es b gs fs b' ht hs
  rw [BridgeView.afterAll_append]
  exact ht.step hs

def play (b : Bridge η) : List (BridgeAction η) → Option (List (BridgeEvent η) × Bridge η)
  | [] => some ([], b)
  | a :: rest =>
    match b.act a with
    | none => none
    | some (fs, c) => (c.play rest).map fun (es, d) => (fs ++ es, d)

theorem History.of_play {l : List (BridgeAction η)} (hr : History given es b)
    (hp : b.play l = some (fs, b')) :
    History (given ++ l.flatMap BridgeAction.given) (es ++ fs) b' := by
  induction l generalizing given es b fs with
  | nil =>
    cases hp
    simpa using hr
  | cons a rest ih =>
    simp only [play] at hp
    split at hp
    · cases hp
    · next gs c hc =>
      obtain ⟨⟨hs, d⟩, hd, he⟩ := Option.map_eq_some_iff.mp hp
      cases he
      have hnext := ih (hr.next hc) hd
      rw [List.append_assoc, List.append_assoc] at hnext
      exact hnext

end Bridge

def Installer.willing : Installer := ⟨fun _ => .ok (), fun _ => .ok ()⟩

def Installer.unwilling : Installer :=
  ⟨fun _ => .error .unsupported, fun _ => .error .unsupported⟩

/-- A handler replaces itself, the new one runs inside it and unregisters itself, and after both
have returned another one is refused. -/
def BridgeAction.nested : List (BridgeAction Nat) :=
  let fault := .dispatch 4 1 0 (.ofWords [] .x64)
  [.register .willing 4 (some 0), fault, .register .willing 4 (some 1), fault,
    .unregister .willing 4, .finish, .finish, .register .unwilling 11 (some 2)]

theorem Bridge.History.sample : ∃ es b, History [0, 1, 2] es b ∧ b.calls = [] ∧
    freed es = [0, 1, 2] := by
  have hp : ∃ es b, (.empty : Bridge Nat).play BridgeAction.nested = some (es, b) ∧
      b.calls = [] ∧ freed es = [0, 1, 2] := ⟨_, _, rfl, rfl, rfl⟩
  obtain ⟨es, b, hp, hc, hf⟩ := hp
  exact ⟨es, b, History.made.of_play hp, hc, hf⟩

end FirmwareHost
