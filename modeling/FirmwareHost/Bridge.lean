import FirmwareHost.Machine.Snapshot
import FirmwareHost.Signal

/-! The bridge that owns one handler slot per fault signal. Every operation answers, reports what
it did as a list of events, and returns the bridge after it. A replaced handler is retired, and
retired handlers are freed by the next registration change that finds no call in progress. -/

namespace FirmwareHost

/-- How the operating system answers the calls that one operation makes. -/
structure Installer where
  install : FaultSlot → Outcome Unit
  restore : FaultSlot → Outcome Unit

structure FaultInfo where
  code : UInt64
  address : UInt64
  context : Snapshot

/-- A handler call in progress: the handler, what it was given, and the interrupted frame. -/
structure Invocation (η : Type) where
  handler : η
  slot : FaultSlot
  info : FaultInfo
  frame : Frame

inductive BridgeEvent (η : Type) where
  | publish (slot : FaultSlot) (handler : η)
  | withdraw (slot : FaultSlot)
  | install (slot : FaultSlot) (answer : Outcome Unit)
  | restore (slot : FaultSlot) (answer : Outcome Unit)
  | free (handler : η)
  | call (invocation : Invocation η)
  | finish (invocation : Invocation η) (handled : Bool)

structure Bridge (η : Type) where
  slots : FaultSlot → Option η
  /-- Handlers out of their slots that a call in progress may still be running. -/
  retired : List η
  /-- Number of dispatches between their look at the slots and their return. -/
  active : Nat
  /-- Calls in progress, innermost first. -/
  calls : List (Invocation η)

/-- The answer of an operation, its events in order, and the bridge it leaves. -/
structure Turn (η α : Type) where
  answer : α
  events : List (BridgeEvent η)
  bridge : Bridge η

namespace Bridge

variable {η : Type}

def empty : Bridge η := ⟨fun _ => none, [], 0, []⟩

def store (b : Bridge η) (slot : FaultSlot) (handler : Option η) : Bridge η :=
  { b with slots := fun s => if s = slot then handler else b.slots s }

/-- Whether a handler is stored for an abstract signal; a number of no fault signal has none. -/
def isRegistered (b : Bridge η) (signal : UInt64) : Bool :=
  match faultSlot signal with
  | .ok slot => (b.slots slot).isSome
  | .error _ => false

/-- Adds handlers to the retired list, then frees the whole list if nothing is running. -/
def retire (b : Bridge η) (handlers : List η) : List η × Bridge η :=
  let waiting := b.retired ++ handlers
  if b.active = 0 then (waiting, { b with retired := [] }) else ([], { b with retired := waiting })

/-- Stores a handler. The operating system is asked to route the signal here only if the slot was
empty, and a refusal takes the handler out again. -/
def register (os : Installer) (signal : UInt64) (handler : Option η) (b : Bridge η) :
    Turn η (Outcome Unit) :=
  match handler with
  | none => ⟨.error .invalidParameter, [], b⟩
  | some h =>
    match faultSlot signal with
    | .error e => ⟨.error e, [.free h], b⟩
    | .ok slot =>
      let published := b.store slot (some h)
      match b.slots slot with
      | some previous =>
        let (freed, after) := published.retire [previous]
        ⟨.ok (), .publish slot h :: freed.map .free, after⟩
      | none =>
        match os.install slot with
        | .ok () =>
          let (freed, after) := published.retire []
          ⟨.ok (), .publish slot h :: .install slot (.ok ()) :: freed.map .free, after⟩
        | .error e =>
          let (freed, after) := (published.store slot none).retire [h]
          ⟨.error .deviceError,
            .publish slot h :: .install slot (.error e) :: .withdraw slot :: freed.map .free, after⟩

/-- Restores the default disposition and then empties the slot; a refusal keeps the handler. -/
def unregister (os : Installer) (signal : UInt64) (b : Bridge η) : Turn η (Outcome Unit) :=
  match faultSlot signal with
  | .error e => ⟨.error e, [], b⟩
  | .ok slot =>
    match b.slots slot with
    | none => ⟨.error .invalidParameter, [], b⟩
    | some h =>
      match os.restore slot with
      | .error e => ⟨.error .deviceError, [.restore slot (.error e)], b⟩
      | .ok () =>
        let (freed, after) := (b.store slot none).retire [h]
        ⟨.ok (), .restore slot (.ok ()) :: .withdraw slot :: freed.map .free, after⟩

/-- A native fault arrives. Answers the handler call that it starts, if any; the call stays in
progress until `finish`. -/
def dispatch (signum code : Int) (address : UInt64) (frame : Frame) (b : Bridge η) :
    Turn η (Option (Invocation η)) :=
  match abstractFault signum code with
  | .error _ => ⟨none, [], b⟩
  | .ok (slot, reason) =>
    match b.slots slot with
    | none => ⟨none, [], b⟩
    | some h =>
      let invocation := ⟨h, slot, ⟨reason, address, frame.capture⟩, frame⟩
      ⟨some invocation, [.call invocation],
        { b with active := b.active + 1, calls := invocation :: b.calls }⟩

def edit (f : Snapshot → Snapshot) (b : Bridge η) : Bridge η :=
  match b.calls with
  | [] => b
  | i :: outer =>
    { b with calls := { i with info := { i.info with context := f i.info.context } } :: outer }

/-- The innermost running handler returns. Answers whether its snapshot was committed and the frame
that the interrupted code resumes with. -/
def finish (b : Bridge η) : Option (Turn η (Bool × Frame)) :=
  match b.calls with
  | [] => none
  | i :: outer =>
    let after := { b with active := b.active - 1, calls := outer }
    match i.info.context.commit i.frame with
    | .ok frame => some ⟨(true, frame), [.finish i true], after⟩
    | .error _ => some ⟨(false, i.frame), [.finish i false], after⟩

def stored (b : Bridge η) : List η := FaultSlot.all.filterMap b.slots

/-- Every occupied slot gives its signal back; refusals are ignored. -/
def detach (os : Installer) (b : Bridge η) : List (BridgeEvent η) :=
  (FaultSlot.all.filter fun slot => (b.slots slot).isSome).map fun slot =>
    .restore slot (os.restore slot)

def vacate (b : Bridge η) (slot : FaultSlot) : List (BridgeEvent η) :=
  match b.slots slot with
  | none => []
  | some h => [.withdraw slot, .free h]

/-- Frees what the bridge still holds: stored handlers in slot order, then retired ones. -/
def destroy (b : Bridge η) : Turn η Unit :=
  ⟨(), FaultSlot.all.flatMap b.vacate ++ b.retired.map .free,
    { b with slots := fun _ => none, retired := [] }⟩

/-- The owner drops the bridge, which it can only do while no call is in progress. -/
def drop (os : Installer) (b : Bridge η) : Turn η Unit :=
  ⟨(), b.detach os ++ b.destroy.events, b.destroy.bridge⟩

@[simp] theorem store_slots_self (b : Bridge η) (slot : FaultSlot) (h : Option η) :
    (b.store slot h).slots slot = h := by
  simp [store]

theorem store_slots_ne (b : Bridge η) {slot other : FaultSlot} (h : Option η)
    (hne : other ≠ slot) : (b.store slot h).slots other = b.slots other := by
  simp [store, hne]

end Bridge

end FirmwareHost
