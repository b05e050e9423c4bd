import FirmwareHost.Bridge

/-! One process: its signal dispositions, the bridges made in it, the bridge its faults go to, and
its shutdown flags. At most one bridge is attached at a time, and at most one hook is live. -/

namespace FirmwareHost

inductive Disposition where
  | default
  /-- Faults go to the attached bridge. -/
  | faults
  /-- The signal raises the hooked shutdown flag. -/
  | shutdown
  deriving DecidableEq, Repr

def Disposition.hasDetails : Disposition → Bool
  | .faults => true
  | _ => false

def Disposition.masksAlarm : Disposition → Bool
  | .faults => true
  | _ => false

namespace SignalNumber

def terminate : Int := 15

/-- Two numbers between the fault signals and the real-time ones are kept by the system library. -/
def reserved : List Int := [32, 33]

def isValid (signum : Int) : Bool :=
  decide (1 ≤ signum) && decide (signum ≤ 64) && !reserved.contains signum

/-- The kill and stop signals keep their default disposition. -/
def isCatchable (signum : Int) : Bool :=
  isValid signum && signum != 9 && signum != 19

/-- What the system answers to a change of disposition: error 22 for a number it refuses. -/
def change (signum : Int) : Outcome Unit :=
  if isCatchable signum then .ok () else .error .invalidParameter

end SignalNumber

/-- The installer whose calls reach the system itself. -/
def Installer.system : Installer :=
  ⟨fun slot => SignalNumber.change slot.native, fun slot => SignalNumber.change slot.native⟩

structure Mounted (η : Type) where
  bridge : Bridge η
  /-- Whether it was made to receive the faults of the process. -/
  isHost : Bool
  /-- Whether its owner has not dropped it. -/
  owned : Bool
  /-- Calls in progress that the owner made; the bridge outlives them. -/
  borrowed : Nat

/-- A shutdown flag in memory, which all its copies share. -/
structure FlagCell where
  raised : Bool
  /-- The copies and hooks that hold the flag. Without any it is freed. -/
  owners : Nat
  deriving DecidableEq, Repr

structure Process (η : Type) where
  dispositions : Int → Disposition
  bridges : List (Mounted η)
  /-- Position of the bridge that faults are dispatched to. -/
  attached : Option Nat
  /-- Delivered faults whose handling has not returned. -/
  trampolines : Nat
  flags : List FlagCell
  /-- Position of the flag that a termination signal raises. -/
  hooked : Option Nat

namespace Process

variable {η : Type}

def initial : Process η := ⟨fun _ => .default, [], none, 0, [], none⟩

def setDisposition (p : Process η) (signum : Int) (d : Disposition) : Process η :=
  { p with dispositions := fun n => if n = signum then d else p.dispositions n }

/-- The disposition that a call of the system leaves; refused calls change nothing. -/
def applyEvent (p : Process η) : BridgeEvent η → Process η
  | .install slot (.ok ()) => p.setDisposition slot.native .faults
  | .restore slot (.ok ()) => p.setDisposition slot.native .default
  | _ => p

def setMounted (p : Process η) (id : Nat) (m : Mounted η) : Process η :=
  { p with bridges := p.bridges.set id m }

def mount (p : Process η) : Nat × Process η :=
  (p.bridges.length, { p with bridges := p.bridges ++ [⟨.empty, false, true, 0⟩] })

/-- Adds the bridge that receives the faults of the process, unless there is one. -/
def host (p : Process η) : Outcome Nat × Process η :=
  match p.attached with
  | some _ => (.error .alreadyStarted, p)
  | none =>
    (.ok p.bridges.length,
      { p with
        bridges := p.bridges ++ [⟨.empty, true, true, 0⟩]
        attached := some p.bridges.length })

def openInstance (n : UInt64) (p : Process η) : Outcome Nat × Process η :=
  match requireFirstInstance n with
  | .error e => (.error e, p)
  | .ok () => p.host

/-- A host bridge asks the system, any other the installer it was given. -/
def installerFor (m : Mounted η) (given : Installer) : Installer :=
  if m.isHost then .system else given

/-- The effect of a bridge operation on the process. Only the calls of a host bridge reach the
system. -/
def commitTurn {α : Type} (p : Process η) (id : Nat) (m : Mounted η) (t : Turn η α) : Process η :=
  let p := p.setMounted id { m with bridge := t.bridge }
  if m.isHost then t.events.foldl applyEvent p else p

def register (given : Installer) (id : Nat) (signal : UInt64) (handler : Option η)
    (p : Process η) : Option (Outcome Unit × List (BridgeEvent η) × Process η) :=
  match p.bridges[id]? with
  | none => none
  | some m =>
    let t := m.bridge.register (installerFor m given) signal handler
    some (t.answer, t.events, p.commitTurn id m t)

def unregister (given : Installer) (id : Nat) (signal : UInt64) (p : Process η) :
    Option (Outcome Unit × List (BridgeEvent η) × Process η) :=
  match p.bridges[id]? with
  | none => none
  | some m =>
    let t := m.bridge.unregister (installerFor m given) signal
    some (t.answer, t.events, p.commitTurn id m t)

/-- Gives the signals back and frees the handlers. A host bridge whose faults are still being
handled stays in memory with all its handlers. -/
def close (given : Installer) (id : Nat) (p : Process η) : List (BridgeEvent η) × Process η :=
  match p.bridges[id]? with
  | none => ([], p)
  | some m =>
    let os := installerFor m given
    let dropped := m.bridge.drop os
    if m.isHost then
      let restores := m.bridge.detach os
      let p := restores.foldl applyEvent p
      let p := { p with attached := if p.attached = some id then none else p.attached }
      if p.trampolines = 0 then
        (dropped.events, p.setMounted id { m with bridge := dropped.bridge })
      else (restores, p)
    else (dropped.events, p.setMounted id { m with bridge := dropped.bridge })

/-- The owner drops its bridge. Calls that the owner made keep it open until they return. -/
def drop (given : Installer) (id : Nat) (p : Process η) :
    Option (List (BridgeEvent η) × Process η) :=
  match p.bridges[id]? with
  | none => none
  | some m =>
    if m.owned then
      let p := p.setMounted id { m with owned := false }
      if m.borrowed = 0 then some (p.close given id) else some ([], p)
    else none

/-- The owner dispatches a native fault. Answers the handler call that it starts, if any. -/
def dispatch (id : Nat) (signum code : Int) (address : UInt64) (frame : Frame) (p : Process η) :
    Option (Option (Invocation η) × List (BridgeEvent η) × Process η) :=
  match p.bridges[id]? with
  | none => none
  | some m =>
    let t := m.bridge.dispatch signum code address frame
    let borrowed := if t.answer.isSome then m.borrowed + 1 else m.borrowed
    some (t.answer, t.events, p.setMounted id { m with bridge := t.bridge, borrowed })

def edit (id : Nat) (f : Snapshot → Snapshot) (p : Process η) : Process η :=
  match p.bridges[id]? with
  | none => p
  | some m => p.setMounted id { m with bridge := m.bridge.edit f }

/-- A call that the owner made returns, which may close the bridge. -/
def finish (given : Installer) (id : Nat) (p : Process η) :
    Option ((Bool × Frame) × List (BridgeEvent η) × Process η) :=
  match p.bridges[id]? with
  | none => none
  | some m =>
    match m.bridge.finish with
    | none => none
    | some t =>
      let m := { m with bridge := t.bridge, borrowed := m.borrowed - 1 }
      let p := p.setMounted id m
      if m.borrowed = 0 ∧ ¬ m.owned then
        let (events, p) := p.close given id
        some (t.answer, t.events ++ events, p)
      else some (t.answer, t.events, p)

/-- A signal with the fault disposition arrives and is dispatched to the attached bridge. Answers
the bridge and the handler call that it starts, if any. -/
def deliver (signum code : Int) (address : UInt64) (frame : Frame) (p : Process η) :
    Option (Nat × Invocation η) × List (BridgeEvent η) × Process η :=
  match p.attached.bind fun id => (p.bridges[id]?).map fun m => (id, m) with
  | none => (none, [], p)
  | some (id, m) =>
    let t := m.bridge.dispatch signum code address frame
    let p := p.setMounted id { m with bridge := t.bridge }
    match t.answer with
    | some i => (some (id, i), t.events, { p with trampolines := p.trampolines + 1 })
    | none => (none, t.events, p)

/-- The handler of a delivered signal returns. -/
def resume (id : Nat) (p : Process η) :
    Option ((Bool × Frame) × List (BridgeEvent η) × Process η) :=
  match p.bridges[id]? with
  | none => none
  | some m =>
    match m.bridge.finish with
    | none => none
    | some t =>
      let p := p.setMounted id { m with bridge := t.bridge }
      some (t.answer, t.events, { p with trampolines := p.trampolines - 1 })

def newFlag (p : Process η) : Nat × Process η :=
  (p.flags.length, { p with flags := p.flags ++ [⟨false, 1⟩] })

def changeFlag (flag : Nat) (f : FlagCell → FlagCell) (p : Process η) : Process η :=
  { p with flags := p.flags.modify flag f }

/-- One owner more: a copy is made. -/
def shareFlag (flag : Nat) (p : Process η) : Process η :=
  p.changeFlag flag fun c => { c with owners := c.owners + 1 }

/-- One owner less: a copy is dropped. -/
def releaseFlag (flag : Nat) (p : Process η) : Process η :=
  p.changeFlag flag fun c => { c with owners := c.owners - 1 }

def setFlag (flag : Nat) (value : Bool) (p : Process η) : Process η :=
  p.changeFlag flag fun c => { c with raised := value }

def isRaised (flag : Nat) (p : Process η) : Bool := p.flags[flag]?.any (·.raised)

/-- A hook goes: the signal gets its default disposition back before the flag is let go of. -/
def unhook (flag : Nat) (p : Process η) : Process η :=
  let p := p.setDisposition SignalNumber.terminate .default
  let p := { p with hooked := if p.hooked = some flag then none else p.hooked }
  p.releaseFlag flag

/-- Routes the termination signal to a flag, unless a hook is live. The hook holds the flag as a
copy of its own. -/
def hook (flag : Nat) (p : Process η) : Outcome Unit × Process η :=
  let p := p.shareFlag flag
  match p.hooked with
  | some _ => (.error .alreadyStarted, p.releaseFlag flag)
  | none =>
    let p := { p with hooked := some flag }
    match SignalNumber.change SignalNumber.terminate with
    | .ok () => (.ok (), p.setDisposition SignalNumber.terminate .shutdown)
    | .error e => (.error e, p.unhook flag)

def raiseHooked (p : Process η) : Process η :=
  match p.hooked with
  | some flag => p.setFlag flag true
  | none => p

/-- Routes a signal to the attached bridge, as a host bridge does for its slots. -/
def installSignal (signum : Int) (p : Process η) : Outcome Unit × Process η :=
  match SignalNumber.change signum with
  | .ok () => (.ok (), p.setDisposition signum .faults)
  | .error e => (.error e, p)

def restoreSignal (signum : Int) (p : Process η) : Outcome Unit × Process η :=
  match SignalNumber.change signum with
  | .ok () => (.ok (), p.setDisposition signum .default)
  | .error e => (.error e, p)

end Process

end FirmwareHost
