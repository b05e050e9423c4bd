import FirmwareHost.Scenario.Handler

/-! Scripts that run against the dispositions of a process: host bridges, raised signals, shutdown
flags and the hook, each known by a name. -/

namespace FirmwareHost.Scenario

inductive HostStep (ι : Type) where
  | openInstance (name : String) (n : UInt64)
  | host (name : String)
  | raise (signum code : Int) (address : UInt64)
  | disposition (signum : Int)
  | install (signum : Int)
  | restore (signum : Int)
  | newFlag (name : String)
  | cloneFlag (name source : String)
  | setFlag (name : String) (value : Bool)
  | hook (name flag : String)
  | unhook (name : String)
  | bridge (name : String) (step : BridgeStep ι)

inductive HostResult where
  | attached (r : Outcome Bool)
  /-- The value with which the raising system call returned. -/
  | returned (value : Int)
  /-- The disposition of a signal; a number that is no signal has none. -/
  | disposition (d : Option Disposition)
  | outcome (r : Outcome Unit)
  | nothing
  | unhooked (value : Bool)
  | bridge (r : StepResult)
  | refused (reason : Refusal)

structure HostStage (ι : Type) where
  stage : Stage ι
  /-- Bridges by name, the latest of a name first. -/
  bridges : List (String × Nat)
  flags : List (String × Nat)
  /-- The live hook with its flag. -/
  hook : Option (String × Nat)

namespace HostStage

variable {ι : Type}

def initial : HostStage ι := ⟨.initial, [], [], none⟩

/-- What a program sees of the return register after a system call: small negative values are
error numbers and become -1. -/
def callResult (register : UInt64) : Int :=
  let value := register.toInt64.toInt
  if -4096 < value ∧ value < 0 then -1 else value

def returnRegister : Frame → UInt64
  | .arm f => f.r0.toUInt64
  | .ia32 f => f.eax.toUInt64
  | .x64 f => f.rax

/-- The frame of a thread inside a system call that returns 0. -/
def callFrame : Frame := .ofWords [] .x64

def keep (s : HostStage ι) (name : String) (r : Outcome Nat × Process (Handler ι)) :
    HostResult × HostStage ι :=
  match r with
  | (.ok id, p) =>
    (.attached (.ok true),
      { s with stage := { s.stage with process := p }, bridges := (name, id) :: s.bridges })
  | (.error e, _) => (.attached (.error e), s)

/-- The trampoline: the handler called, if any, plays its acts, and the thread resumes. -/
def deliver (signum code : Int) (address : UInt64) (s : Stage ι) : HostResult × Stage ι :=
  match s.process.deliver signum code address callFrame with
  | (none, events, p) => (.returned 0, s.advance events p)
  | (some (id, i), events, p) =>
    let s := i.handler.acts.foldl (Stage.play (Stage.dispatchWithin (Stage.maxDepth - 1)) id)
      (s.advance events p)
    match s.process.resume id with
    | none => (.returned 0, s)
    | some ((_, frame), events, p) =>
      (.returned (callResult (returnRegister frame)), s.advance events p)

def raise (signum code : Int) (address : UInt64) (s : Stage ι) : HostResult × Stage ι :=
  match s.process.dispositions signum with
  | .default => (.refused .defaultDisposition, s)
  | .shutdown => (.returned 0, { s with process := s.process.raiseHooked })
  | .faults => deliver signum code address s

def withProcess (s : HostStage ι) (p : Process (Handler ι)) : HostStage ι :=
  { s with stage := { s.stage with process := p } }

/-- Gives a copy of a flag a name. What had the name before is dropped. -/
def bindFlag (s : HostStage ι) (name : String) (flag : Nat) (p : Process (Handler ι)) :
    HostStage ι :=
  let p := match s.flags.lookup name with
    | some old => p.releaseFlag old
    | none => p
  { s.withProcess p with flags := (name, flag) :: s.flags }

def step (s : HostStage ι) : HostStep ι → HostResult × HostStage ι
  | .openInstance name n => s.keep name (s.stage.process.openInstance n)
  | .host name => s.keep name s.stage.process.host
  | .raise signum code address =>
    let (r, stage) := raise signum code address s.stage
    (r, { s with stage })
  | .disposition signum =>
    let valid := SignalNumber.isValid signum
    (.disposition (if valid then some (s.stage.process.dispositions signum) else none), s)
  | .install signum =>
    let (r, p) := s.stage.process.installSignal signum
    (.outcome r, s.withProcess p)
  | .restore signum =>
    let (r, p) := s.stage.process.restoreSignal signum
    (.outcome r, s.withProcess p)
  | .newFlag name =>
    let (flag, p) := s.stage.process.newFlag
    (.nothing, s.bindFlag name flag p)
  | .cloneFlag name source =>
    match s.flags.lookup source with
    | some flag => (.nothing, s.bindFlag name flag (s.stage.process.shareFlag flag))
    | none => (.nothing, s)
  | .setFlag name value =>
    match s.flags.lookup name with
    | some flag => (.nothing, s.withProcess (s.stage.process.setFlag flag value))
    | none => (.nothing, s)
  | .hook name flag =>
    match s.flags.lookup flag with
    | none => (.nothing, s)
    | some flag =>
      match s.stage.process.hook flag with
      | (.ok (), p) => (.outcome (.ok ()), { s.withProcess p with hook := some (name, flag) })
      | (.error e, _) => (.outcome (.error e), s)
  | .unhook name =>
    match s.hook with
    | none => (.unhooked false, s)
    | some (live, flag) =>
      if live = name then
        (.unhooked true, { s.withProcess (s.stage.process.unhook flag) with hook := none })
      else (.unhooked false, s)
  | .bridge name st =>
    match s.bridges.lookup name with
    | some id =>
      let (r, stage) := s.stage.step id st
      (.bridge r, { s with stage })
    | none => (.bridge (.refused .noBridge), s)

/-- Which fault signals have a handler, or nothing once the bridge was dropped. -/
def slotsOf (s : Stage ι) (id : Nat) : Option (List Bool) :=
  match s.process.bridges[id]? with
  | some m =>
    if m.owned then some (FaultSlot.all.map fun slot => m.bridge.isRegistered slot.signal.raw)
    else none
  | none => none

end HostStage

end FirmwareHost.Scenario
