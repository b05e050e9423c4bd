import FirmwareHost.Process

/-! Scripted handlers. A handler carries a label and the acts it plays when it is called: edits of
its snapshot, and steps on its own bridge, which may call handlers again. -/

namespace FirmwareHost.Scenario

mutual

/-- A step that an owner, or a running handler, takes on a bridge. -/
inductive BridgeStep (ι : Type) where
  | register (signal : UInt64) (handler : Option (Handler ι))
  | unregister (signal : UInt64)
  | registered (signal : UInt64)
  | attached
  | dispatch (signum code : Int) (address : UInt64) (frame : Frame)
  /-- Sets the failures that the installer answers with from now on. -/
  | installer (install restore : Option Failure)
  | openInstance (n : UInt64)
  | drop

inductive Act (ι : Type) where
  | edit (e : Edit)
  | step (s : BridgeStep ι)

inductive Handler (ι : Type) where
  | mk (label : ι) (acts : List (Act ι))

end

instance {ι : Type} : Inhabited (BridgeStep ι) := ⟨.drop⟩

instance {ι : Type} : Inhabited (Act ι) := ⟨.step .drop⟩

instance {ι : Type} [Inhabited ι] : Inhabited (Handler ι) := ⟨.mk default []⟩

def Handler.label {ι : Type} : Handler ι → ι
  | .mk label _ => label

def Handler.acts {ι : Type} : Handler ι → List (Act ι)
  | .mk _ acts => acts

inductive Refusal where
  | noBridge
  /-- Three handlers are running already. -/
  | depth
  | defaultDisposition
  deriving DecidableEq, Repr

inductive StepResult where
  | outcome (r : Outcome Unit)
  | truth (value : Bool)
  | dispatched (handled : Bool) (frame : Frame)
  | nothing
  | opened (r : Outcome Bool)
  | dropped (value : Bool)
  | refused (reason : Refusal)

inductive Note (ι : Type) where
  | event (e : BridgeEvent (Handler ι))
  | act (step : BridgeStep ι) (result : StepResult)

/-- A process under a script, and what has been noted since the last step. -/
structure Stage (ι : Type) where
  process : Process (Handler ι)
  installFailure : Option Failure
  restoreFailure : Option Failure
  notes : List (Note ι)

namespace Stage

variable {ι : Type}

def initial : Stage ι := ⟨.initial, none, none, []⟩

/-- A process that holds one bridge, and the number of that bridge. -/
def withBridge : Nat × Stage ι :=
  let (id, process) := Process.initial.mount
  (id, { initial with process })

def answerOf : Option Failure → Outcome Unit
  | some e => .error e
  | none => .ok ()

def installer (s : Stage ι) : Installer :=
  ⟨fun _ => answerOf s.installFailure, fun _ => answerOf s.restoreFailure⟩

def advance (s : Stage ι) (events : List (BridgeEvent (Handler ι)))
    (process : Process (Handler ι)) : Stage ι :=
  { s with process, notes := s.notes ++ events.map .event }

def isOwned (s : Stage ι) (id : Nat) : Bool :=
  match s.process.bridges[id]? with
  | some m => m.owned
  | none => false

/-- How a step dispatches a fault on a bridge. -/
abbrev Dispatch (ι : Type) :=
  Nat → Int → Int → UInt64 → Frame → Stage ι → StepResult × Stage ι

/-- One step on a bridge. Steps that need the bridge are refused once its owner dropped it. -/
def perform (dispatch : Dispatch ι) (id : Nat) (step : BridgeStep ι) (s : Stage ι) :
    StepResult × Stage ι :=
  match step with
  | .installer install restore =>
    (.nothing, { s with installFailure := install, restoreFailure := restore })
  | .openInstance n => (.opened ((s.process.openInstance n).1.map fun _ => true), s)
  | .drop =>
    match s.process.drop s.installer id with
    | some (events, p) => (.dropped true, s.advance events p)
    | none => (.dropped false, s)
  | needsBridge =>
    match s.isOwned id, s.process.bridges[id]? with
    | true, some m =>
      match needsBridge with
      | .register signal handler =>
        match s.process.register s.installer id signal handler with
        | some (r, events, p) => (.outcome r, s.advance events p)
        | none => (.refused .noBridge, s)
      | .unregister signal =>
        match s.process.unregister s.installer id signal with
        | some (r, events, p) => (.outcome r, s.advance events p)
        | none => (.refused .noBridge, s)
      | .registered signal => (.truth (m.bridge.isRegistered signal), s)
      | .attached => (.truth m.isHost, s)
      | .dispatch signum code address frame => dispatch id signum code address frame s
      | _ => (.nothing, s)
    | _, _ => (.refused .noBridge, s)

def play (dispatch : Dispatch ι) (id : Nat) (s : Stage ι) : Act ι → Stage ι
  | .edit e => { s with process := s.process.edit id e.apply }
  | .step step =>
    let (result, s) := perform dispatch id step s
    { s with notes := s.notes ++ [.act step result] }

/-- Dispatches a fault with room for `depth` handlers, one inside another. -/
def dispatchWithin : Nat → Dispatch ι
  | 0, _, _, _, _, _, s => (.refused .depth, s)
  | depth + 1, id, signum, code, address, frame, s =>
    match s.process.dispatch id signum code address frame with
    | none => (.refused .noBridge, s)
    | some (none, events, p) => (.dispatched false frame, s.advance events p)
    | some (some i, events, p) =>
      let s := i.handler.acts.foldl (play (dispatchWithin depth) id) (s.advance events p)
      match s.process.finish s.installer id with
      | none => (.refused .noBridge, s)
      | some ((handled, frame), events, p) => (.dispatched handled frame, s.advance events p)

def maxDepth : Nat := 3

def step (id : Nat) (st : BridgeStep ι) (s : Stage ι) : StepResult × Stage ι :=
  perform (dispatchWithin maxDepth) id st s

def clearNotes (s : Stage ι) : Stage ι := { s with notes := [] }

end Stage

end FirmwareHost.Scenario
