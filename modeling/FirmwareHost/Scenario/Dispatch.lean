import FirmwareHost.Dispatch.HandlerTable

/-! Scripted dispatchers: a handler table whose bodies play buffer operations, and a dispatcher
with one fixed answer a method. -/

namespace FirmwareHost.Scenario

inductive BufferOp where
  | xor (n : UInt8)
  | add (n : UInt8)
  | fill (n : UInt8)
  | reverse
  | sort
  /-- Adds the number of completed calls to the first byte. -/
  | count
  | panic
  deriving DecidableEq, Repr

structure Body where
  ops : List BufferOp
  status : Status
  completed : Nat

/-- Adds to the first byte of a buffer. -/
def addToFirst (n : UInt8) : Bytes → Bytes
  | [] => []
  | b :: rest => (b + n) :: rest

def sortBytes (bs : Bytes) : Bytes := bs.mergeSort fun b c => b ≤ c

theorem length_addToFirst (n : UInt8) (bs : Bytes) : (addToFirst n bs).length = bs.length := by
  cases bs <;> rfl

/-- One operation on a buffer; nothing if it panics. -/
def BufferOp.apply (completed : Nat) {length : Nat} (buffer : Buffer length) :
    BufferOp → Option (Buffer length)
  | .xor n => some ⟨buffer.val.map (· ^^^ n), by simp [buffer.property]⟩
  | .add n => some ⟨buffer.val.map (· + n), by simp [buffer.property]⟩
  | .fill n => some ⟨buffer.val.map fun _ => n, by simp [buffer.property]⟩
  | .reverse => some ⟨buffer.val.reverse, by simp [buffer.property]⟩
  | .sort => some ⟨sortBytes buffer.val, by simp [sortBytes, buffer.property]⟩
  | .count =>
    some ⟨addToFirst (.ofNat completed) buffer.val, by simp [length_addToFirst, buffer.property]⟩
  | .panic => none

def Body.run (parameters : Bytes) (b : Body) :
    Option (Status × Buffer parameters.length) × Body :=
  match b.ops.foldlM (fun buffer op => op.apply b.completed buffer) ⟨parameters, rfl⟩ with
  | some buffer => (some (b.status, buffer), { b with completed := b.completed + 1 })
  | none => (none, b)

/-- A package installer: a package that holds `rejected` fails, if there is a failure to fail with,
and any other gives one handler a byte. -/
structure PackageRule where
  rejected : Nat
  failure : Option Failure

def PackageRule.handlers (package : Bytes) : List (PrmHandler Body) :=
  package.map fun b =>
    ⟨⟨b.toUInt32, 0, 0, 0⟩, "H" ++ toString b.toNat, package, ⟨[.add b], .success, 0⟩⟩

def PackageRule.install (rule : PackageRule) (package : Bytes) : Outcome (List (PrmHandler Body)) :=
  match rule.failure with
  | some f =>
    if package.any (fun b => b.toNat = rule.rejected) then .error f else .ok (handlers package)
  | none => .ok (handlers package)

/-- A dispatcher that answers each method in one way. -/
structure FixedAnswers where
  install : Option Failure
  enumerate : Option Failure
  invoke : Option Failure
  uninstall : Option Failure
  debugInfo : Option Failure
  status : Status
  info : DebugInfo

inductive ScriptedDispatcher where
  | table (rule : Option PackageRule) (t : HandlerTable Body Unit)
  | fixed (answers : FixedAnswers)

namespace ScriptedDispatcher

def code (rule : Option PackageRule) : HandlerCode Body Unit where
  run parameters body := body.run parameters
  install := rule.map fun rule package installer => (rule.install package, installer)

def fixedAnswer {α : Type} (value : α) : Option Failure → Ended α
  | some e => .returned (.error e)
  | none => .returned (.ok value)

/-- A method of the table, with the table put back behind its rule. -/
def onTable {α : Type} (rule : Option PackageRule)
    (r : Ended α × HandlerTable Body Unit) : Ended α × ScriptedDispatcher :=
  (r.1, .table rule r.2)

def methods : Dispatcher ScriptedDispatcher where
  installPackage package
    | .table rule t => onTable rule ((HandlerTable.dispatcher (code rule)).installPackage package t)
    | .fixed a => (fixedAnswer () a.install, .fixed a)
  enumerateHandlers
    | .table rule t => onTable rule ((HandlerTable.dispatcher (code rule)).enumerateHandlers t)
    | .fixed a => (fixedAnswer () a.enumerate, .fixed a)
  invokeHandler guid parameters
    | .table rule t =>
      onTable rule ((HandlerTable.dispatcher (code rule)).invokeHandler guid parameters t)
    | .fixed a =>
      (fixedAnswer (a.status, ⟨parameters.reverse, List.length_reverse⟩) a.invoke, .fixed a)
  uninstallModule guid
    | .table rule t => onTable rule ((HandlerTable.dispatcher (code rule)).uninstallModule guid t)
    | .fixed a => (fixedAnswer () a.uninstall, .fixed a)
  debugInfo guid
    | .table rule t => onTable rule ((HandlerTable.dispatcher (code rule)).debugInfo guid t)
    | .fixed a => (fixedAnswer a.info a.debugInfo, .fixed a)

end ScriptedDispatcher

end FirmwareHost.Scenario
