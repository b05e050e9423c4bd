import FirmwareHost.Efi.GuidText
import FirmwareHost.Protocol.Producer

/-! The service that bus callers see. A call is either answered at once or made into a request, and
the outcome of that request's round trip is made into the reply. Failures are replies with a wire
status and empty fields. -/

namespace FirmwareHost

def apiVersion : String := "0.1"

inductive Call where
  | installPackage (package : Bytes)
  | enumerateHandlers
  | invokeHandler (guid : String) (parameters : Bytes)
  | uninstallModule (guid : String)
  | getHandlerDebugInfo (guid : String)
  deriving DecidableEq, Repr

structure InvokeReply where
  parameters : Bytes
  handlerStatus : UInt32
  status : UInt32
  deriving DecidableEq, Repr

structure DebugInfoReply where
  acpi : Bytes
  name : String
  status : UInt32
  deriving DecidableEq, Repr

structure HandlersReply where
  status : UInt32
  handlers : List (String × String)
  deriving DecidableEq, Repr

inductive Reply where
  | status (wire : UInt32)
  | handlers (r : HandlersReply)
  | invoke (r : InvokeReply)
  | debugInfo (r : DebugInfoReply)
  deriving DecidableEq, Repr

def Failure.wire (f : Failure) : UInt32 := f.status.toWire

namespace Call

def fail (f : Failure) : Call → Reply
  | .installPackage _ | .uninstallModule _ => .status f.wire
  | .enumerateHandlers => .handlers ⟨f.wire, []⟩
  | .invokeHandler .. => .invoke ⟨[], 0, f.wire⟩
  | .getHandlerDebugInfo _ => .debugInfo ⟨[], "", f.wire⟩

def parseGuid (text : String) : Outcome Guid :=
  match Guid.parse text with
  | .ok guid => .ok guid
  | .error _ => .error .invalidParameter

/-- The request of a call, or why none is made. -/
def request : Call → Outcome Request
  | .installPackage package =>
    if package.isEmpty then .error .invalidParameter else .ok (.installPackage package)
  | .enumerateHandlers => .error .unsupported
  | .invokeHandler guid parameters => do
    let guid ← parseGuid guid
    if parameters.isEmpty then .error .invalidParameter else return .invokeHandler guid parameters
  | .uninstallModule _ => .error .unsupported
  | .getHandlerDebugInfo guid => do return .getHandlerDebugInfo (← parseGuid guid)

theorem request_installPackage (package : Bytes) : (installPackage package).request =
    if package = [] then .error .invalidParameter else .ok (.installPackage package) := by
  simp only [request, List.isEmpty_iff]

theorem request_invokeHandler (text : String) (parameters : Bytes) :
    (invokeHandler text parameters).request =
      match Guid.parse text with
      | .error _ => .error .invalidParameter
      | .ok guid =>
        if parameters = [] then .error .invalidParameter
        else .ok (.invokeHandler guid parameters) := by
  simp only [request, parseGuid, List.isEmpty_iff]
  cases Guid.parse text <;> rfl

theorem request_getHandlerDebugInfo (text : String) : (getHandlerDebugInfo text).request =
    match Guid.parse text with
    | .error _ => .error .invalidParameter
    | .ok guid => .ok (.getHandlerDebugInfo guid) := by
  simp only [request, parseGuid]
  cases Guid.parse text <;> rfl

/-- The reply that the outcome of the round trip makes. An invocation's payload is returned
whatever status stands beside it. -/
def reply (c : Call) (r : Outcome Exchanged) : Reply :=
  match c with
  | .invokeHandler .. =>
    match r with
    | .ok (status, .invoke handlerStatus parameters) =>
      .invoke ⟨parameters, handlerStatus.toWire, status.toWire⟩
    | .ok (status, _) =>
      c.fail (if status.isError then .ofStatus status else .deviceError)
    | .error e => c.fail e
  | .getHandlerDebugInfo _ =>
    match roundTrip r with
    | .ok (.debugInfo info) => .debugInfo ⟨info.acpi, info.name, Status.success.toWire⟩
    | .ok _ => c.fail .deviceError
    | .error e => c.fail e
  | _ =>
    match roundTrip r with
    | .ok _ => .status Status.success.toWire
    | .error e => c.fail e

end Call

end FirmwareHost
