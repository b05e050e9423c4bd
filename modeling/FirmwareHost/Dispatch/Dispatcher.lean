import FirmwareHost.Message.Response

/-! Dispatchers: what answers requests on the firmware side. Each method changes the dispatcher's
own state and returns a value or a failure, or panics. -/

namespace FirmwareHost

inductive Ended (α : Type) where
  | returned (result : Outcome α)
  | panicked

/-- A buffer edited in place keeps its length. -/
abbrev Buffer (length : Nat) := { bytes : Bytes // bytes.length = length }

structure Dispatcher (σ : Type) where
  installPackage : Bytes → σ → Ended Unit × σ
  enumerateHandlers : σ → Ended Unit × σ
  /-- Runs a handler over the parameters and returns its status with the edited parameters. -/
  invokeHandler : Guid → (parameters : Bytes) → σ → Ended (Status × Buffer parameters.length) × σ
  uninstallModule : Guid → σ → Ended Unit × σ
  debugInfo : Guid → σ → Ended DebugInfo × σ

namespace Ended

def map {α β : Type} (f : α → β) : Ended α → Ended β
  | .returned result => .returned (result.map f)
  | .panicked => .panicked

end Ended

namespace Dispatcher

variable {σ : Type}

/-- The method for requests that a dispatcher does not implement. -/
def unimplemented (s : σ) : Ended Unit × σ := (.returned (.error .unsupported), s)

/-- Hands a request to its method and shapes the result as the response. -/
def handle (d : Dispatcher σ) (r : Request) (s : σ) : Ended Response × σ :=
  match r with
  | .installPackage package =>
    let (e, s) := d.installPackage package s
    (e.map fun _ => .empty, s)
  | .enumerateHandlers =>
    let (e, s) := d.enumerateHandlers s
    (e.map fun _ => .empty, s)
  | .invokeHandler guid parameters =>
    let (e, s) := d.invokeHandler guid parameters s
    (e.map fun (status, buffer) => .invoke status buffer.val, s)
  | .uninstallModule guid =>
    let (e, s) := d.uninstallModule guid s
    (e.map fun _ => .empty, s)
  | .getHandlerDebugInfo guid =>
    let (e, s) := d.debugInfo guid s
    (e.map .debugInfo, s)

/-- Answers the request in a region: the region to hand back, unless the dispatcher panicked. The
status is that of the first step that failed, if any did. -/
def answer (d : Dispatcher σ) (m : Region) (s : σ) : Option Region × σ :=
  match Request.decode m with
  | .error e => (some (m.setStatus e.status).markAnswered, s)
  | .ok r =>
    match d.handle r s with
    | (.panicked, s) => (none, s)
    | (.returned (.error e), s) => (some (m.setStatus e.status).markAnswered, s)
    | (.returned (.ok response), s) =>
      match response.encode m with
      | (.error e, m) => (some (m.setStatus e.status).markAnswered, s)
      | (.ok (), m) => (some (m.setStatus .success).markAnswered, s)

end Dispatcher

end FirmwareHost
