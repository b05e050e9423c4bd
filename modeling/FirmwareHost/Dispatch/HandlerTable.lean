import FirmwareHost.Dispatch.Dispatcher

/-! A dispatcher that keeps its handlers in a finite map from GUIDs. A handler body and a package
installer each have a state of their own, of types `β` and `ι`. -/

namespace FirmwareHost

structure PrmHandler (β : Type) where
  guid : Guid
  name : String
  acpi : Bytes
  body : β

/-- The code behind a table. A body that panics has no result. -/
structure HandlerCode (β ι : Type) where
  run : (parameters : Bytes) → β → Option (Status × Buffer parameters.length) × β
  install : Option (Bytes → ι → Outcome (List (PrmHandler β)) × ι)

structure HandlerTable (β ι : Type) where
  /-- At most one handler a GUID. -/
  handlers : List (PrmHandler β)
  installer : ι

namespace HandlerTable

variable {β ι : Type}

def find? (t : HandlerTable β ι) (guid : Guid) : Option (PrmHandler β) :=
  t.handlers.find? fun h => h.guid = guid

def contains (t : HandlerTable β ι) (guid : Guid) : Bool := (t.find? guid).isSome

def size (t : HandlerTable β ι) : Nat := t.handlers.length

def isEmpty (t : HandlerTable β ι) : Bool := t.handlers.isEmpty

/-- Stores a handler in the place of the one with its GUID, or last. -/
def insert (t : HandlerTable β ι) (h : PrmHandler β) : HandlerTable β ι :=
  if t.contains h.guid then
    { t with handlers := t.handlers.map fun old => if old.guid = h.guid then h else old }
  else { t with handlers := t.handlers ++ [h] }

def erase (t : HandlerTable β ι) (guid : Guid) : HandlerTable β ι :=
  { t with handlers := t.handlers.filter fun h => h.guid ≠ guid }

def installPackage (code : HandlerCode β ι) (package : Bytes) (t : HandlerTable β ι) :
    Outcome Unit × HandlerTable β ι :=
  if package.isEmpty then (.error .invalidParameter, t)
  else
    match code.install with
    | none => (.error .unsupported, t)
    | some install =>
      match install package t.installer with
      | (.error e, installer) => (.error e, { t with installer })
      | (.ok handlers, installer) => (.ok (), handlers.foldl insert { t with installer })

def invoke (code : HandlerCode β ι) (guid : Guid) (parameters : Bytes) (t : HandlerTable β ι) :
    Ended (Status × Buffer parameters.length) × HandlerTable β ι :=
  match t.find? guid with
  | none => (.returned (.error .notFound), t)
  | some h =>
    let (result, body) := code.run parameters h.body
    let t := t.insert { h with body }
    match result with
    | some edited => (.returned (.ok edited), t)
    | none => (.panicked, t)

def debugInfo (guid : Guid) (t : HandlerTable β ι) : Outcome DebugInfo :=
  match t.find? guid with
  | none => .error .notFound
  | some h => .ok ⟨h.acpi, h.name⟩

def dispatcher (code : HandlerCode β ι) : Dispatcher (HandlerTable β ι) where
  installPackage package t :=
    let (r, t) := t.installPackage code package
    (.returned r, t)
  enumerateHandlers := Dispatcher.unimplemented
  invokeHandler guid parameters t := t.invoke code guid parameters
  uninstallModule _ := Dispatcher.unimplemented
  debugInfo guid t := (.returned (t.debugInfo guid), t)

end HandlerTable

end FirmwareHost
