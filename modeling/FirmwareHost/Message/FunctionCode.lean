import FirmwareHost.Efi.Failure

/-! The function codes of the dispatch mailbox. -/

namespace FirmwareHost

inductive FunctionCode where
  | installPackage
  | enumerateHandlers
  | invokeHandler
  | uninstallModule
  | getHandlerDebugInfo
  deriving DecidableEq, Repr

namespace FunctionCode

def all : List FunctionCode :=
  [.installPackage, .enumerateHandlers, .invokeHandler, .uninstallModule, .getHandlerDebugInfo]

def code : FunctionCode → UInt64
  | .installPackage => 1
  | .enumerateHandlers => 2
  | .invokeHandler => 3
  | .uninstallModule => 4
  | .getHandlerDebugInfo => 5

def ofCode (word : UInt64) : Outcome FunctionCode :=
  match all.find? fun f => f.code = word with
  | some f => .ok f
  | none => .error .invalidParameter

end FunctionCode

end FirmwareHost
