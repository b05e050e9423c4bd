import FirmwareHost.Efi.Status

/-! The ways an operation can fail, each with its status word, and the outcomes built on them. -/

namespace FirmwareHost

inductive Failure where
  | invalidParameter
  | unsupported
  | badBufferSize
  | notReady
  | deviceError
  | outOfResources
  | notFound
  | timeout
  | alreadyStarted
  | aborted
  /-- Any other word a peer reported, carried as it came. -/
  | other (status : Status)
  deriving DecidableEq, Repr, Inhabited

abbrev Outcome (α : Type) := Except Failure α

namespace Failure

def classes : List Failure :=
  [.invalidParameter, .unsupported, .badBufferSize, .notReady, .deviceError, .outOfResources,
    .notFound, .timeout, .alreadyStarted, .aborted]

def status : Failure → Status
  | .invalidParameter => .invalidParameter
  | .unsupported => .unsupported
  | .badBufferSize => .badBufferSize
  | .notReady => .notReady
  | .deviceError => .deviceError
  | .outOfResources => .outOfResources
  | .notFound => .notFound
  | .timeout => .timeout
  | .alreadyStarted => .alreadyStarted
  | .aborted => .aborted
  | .other status => status

/-- The class a word belongs to. It is not asked whether the word has the error bit. -/
def ofStatus (s : Status) : Failure :=
  (classes.find? fun f => f.status = s).getD (.other s)

def message : Failure → String
  | .invalidParameter => "invalid parameter"
  | .unsupported => "unsupported"
  | .badBufferSize => "bad buffer size"
  | .notReady => "not ready"
  | .deviceError => "device error"
  | .outOfResources => "out of resources"
  | .notFound => "not found"
  | .timeout => "timeout"
  | .alreadyStarted => "already started"
  | .aborted => "aborted"
  | .other status => status.text

end Failure

def Status.toOutcome (s : Status) : Outcome Unit :=
  if s.isError then .error (.ofStatus s) else .ok ()

/-- Only instance 0 of anything this host provides exists. -/
def requireFirstInstance (instanceNumber : UInt64) : Outcome Unit :=
  if instanceNumber = 0 then .ok () else .error .notFound

end FirmwareHost
