import FirmwareHost.Efi.Failure

/-! Fault signals: the abstract numbers and reason codes that handlers see, and the native numbers
of the host that stand for them. -/

namespace FirmwareHost

inductive Signal where
  | illegalInstruction
  | busError
  | segmentationViolation
  | terminate
  deriving DecidableEq, Repr

def Signal.all : List Signal :=
  [.illegalInstruction, .busError, .segmentationViolation, .terminate]

/-- The number of a signal in the callback interface, which no host changes. -/
def Signal.raw : Signal → UInt64
  | .illegalInstruction => 4
  | .busError => 7
  | .segmentationViolation => 11
  | .terminate => 15

def Signal.ofRaw? (raw : UInt64) : Option Signal :=
  Signal.all.find? fun s => s.raw = raw

/-- The three signals that have a handler slot, in table order. -/
inductive FaultSlot where
  | ill
  | bus
  | segv
  deriving DecidableEq, Repr

namespace FaultSlot

def all : List FaultSlot := [.ill, .bus, .segv]

def index : FaultSlot → Nat
  | .ill => 0
  | .bus => 1
  | .segv => 2

def signal : FaultSlot → Signal
  | .ill => .illegalInstruction
  | .bus => .busError
  | .segv => .segmentationViolation

def native : FaultSlot → Int
  | .ill => 4
  | .bus => 7
  | .segv => 11

/-- The one native reason code of a signal that has an abstract counterpart. -/
def nativeCode : FaultSlot → Int
  | .ill => 1
  | .bus => 1
  | .segv => 2

def abstractCode : FaultSlot → UInt64
  | .ill => 1
  | .bus => 1
  | .segv => 2

def ofSignal? (raw : UInt64) : Option FaultSlot :=
  all.find? fun slot => slot.signal.raw = raw

def ofNative? (signum : Int) : Option FaultSlot :=
  all.find? fun slot => slot.native = signum

/-- Reason codes without an abstract counterpart become 0. -/
def reason (slot : FaultSlot) (code : Int) : UInt64 :=
  if code = slot.nativeCode then slot.abstractCode else 0

end FaultSlot

/-- The slot of an abstract fault signal; no other number has one. -/
def faultSlot (raw : UInt64) : Outcome FaultSlot :=
  match FaultSlot.ofSignal? raw with
  | some slot => .ok slot
  | none => .error .invalidParameter

/-- The slot and abstract reason code of a native signal. -/
def abstractFault (signum code : Int) : Outcome (FaultSlot × UInt64) :=
  match FaultSlot.ofNative? signum with
  | some slot => .ok (slot, slot.reason code)
  | none => .error .invalidParameter

end FirmwareHost
