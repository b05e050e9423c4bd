import FirmwareHost.Efi.Failure
import FirmwareHost.Machine.Arm
import FirmwareHost.Machine.Ia32
import FirmwareHost.Machine.X64

/-! Signal frames and snapshots of any supported architecture, and the edits a handler makes. -/

namespace FirmwareHost

inductive Arch where
  | arm
  | ia32
  | x64
  deriving DecidableEq, Repr

def Arch.host? : Option Arch := some .x64

inductive Frame where
  | arm (f : Arm.Frame)
  | ia32 (f : Ia32.Frame)
  | x64 (f : X64.Frame)
  deriving DecidableEq, Repr

inductive Snapshot where
  | arm (s : Arm.Snapshot)
  | ia32 (s : Ia32.Snapshot)
  | x64 (s : X64.Snapshot)
  deriving DecidableEq, Repr

namespace Frame

def arch : Frame → Arch
  | .arm _ => .arm
  | .ia32 _ => .ia32
  | .x64 _ => .x64

def ofWords (words : List UInt64) : Arch → Frame
  | .arm => .arm (.ofWords words)
  | .ia32 => .ia32 (.ofWords words)
  | .x64 => .x64 (.ofWords words)

def words : Frame → List UInt64
  | .arm f => f.words
  | .ia32 f => f.words
  | .x64 f => f.words

def capture : Frame → Snapshot
  | .arm f => .arm f.capture
  | .ia32 f => .ia32 f.capture
  | .x64 f => .x64 f.capture

end Frame

namespace Snapshot

def arch : Snapshot → Arch
  | .arm _ => .arm
  | .ia32 _ => .ia32
  | .x64 _ => .x64

def zero : Arch → Snapshot
  | .arm => .arm .zero
  | .ia32 => .ia32 .zero
  | .x64 => .x64 .zero

def commit : Snapshot → Frame → Outcome Frame
  | .arm s, .arm f => .ok (.arm (s.commit f))
  | .ia32 s, .ia32 f => .ok (.ia32 (s.commit f))
  | .x64 s, .x64 f => .ok (.x64 (s.commit f))
  | _, _ => .error .invalidParameter

def programCounter : Snapshot → UInt64
  | .arm s => s.programCounter
  | .ia32 s => s.programCounter
  | .x64 s => s.programCounter

def setProgramCounter (value : UInt64) : Snapshot → Snapshot
  | .arm s => .arm (s.setProgramCounter value)
  | .ia32 s => .ia32 (s.setProgramCounter value)
  | .x64 s => .x64 (s.setProgramCounter value)

def stackPointer : Snapshot → UInt64
  | .arm s => s.stackPointer
  | .ia32 s => s.stackPointer
  | .x64 s => s.stackPointer

def setReturnValue (value : UInt64) : Snapshot → Snapshot
  | .arm s => .arm (s.setReturnValue value)
  | .ia32 s => .ia32 (s.setReturnValue value)
  | .x64 s => .x64 (s.setReturnValue value)

def registers : Snapshot → List (String × UInt64)
  | .arm s => s.registers
  | .ia32 s => s.registers
  | .x64 s => s.registers

def setRegister (name : String) (value : UInt64) : Snapshot → Snapshot
  | .arm s => .arm (s.setRegister name value)
  | .ia32 s => .ia32 (s.setRegister name value)
  | .x64 s => .x64 (s.setRegister name value)

end Snapshot

inductive Edit where
  | setProgramCounter (value : UInt64)
  /-- Moves the program counter by a distance modulo 2^64. -/
  | advance (distance : UInt64)
  | setReturnValue (value : UInt64)
  | setRegister (name : String) (value : UInt64)
  | replace (arch : Arch)
  deriving DecidableEq, Repr

def Edit.apply (s : Snapshot) : Edit → Snapshot
  | .setProgramCounter value => s.setProgramCounter value
  | .advance distance => s.setProgramCounter (s.programCounter + distance)
  | .setReturnValue value => s.setReturnValue value
  | .setRegister name value => s.setRegister name value
  | .replace arch => .zero arch

end FirmwareHost
