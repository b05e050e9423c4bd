import FirmwareHost.Hex

/-! Status words. The top bit of a word marks an error, and the two bits below it the OEM and PI
namespaces. A 32-bit wire status carries those three bits and the low 29. -/

namespace FirmwareHost

structure Status where
  word : UInt64
  deriving DecidableEq, Repr, Inhabited

namespace Status

def errorBit : UInt64 := 0x8000000000000000

def error (code : UInt64) : Status := ⟨errorBit ||| code⟩

def success : Status := ⟨0⟩
def loadError : Status := error 1
def invalidParameter : Status := error 2
def unsupported : Status := error 3
def badBufferSize : Status := error 4
def bufferTooSmall : Status := error 5
def notReady : Status := error 6
def deviceError : Status := error 7
def outOfResources : Status := error 9
def notFound : Status := error 14
def timeout : Status := error 18
def alreadyStarted : Status := error 20
def aborted : Status := error 21

def isError (s : Status) : Bool := s.word &&& errorBit != 0

/-- Bits 63 to 61 go to bits 31 to 29, bits 28 to 0 stay, and the rest is dropped. -/
def toWire (s : Status) : UInt32 :=
  ((s.word >>> 32).toUInt32 &&& 0xE0000000) ||| (s.word.toUInt32 &&& 0x1FFFFFFF)

def ofWire (wire : UInt32) : Status :=
  ⟨((wire &&& 0xE0000000).toUInt64 <<< 32) ||| (wire &&& 0x1FFFFFFF).toUInt64⟩

def names : List (Status × String) :=
  [(success, "EFI_SUCCESS"),
    (loadError, "EFI_LOAD_ERROR"),
    (invalidParameter, "EFI_INVALID_PARAMETER"),
    (unsupported, "EFI_UNSUPPORTED"),
    (badBufferSize, "EFI_BAD_BUFFER_SIZE"),
    (bufferTooSmall, "EFI_BUFFER_TOO_SMALL"),
    (notReady, "EFI_NOT_READY"),
    (deviceError, "EFI_DEVICE_ERROR"),
    (outOfResources, "EFI_OUT_OF_RESOURCES"),
    (notFound, "EFI_NOT_FOUND"),
    (timeout, "EFI_TIMEOUT"),
    (alreadyStarted, "EFI_ALREADY_STARTED"),
    (aborted, "EFI_ABORTED")]

/-- The name of a defined status, and the hexadecimal word of any other. -/
def text (s : Status) : String :=
  match names.lookup s with
  | some name => name
  | none => "EfiStatus(0x" ++ Hex.number s.word.toNat ++ ")"

end Status

end FirmwareHost
