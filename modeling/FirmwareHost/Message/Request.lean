import FirmwareHost.Efi.Guid
import FirmwareHost.Mailbox.Region
import FirmwareHost.Message.FunctionCode

/-! Requests and their layout in the payload: variable-length data stands behind a 32-bit length.

* install package: length, bytes
* invoke handler: GUID, eight zero bytes for the handler's status, length, parameters
* uninstall module, handler debug information: GUID
* enumerate handlers: nothing -/

namespace FirmwareHost

/-- Lengths from here on do not fit their field. -/
def lengthLimit : Nat := UInt32.size

def invokeHeaderSize : Nat := 28

/-- Payload bytes before the data of a debug information response. -/
def debugInfoHeaderSize : Nat := 24

/-- The first bytes behind a header, or a failure if there are fewer. -/
def takeExactly (length : Nat) (tail : Bytes) : Outcome Bytes :=
  if length ≤ tail.length then .ok (tail.take length) else .error .badBufferSize

/-- The number stored little-endian in `width` bytes at an offset. -/
def wordAt (offset width : Nat) (payload : Bytes) : Nat :=
  ofLittleEndian ((payload.drop offset).take width)

/-- A payload must at least hold the fixed part of a message. -/
def requireHeader (size : Nat) (payload : Bytes) : Outcome Unit :=
  if size ≤ payload.length then .ok () else .error .badBufferSize

inductive Request where
  | installPackage (package : Bytes)
  | enumerateHandlers
  | invokeHandler (guid : Guid) (parameters : Bytes)
  | uninstallModule (guid : Guid)
  | getHandlerDebugInfo (guid : Guid)
  deriving DecidableEq, Repr

namespace Request

def function : Request → FunctionCode
  | .installPackage _ => .installPackage
  | .enumerateHandlers => .enumerateHandlers
  | .invokeHandler .. => .invokeHandler
  | .uninstallModule _ => .uninstallModule
  | .getHandlerDebugInfo _ => .getHandlerDebugInfo

/-- The bytes whose number the request carries in its length field. -/
def data : Request → Bytes
  | .installPackage package => package
  | .invokeHandler _ parameters => parameters
  | _ => []

def layout : Request → Bytes
  | .installPackage package => littleEndian 4 package.length ++ package
  | .enumerateHandlers => []
  | .invokeHandler guid parameters =>
    guid.toBytes ++ littleEndian 8 0 ++ littleEndian 4 parameters.length ++ parameters
  | .uninstallModule guid => guid.toBytes
  | .getHandlerDebugInfo guid => guid.toBytes

def encodedLength : Request → Nat
  | .installPackage package => 4 + package.length
  | .enumerateHandlers => 0
  | .invokeHandler _ parameters => invokeHeaderSize + parameters.length
  | .uninstallModule _ => 16
  | .getHandlerDebugInfo _ => 16

/-- Writes the function code and the layout. A request that is too long changes nothing; one whose
data are too many for their length field is given up once its function code is there. -/
def encode (r : Request) (m : Region) : Outcome Unit × Region :=
  if m.payload.length < r.encodedLength then (.error .badBufferSize, m)
  else
    let m := m.setFunction r.function.code
    if r.data.length < lengthLimit then
      (.ok (), { m with payload := overwrite 0 r.layout m.payload })
    else (.error .badBufferSize, m)

def decode (m : Region) : Outcome Request := do
  match ← FunctionCode.ofCode m.header.function with
  | .installPackage =>
    requireHeader 4 m.payload
    return .installPackage (← takeExactly (wordAt 0 4 m.payload) (m.payload.drop 4))
  | .enumerateHandlers => return .enumerateHandlers
  | .invokeHandler =>
    requireHeader invokeHeaderSize m.payload
    let parameters ← takeExactly (wordAt 24 4 m.payload) (m.payload.drop invokeHeaderSize)
    return .invokeHandler (.ofBytes (m.payload.take 16)) parameters
  | .uninstallModule =>
    requireHeader 16 m.payload
    return .uninstallModule (.ofBytes (m.payload.take 16))
  | .getHandlerDebugInfo =>
    requireHeader 16 m.payload
    return .getHandlerDebugInfo (.ofBytes (m.payload.take 16))

theorem length_layout (r : Request) : r.layout.length = r.encodedLength := by
  cases r <;> simp [layout, encodedLength, invokeHeaderSize] <;> omega

end Request

end FirmwareHost
