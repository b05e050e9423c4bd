import FirmwareHost.Message.Request
import FirmwareHost.Text.Utf8

/-! Responses. A response is written over the request it answers and keeps the request's GUID; the
dispatch status is in the header.

* invoke handler: GUID, handler status, length, parameters
* handler debug information: GUID, two lengths, ACPI bytes, name
* every other function: nothing -/

namespace FirmwareHost

structure DebugInfo where
  acpi : Bytes
  name : String
  deriving DecidableEq, Repr, Inhabited

inductive Response where
  | empty
  | invoke (handlerStatus : Status) (parameters : Bytes)
  | debugInfo (info : DebugInfo)
  deriving DecidableEq, Repr

namespace Response

/-- What the response writes from offset 16 on, behind the GUID. -/
def layout : Response → Bytes
  | .empty => []
  | .invoke handlerStatus parameters =>
    littleEndian 8 handlerStatus.word.toNat ++ littleEndian 4 parameters.length ++ parameters
  | .debugInfo info =>
    littleEndian 4 info.acpi.length ++ littleEndian 4 (Utf8.encode info.name).length ++
      info.acpi ++ Utf8.encode info.name

/-- Payload bytes up to the end of the response, the GUID included. -/
def encodedLength : Response → Nat
  | .empty => 0
  | .invoke _ parameters => invokeHeaderSize + parameters.length
  | .debugInfo info =>
    debugInfoHeaderSize + (info.acpi.length + (Utf8.encode info.name).length)

/-- Whether the variable-length parts fit their length fields. -/
def fitsLengths : Response → Bool
  | .empty => true
  | .invoke _ parameters => parameters.length < lengthLimit
  | .debugInfo info =>
    info.acpi.length < lengthLimit && (Utf8.encode info.name).length < lengthLimit

/-- What stands in the payload from offset 16 on when a length turns out not to fit its field. -/
def begun : Response → Bytes
  | .empty => []
  | .invoke handlerStatus _ => littleEndian 8 handlerStatus.word.toNat
  | .debugInfo info =>
    if info.acpi.length < lengthLimit then littleEndian 4 info.acpi.length else []

/-- Writes the response behind the GUID. One that the payload is too short for changes nothing; one
with a part too long for its length field breaks off at that field. -/
def encode (r : Response) (m : Region) : Outcome Unit × Region :=
  if m.payload.length < r.encodedLength then (.error .badBufferSize, m)
  else if r.fitsLengths then
    match r with
    | .empty => (.ok (), m)
    | _ => (.ok (), { m with payload := overwrite 16 r.layout m.payload })
  else (.error .badBufferSize, { m with payload := overwrite 16 r.begun m.payload })

/-- Reads the response that a region holds for a function. -/
def decode (function : FunctionCode) (m : Region) : Outcome Response :=
  match function with
  | .invokeHandler => do
    requireHeader invokeHeaderSize m.payload
    let parameters ← takeExactly (wordAt 24 4 m.payload) (m.payload.drop invokeHeaderSize)
    return .invoke ⟨.ofNat (wordAt 16 8 m.payload)⟩ parameters
  | .getHandlerDebugInfo => do
    requireHeader debugInfoHeaderSize m.payload
    let tail := m.payload.drop debugInfoHeaderSize
    let acpi ← takeExactly (wordAt 16 4 m.payload) tail
    let name ← takeExactly (wordAt 20 4 m.payload) (tail.drop acpi.length)
    return .debugInfo ⟨acpi, Utf8.decode name⟩
  | _ => return .empty

end Response

end FirmwareHost
