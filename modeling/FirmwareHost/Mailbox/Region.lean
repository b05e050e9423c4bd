import FirmwareHost.Efi.Failure

/-! The mailbox region: a header of four words and a payload of fixed length. -/

namespace FirmwareHost

structure Header where
  function : UInt64
  status : UInt64
  /-- Stamped by the producer on every request. -/
  requestSequence : UInt64
  /-- Copied from the request by the consumer that answers it. -/
  answeredSequence : UInt64
  deriving DecidableEq, Repr, Inhabited

def Header.zero : Header := ⟨0, 0, 0, 0⟩

def Header.size : Nat := 32

def Header.words (h : Header) : List UInt64 :=
  [h.function, h.status, h.requestSequence, h.answeredSequence]

structure Region where
  header : Header
  payload : Bytes
  deriving DecidableEq, Repr, Inhabited

namespace Region

def zero (capacity : Nat) : Region := ⟨.zero, List.replicate capacity 0⟩

def clear (m : Region) : Region := zero m.payload.length

def status (m : Region) : Status := ⟨m.header.status⟩

def setFunction (code : UInt64) (m : Region) : Region :=
  { m with header := { m.header with function := code } }

def setStatus (s : Status) (m : Region) : Region :=
  { m with header := { m.header with status := s.word } }

def setRequestSequence (sequence : UInt64) (m : Region) : Region :=
  { m with header := { m.header with requestSequence := sequence } }

def markAnswered (m : Region) : Region :=
  { m with header := { m.header with answeredSequence := m.header.requestSequence } }

/-- Bytes of the payload, if it reaches that far. -/
def read? (offset length : Nat) (m : Region) : Option Bytes :=
  if offset + length ≤ m.payload.length then some ((m.payload.drop offset).take length) else none

/-- Writes bytes into the payload, or nothing if they do not fit. -/
def write? (offset : Nat) (bytes : Bytes) (m : Region) : Option Region :=
  if offset + bytes.length ≤ m.payload.length then
    some { m with payload := overwrite offset bytes m.payload }
  else none

@[simp] theorem length_clear (m : Region) : m.clear.payload.length = m.payload.length := by
  simp [clear, zero]

end Region

end FirmwareHost
