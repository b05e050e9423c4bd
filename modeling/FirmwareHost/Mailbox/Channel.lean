import FirmwareHost.Mailbox.Region

/-! The mailbox behind its lock, and the channel that producers and consumers share: the mailbox,
one ready flag for each direction, the lock held for a whole round trip, and the request counter. -/

namespace FirmwareHost

inductive Actor where
  | producer (id : Nat)
  | consumer (id : Nat)
  /-- Anyone else who uses the channel. -/
  | outsider
  deriving DecidableEq, Repr

inductive Lock where
  | free
  | held (holder : Actor)
  /-- The holder panicked, and nobody acquires the lock again. -/
  | poisoned
  deriving DecidableEq, Repr

structure Mailbox where
  region : Region
  lock : Lock
  /-- How often the lock was taken: a natural number, which does not wrap as a 64-bit counter
  does. -/
  acquisitions : Nat

namespace Mailbox

def defaultSize : Nat := 4096

def minSize : Nat := 64

/-- A mailbox of the given size in bytes, header included. -/
def ofSize (size : Nat) : Outcome Mailbox :=
  if size < minSize then .error .invalidParameter
  else .ok ⟨.zero (size - Header.size), .free, 0⟩

def initial : Mailbox := ⟨.zero (defaultSize - Header.size), .free, 0⟩

def capacity (m : Mailbox) : Nat := m.region.payload.length

def size (m : Mailbox) : Nat := Header.size + m.capacity

/-- Nothing while somebody holds the mailbox. -/
def acquire (a : Actor) (m : Mailbox) : Option (Outcome Unit × Mailbox) :=
  match m.lock with
  | .free => some (.ok (), { m with lock := .held a, acquisitions := m.acquisitions + 1 })
  | .held _ => none
  | .poisoned => some (.error .aborted, m)

/-- Never blocks: a held mailbox is reported as such. -/
def tryAcquire (a : Actor) (m : Mailbox) : Outcome Unit × Mailbox :=
  (m.acquire a).getD (.error .alreadyStarted, m)

def release (m : Mailbox) : Mailbox := { m with lock := .free }

/-- The holder panics. -/
def poison (m : Mailbox) : Mailbox := { m with lock := .poisoned }

def update (f : Region → Region) (m : Mailbox) : Mailbox := { m with region := f m.region }

end Mailbox

/-- A flag that holds at most one token: setting it twice is setting it once, and a wait takes the
token. -/
structure ReadyFlag where
  isSet : Bool
  deriving DecidableEq, Repr

namespace ReadyFlag

def initial : ReadyFlag := ⟨false⟩

def signal (_ : ReadyFlag) : ReadyFlag := ⟨true⟩

/-- The flag after a wait, which blocks while it is not set. -/
def take? (f : ReadyFlag) : Option ReadyFlag := if f.isSet then some ⟨false⟩ else none

/-- A bounded wait during which nobody sets the flag. -/
def waitBounded (f : ReadyFlag) : Outcome Unit × ReadyFlag :=
  match f.take? with
  | some f => (.ok (), f)
  | none => (.error .timeout, f)

/-- Takes the token without waiting and answers whether there was one. -/
def clear (f : ReadyFlag) : Bool × ReadyFlag := (f.isSet, ⟨false⟩)

end ReadyFlag

structure Channel where
  mailbox : Mailbox
  messageReady : ReadyFlag
  responseReady : ReadyFlag
  /-- Held by a producer from before it numbers its request until it returns. -/
  inFlight : Lock
  sequence : UInt64

namespace Channel

def ofSize (size : Nat) : Outcome Channel := do
  let mailbox ← Mailbox.ofSize size
  return ⟨mailbox, .initial, .initial, .free, 0⟩

def openInstance (n : UInt64) : Outcome Channel := do
  requireFirstInstance n
  ofSize Mailbox.defaultSize

/-- The next request number, which is never 0: an unanswered mailbox holds 0. -/
def nextSequence (ch : Channel) : UInt64 × Channel :=
  let counter := ch.sequence + 1
  (max counter 1, { ch with sequence := counter })

def signalMessage (ch : Channel) : Channel := { ch with messageReady := ch.messageReady.signal }

def signalResponse (ch : Channel) : Channel := { ch with responseReady := ch.responseReady.signal }

def update (f : Region → Region) (ch : Channel) : Channel :=
  { ch with mailbox := ch.mailbox.update f }

def release (ch : Channel) : Channel := { ch with mailbox := ch.mailbox.release }

def acquire (a : Actor) (ch : Channel) : Option (Outcome Unit × Channel) :=
  (ch.mailbox.acquire a).map fun (r, mailbox) => (r, { ch with mailbox })

end Channel

end FirmwareHost
