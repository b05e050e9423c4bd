import FirmwareHost.Mailbox.Channel
import FirmwareHost.Message.Response

/-! The request side of the mailbox protocol as a machine of atomic steps. A producer holds the
in-flight lock for a whole round trip and the mailbox lock while it writes or reads. -/

namespace FirmwareHost

/-- What a round trip that was answered brings back. -/
abbrev Exchanged := Status × Response

inductive ProducerPhase where
  | idle
  | sizing (r : Request)
  | queueing (r : Request)
  | numbering (r : Request)
  | acquiring (r : Request) (sequence : UInt64)
  | discarding (r : Request) (sequence : UInt64)
  | writing (r : Request) (sequence : UInt64)
  | releasing (r : Request) (sequence : UInt64)
  | signalling (r : Request) (sequence : UInt64)
  | waiting (r : Request) (sequence : UInt64)
  | woken (r : Request) (sequence : UInt64)
  | reading (r : Request) (sequence : UInt64)
  | leaving (result : Outcome Exchanged)
  | done (result : Outcome Exchanged)

structure Producer where
  /-- Bound on the wait for an answer in milliseconds; without one the wait has no end. -/
  limit : Option Nat
  phase : ProducerPhase

namespace Region

/-- The region that a posted request leaves: nothing of its earlier contents. -/
def post (r : Request) (sequence : UInt64) (m : Region) : Outcome Unit × Region :=
  match r.encode m.clear with
  | (.ok (), m) => (.ok (), m.setRequestSequence sequence)
  | (.error e, m) => (.error e, m)

/-- What a producer makes of an answered region. An error answer may leave no readable payload. -/
def collect (f : FunctionCode) (m : Region) : Outcome Exchanged :=
  match Response.decode f m with
  | .ok response => .ok (m.status, response)
  | .error e => if m.status.isError then .ok (m.status, .empty) else .error e

end Region

namespace ProducerPhase

def holdsInFlight : ProducerPhase → Bool
  | .idle | .sizing _ | .queueing _ | .done _ => false
  | _ => true

def holdsMailbox : ProducerPhase → Bool
  | .discarding .. | .writing .. | .releasing .. | .reading .. => true
  | _ => false

/-- The next atomic step of a producer; nothing while it is blocked or at rest. -/
def advance (self : Actor) (phase : ProducerPhase) (ch : Channel) :
    Option (ProducerPhase × Channel) :=
  match phase with
  | .idle | .done _ => none
  | .sizing r =>
    if ch.mailbox.capacity < r.encodedLength then some (.done (.error .badBufferSize), ch)
    else some (.queueing r, ch)
  | .queueing r =>
    match ch.inFlight with
    | .free => some (.numbering r, { ch with inFlight := .held self })
    | .held _ => none
    | .poisoned => some (.done (.error .aborted), ch)
  | .numbering r =>
    let (sequence, ch) := ch.nextSequence
    some (.acquiring r sequence, ch)
  | .acquiring r sequence =>
    match ch.acquire self with
    | none => none
    | some (.ok (), ch) => some (.discarding r sequence, ch)
    | some (.error e, ch) => some (.leaving (.error e), ch)
  | .discarding r sequence =>
    some (.writing r sequence, { ch with responseReady := ch.responseReady.clear.2 })
  | .writing r sequence =>
    match ch.mailbox.region.post r sequence with
    | (.ok (), m) => some (.releasing r sequence, ch.update fun _ => m)
    | (.error e, m) => some (.leaving (.error e), (ch.update fun _ => m).release)
  | .releasing r sequence => some (.signalling r sequence, ch.release)
  | .signalling r sequence => some (.waiting r sequence, ch.signalMessage)
  | .waiting r sequence =>
    match ch.responseReady.take? with
    | none => none
    | some flag => some (.woken r sequence, { ch with responseReady := flag })
  | .woken r sequence =>
    match ch.acquire self with
    | none => none
    | some (.ok (), ch) => some (.reading r sequence, ch)
    | some (.error e, ch) => some (.leaving (.error e), ch)
  | .reading r sequence =>
    if ch.mailbox.region.header.answeredSequence = sequence then
      some (.leaving (ch.mailbox.region.collect r.function), ch.release)
    else some (.waiting r sequence, ch.release)
  | .leaving result => some (.done result, { ch with inFlight := .free })

/-- A bounded wait runs out. It can only do so while no answer is signalled. -/
def expire (phase : ProducerPhase) (ch : Channel) : Option ProducerPhase :=
  match phase with
  | .waiting .. => if ch.responseReady.isSet then none else some (.leaving (.error .timeout))
  | _ => none

end ProducerPhase

/-- An error status that the consumer wrote is a failure of the round trip. -/
def roundTrip (r : Outcome Exchanged) : Outcome Response := do
  let (status, response) ← r
  if status.isError then .error (.ofStatus status) else return response

end FirmwareHost
