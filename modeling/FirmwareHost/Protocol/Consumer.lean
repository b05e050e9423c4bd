import FirmwareHost.Dispatch.Dispatcher
import FirmwareHost.Mailbox.Channel

/-! The firmware side of the mailbox protocol as a machine of atomic steps. A consumer polls the
shutdown flag between requests and signals each answer before it releases the mailbox. -/

namespace FirmwareHost

inductive ConsumerPhase where
  /-- About to look at the shutdown flag. -/
  | checking
  | waiting
  /-- It has taken a token and wants the mailbox. -/
  | woken
  | answering
  | signalling
  | releasing
  | stopped (result : Outcome Nat)
  | panicked

structure Consumer (σ : Type) where
  phase : ConsumerPhase
  /-- Requests answered since the loop began: a natural number, which does not wrap as a 64-bit
  counter does. -/
  served : Nat
  dispatcher : σ

namespace ConsumerPhase

def holdsMailbox : ConsumerPhase → Bool
  | .answering | .signalling | .releasing => true
  | _ => false

end ConsumerPhase

namespace Consumer

variable {σ : Type}

/-- The next atomic step of a consumer; nothing while it is blocked or has stopped. -/
def advance (d : Dispatcher σ) (self : Actor) (shutdown : Bool) (c : Consumer σ) (ch : Channel) :
    Option (Consumer σ × Channel) :=
  match c.phase with
  | .checking =>
    if shutdown then some ({ c with phase := .stopped (.ok c.served) }, ch)
    else some ({ c with phase := .waiting }, ch)
  | .waiting =>
    match ch.messageReady.take? with
    | none => none
    | some flag => some ({ c with phase := .woken }, { ch with messageReady := flag })
  | .woken =>
    match ch.acquire self with
    | none => none
    | some (.ok (), ch) => some ({ c with phase := .answering }, ch)
    | some (.error e, ch) => some ({ c with phase := .stopped (.error e) }, ch)
  | .answering =>
    match d.answer ch.mailbox.region c.dispatcher with
    | (some m, dispatcher) =>
      some ({ c with phase := .signalling, dispatcher }, ch.update fun _ => m)
    | (none, dispatcher) =>
      some ({ c with phase := .panicked, dispatcher }, { ch with mailbox := ch.mailbox.poison })
  | .signalling => some ({ c with phase := .releasing }, ch.signalResponse)
  | .releasing => some ({ c with phase := .checking, served := c.served + 1 }, ch.release)
  | .stopped _ | .panicked => none

def idle (c : Consumer σ) (ch : Channel) : Option (Consumer σ) :=
  match c.phase with
  | .waiting => if ch.messageReady.isSet then none else some { c with phase := .checking }
  | _ => none

def restart (c : Consumer σ) : Consumer σ := { c with phase := .checking, served := 0 }

/-- A single serve is entered, without a look at the shutdown flag. -/
def serve (c : Consumer σ) : Consumer σ := { c with phase := .waiting, served := 0 }

end Consumer

end FirmwareHost
