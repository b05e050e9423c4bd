import FirmwareHost.Dispatch.Dispatcher

/-! The loop of a listener: handle what is queued, then look at the shutdown flag, then wait. A bus
is any state machine that answers these three, so the flag may change between any two of them. -/

namespace FirmwareHost

structure Bus (σ : Type) where
  process : σ → Ended Bool × σ
  raised : σ → Bool × σ
  /-- Waits for traffic, at most this many milliseconds. -/
  wait : Nat → σ → Ended Unit × σ

inductive BusEvent where
  | process (r : Outcome Bool)
  | flag (raised : Bool)
  | wait (r : Outcome Unit)

inductive LoopPhase where
  | draining
  | checking
  | pausing
  | stopped (r : Ended Nat)

structure MessageLoop (σ : Type) where
  phase : LoopPhase
  /-- Messages handled: a natural number, which does not wrap as a 64-bit counter does. -/
  handled : Nat
  /-- What the bus answered, in order. A call that panicked leaves no event. -/
  trace : List BusEvent
  bus : σ

namespace MessageLoop

variable {σ : Type}

def defaultTimeout : Nat := 1000

def start (bus : σ) : MessageLoop σ := ⟨.draining, 0, [], bus⟩

def note (e : BusEvent) (s : MessageLoop σ) : MessageLoop σ := { s with trace := s.trace ++ [e] }

def step (b : Bus σ) (timeout : Nat) (s : MessageLoop σ) : MessageLoop σ :=
  match s.phase with
  | .draining =>
    match b.process s.bus with
    | (.returned (.ok true), bus) =>
      { s.note (.process (.ok true)) with bus, handled := s.handled + 1 }
    | (.returned (.ok false), bus) =>
      { s.note (.process (.ok false)) with bus, phase := .checking }
    | (.returned (.error e), bus) =>
      { s.note (.process (.error e)) with bus, phase := .stopped (.returned (.error e)) }
    | (.panicked, bus) => { s with bus, phase := .stopped .panicked }
  | .checking =>
    match b.raised s.bus with
    | (true, bus) =>
      { s.note (.flag true) with bus, phase := .stopped (.returned (.ok s.handled)) }
    | (false, bus) => { s.note (.flag false) with bus, phase := .pausing }
  | .pausing =>
    match b.wait timeout s.bus with
    | (.returned (.ok ()), bus) => { s.note (.wait (.ok ())) with bus, phase := .draining }
    | (.returned (.error e), bus) =>
      { s.note (.wait (.error e)) with bus, phase := .stopped (.returned (.error e)) }
    | (.panicked, bus) => { s with bus, phase := .stopped .panicked }
  | .stopped _ => s

/-- The loop after the given number of steps; a stopped loop stays as it is. -/
def run (b : Bus σ) (timeout : Nat) : Nat → MessageLoop σ → MessageLoop σ
  | 0, s => s
  | n + 1, s => run b timeout n (s.step b timeout)

def result? (s : MessageLoop σ) : Option (Ended Nat) :=
  match s.phase with
  | .stopped r => some r
  | _ => none

theorem step_of_stopped {b : Bus σ} {timeout : Nat} {s : MessageLoop σ} {r : Ended Nat}
    (h : s.phase = .stopped r) : s.step b timeout = s := by
  simp [step, h]

end MessageLoop

/-- What joining a worker answers. One that panicked was aborted. -/
def Ended.join {α : Type} : Ended α → Outcome α
  | .returned r => r
  | .panicked => .error .aborted

end FirmwareHost
