import FirmwareHost.MessageLoop

/-! A bus that answers from two scripts, and the loop run over it, on its own or on a listener's
thread. -/

namespace FirmwareHost.Scenario

inductive BusEntry where
  | handled (value : Bool)
  | fail (e : Failure)
  | shutdown
  | resume
  | panic
  deriving DecidableEq, Repr

structure ScriptedBus where
  process : List BusEntry
  wait : List BusEntry
  raised : Bool
  deriving DecidableEq, Repr

namespace ScriptedBus

def play (s : ScriptedBus) : BusEntry → Ended Bool × ScriptedBus
  | .handled value => (.returned (.ok value), s)
  | .fail e => (.returned (.error e), s)
  | .shutdown => (.returned (.ok true), { s with raised := true })
  | .resume => (.returned (.ok true), { s with raised := false })
  | .panic => (.panicked, s)

/-- An exhausted script has no request queued, and its next wait ends in shutdown. -/
def bus : Bus ScriptedBus where
  process s :=
    match s.process with
    | [] => (.returned (.ok false), s)
    | e :: rest => { s with process := rest }.play e
  raised s := (s.raised, s)
  wait _ s :=
    match s.wait with
    | [] => (.returned (.ok ()), { s with raised := true })
    | e :: rest =>
      let (r, s) := { s with wait := rest }.play e
      (r.map fun _ => (), s)

/-- Enough steps for any script: each wait uses up an entry or raises the flag, and each time the
flag is lowered an entry is used up. -/
def stepsToStop (s : ScriptedBus) : Nat := 8 * (s.process.length + s.wait.length + 2)

def run (timeout : Nat) (s : ScriptedBus) : MessageLoop ScriptedBus :=
  (MessageLoop.start s).run bus timeout s.stepsToStop

end ScriptedBus

/-- A listener whose transport is made on its thread, after the shutdown request if there is one. -/
structure Listener where
  setup : Option Failure
  shutdown : Bool

/-- What joining the listener answers, and the loop as it ended. -/
def Listener.join (l : Listener) (timeout : Nat) (s : ScriptedBus) :
    Outcome Nat × MessageLoop ScriptedBus :=
  let s := if l.shutdown then { s with raised := true } else s
  match l.setup with
  | some e => (.error e, .start s)
  | none =>
    let loop := s.run timeout
    ((loop.result?.getD .panicked).join, loop)

end FirmwareHost.Scenario
