import FirmwareHost.Protocol.Machine
import FirmwareHost.Scenario.Dispatch
import FirmwareHost.Scenario.Mailbox
import FirmwareHost.Service

/-! Scripts that call the service over one channel. Each call says who answers it: a consumer in its
loop, nobody, a consumer that comes late, or a script that writes to the mailbox itself. -/

namespace FirmwareHost.Scenario

inductive ClientCall where
  | version
  | service (c : Call)
  | roundTrip (r : Request)
  | exchange (r : Request)

inductive ClientResult where
  | version (text : String)
  | reply (r : Reply)
  | response (r : Outcome Response)
  | exchanged (r : Outcome Exchanged)

namespace ClientCall

/-- The request that a call posts, or the result that it has without one. -/
def start : ClientCall → Except ClientResult Request
  | .version => .error (.version apiVersion)
  | .service c =>
    match c.request with
    | .ok r => .ok r
    | .error e => .error (.reply (c.fail e))
  | .roundTrip r => .ok r
  | .exchange r => .ok r

/-- What a call makes of the outcome of its round trip. -/
def conclude (r : Outcome Exchanged) : ClientCall → ClientResult
  | .version => .version apiVersion
  | .service c => .reply (c.reply r)
  | .roundTrip _ => .response (FirmwareHost.roundTrip r)
  | .exchange _ => .exchanged r

end ClientCall

inductive Answerer where
  | running
  | nobody
  /-- A consumer serves once, this many milliseconds after the request. -/
  | late (delay : Nat)
  /-- Each turn acquires the mailbox, plays its acts, signals an answer and releases. -/
  | turns (acts : List (List RegionAct))

inductive Served where
  | nothing
  | count (r : Outcome Nat)
  | one (r : Outcome Bool)
  | panicked
  | turns (results : List (List RegionResult))

/-- Producers that make the calls, by position, and one consumer. -/
abbrev Exchanges := Machine ScriptedDispatcher

namespace Exchanges

def take (a : Action) (s : Exchanges) : Exchanges := s.attempt ScriptedDispatcher.methods a

/-- More steps than any participant takes before it is blocked or at rest. -/
def stepsToBlock : Nat := 64

/-- Takes an action for as long as it can be taken. -/
def exhaust (a : Action) (s : Exchanges) : Exchanges :=
  go stepsToBlock s
where
  go : Nat → Exchanges → Exchanges
    | 0, s => s
    | n + 1, s =>
      match s.step ScriptedDispatcher.methods a with
      | some s => go n s
      | none => s

/-- Starts every call that needs a round trip. -/
def begin (calls : List (ClientCall × Option Nat)) (s : Exchanges) : Exchanges :=
  calls.zipIdx.foldl
    (fun s ((c, limit), p) =>
      match c.start with
      | .ok r => take (.call p r limit) s
      | .error _ => s)
    s

/-- Lets every producer run in turn until it is blocked. -/
def produceAll (calls : Nat) (s : Exchanges) : Exchanges :=
  (List.range calls).foldl (fun s p => exhaust (.produce p) s) s

/-- Producers and consumer take turns. Each round completes a round trip if one can be completed. -/
def rounds (calls : Nat) (s : Exchanges) : Exchanges :=
  Nat.repeat (fun s => exhaust (.consume 0) (produceAll calls s)) (calls + 2) s

/-- Every bounded wait that is left runs out. -/
def expireAll (calls : Nat) (s : Exchanges) : Exchanges :=
  produceAll calls ((List.range calls).foldl (fun s p => take (.expire p) s) s)

def isWaiting (s : Exchanges) : Bool :=
  match (s.producers 0).phase with
  | .waiting .. => true
  | _ => false

/-- The outcome of a round trip. One that would never end counts as timed out. -/
def outcome (p : Nat) (s : Exchanges) : Outcome Exchanged :=
  match (s.producers p).phase with
  | .done r => r
  | _ => .error .timeout

def results (calls : List (ClientCall × Option Nat)) (s : Exchanges) : List ClientResult :=
  calls.zipIdx.map fun ((c, _), p) =>
    match c.start with
    | .ok _ => c.conclude (outcome p s)
    | .error r => r

/-- The consumer sees the raised shutdown flag at its next poll. -/
def stop (s : Exchanges) : Exchanges :=
  exhaust (.consume 0) (take (.idle 0) (exhaust (.consume 0) (take (.setShutdown true) s)))

def servedCount (s : Exchanges) : Served :=
  match (s.consumers 0).phase with
  | .stopped r => .count r
  | .panicked => .panicked
  | _ => .nothing

/-- The consumer answers what is pending, and no more. -/
def serveOnce (s : Exchanges) : Exchanges := exhaust (.consume 0) (take (.serve 0) s)

def servedOne (s : Exchanges) : Served :=
  match (s.consumers 0).phase with
  | .stopped (.error e) => .one (.error e)
  | .panicked => .panicked
  | _ => .one (.ok (0 < (s.consumers 0).served))

/-- All calls at once against a consumer in its loop. -/
def answerRunning (calls : Nat) (s : Exchanges) : Served × Exchanges :=
  let s := stop (expireAll calls (rounds calls s))
  (servedCount s, s)

def answerLate (limit : Option Nat) (delay : Nat) (s : Exchanges) : Served × Exchanges :=
  let s := produceAll 1 s
  if isWaiting s then
    let runsOut := match limit with
      | some limit => decide (limit < delay)
      | none => false
    let s := serveOnce (if runsOut then expireAll 1 s else s)
    (servedOne s, expireAll 1 (produceAll 1 s))
  else (.nothing, s)

def playTurn (s : Exchanges) (acts : List RegionAct) : List RegionResult × Exchanges :=
  match s.channel.acquire .outsider with
  | some (.ok (), ch) =>
    let (results, m) := playRegion ch.mailbox.region acts
    (results, produceAll 1 { s with channel := ((ch.update fun _ => m).signalResponse).release })
  | _ => ([], s)

def playTurns (s : Exchanges) : List (List RegionAct) → List (List RegionResult) × Exchanges
  | [] => ([], s)
  | acts :: rest =>
    let (results, s) := playTurn s acts
    let (others, s) := playTurns s rest
    (results :: others, s)

def answerTurns (turns : List (List RegionAct)) (s : Exchanges) : Served × Exchanges :=
  let s := produceAll 1 s
  if isWaiting s then
    let messageReady := s.channel.messageReady.clear.2
    let (results, s) := playTurns { s with channel := { s.channel with messageReady } } turns
    (.turns results, expireAll 1 s)
  else (.turns [], s)

def answer (limit : Option Nat) (s : Exchanges) : Answerer → Served × Exchanges
  | .running => answerRunning 1 s
  | .nobody => (.nothing, expireAll 1 (produceAll 1 s))
  | .late delay => answerLate limit delay s
  | .turns turns => answerTurns turns s

end Exchanges

inductive SessionStep where
  | call (c : ClientCall) (limit : Option Nat) (who : Answerer)
  | parallel (calls : List (ClientCall × Option Nat))
  | serve (bounded : Bool)
  /-- A consumer enters its loop with the shutdown flag raised. -/
  | stopped
  | post (acts : List RegionAct)
  | signalMessage
  | signalResponse
  | poison
  | collect (function : UInt64)
  | peek
  | insert (h : PrmHandler Body)
  | remove (guid : Guid)
  | contains (guid : Guid)
  | installPackage (package : Bytes)

inductive SessionRefusal where
  | messagePending
  | wouldBlock
  | noTable
  deriving DecidableEq, Repr

inductive SessionResult where
  | client (r : ClientResult)
  | clients (rs : List ClientResult)
  | served (s : Served)
  | acts (r : Outcome (List RegionResult))
  | nothing
  | collected (r : Outcome (Region × RegionResult))
  | state (r : Outcome Region)
  | name (n : Option String)
  | truth (value : Bool)
  | outcome (r : Outcome Unit)
  | refused (reason : SessionRefusal)

structure Session where
  channel : Channel
  dispatcher : ScriptedDispatcher

namespace Session

def exchanges (s : Session) : Exchanges := .initial s.channel s.dispatcher

def ofExchanges (e : Exchanges) : Session := ⟨e.channel, (e.consumers 0).dispatcher⟩

def isPending (s : Session) : Bool := s.channel.messageReady.isSet

def call (c : ClientCall) (limit : Option Nat) (who : Answerer) (s : Session) :
    SessionResult × Served × Session :=
  let calls := [(c, limit)]
  let (served, e) := (s.exchanges.begin calls).answer limit who
  match e.results calls with
  | r :: _ => (.client r, served, ofExchanges e)
  | [] => (.nothing, served, ofExchanges e)

def withMailbox {α : Type} (s : Session) (action : Region → α × Region) : Outcome α × Session :=
  match s.channel.mailbox.tryAcquire .outsider with
  | (.error e, mailbox) => (.error e, { s with channel := { s.channel with mailbox } })
  | (.ok (), mailbox) =>
    let (a, region) := action mailbox.region
    (.ok a, { s with channel := { s.channel with mailbox := { mailbox with region }.release } })

/-- Runs an action on the table, if the dispatcher is one. -/
def withTable (s : Session)
    (action : Option PackageRule → HandlerTable Body Unit →
      SessionResult × HandlerTable Body Unit) :
    SessionResult × Session :=
  match s.dispatcher with
  | .table rule t =>
    let (r, t) := action rule t
    (r, { s with dispatcher := .table rule t })
  | .fixed _ => (.refused .noTable, s)

def nameOf (t : HandlerTable Body Unit) (guid : Guid) : SessionResult :=
  .name ((t.find? guid).map PrmHandler.name)

def stepAlone (s : Session) : SessionStep → SessionResult × Session
  | .serve bounded =>
    if !bounded && !s.isPending then (.refused .wouldBlock, s)
    else
      let e := s.exchanges.serveOnce
      (.served e.servedOne, ofExchanges e)
  | .stopped =>
    let e := s.exchanges.stop
    (.served e.servedCount, ofExchanges e)
  | .post acts =>
    match s.withMailbox fun m => playRegion m acts with
    | (.ok rs, s) => (.acts (.ok rs), { s with channel := s.channel.signalMessage })
    | (.error e, s) => (.acts (.error e), s)
  | .signalMessage => (.nothing, { s with channel := s.channel.signalMessage })
  | .signalResponse => (.nothing, { s with channel := s.channel.signalResponse })
  | .poison => (.nothing, { s with channel := ChannelStep.poisonedBy s.channel })
  | .collect function =>
    match s.channel.responseReady.take? with
    | none => (.collected (.error .timeout), s)
    | some responseReady =>
      let (r, s) := { s with channel := { s.channel with responseReady } }.withMailbox fun m =>
        ((m, ((RegionAct.decodeResponse function).play m).1), m)
      (.collected r, s)
  | .peek =>
    let (r, s) := s.withMailbox fun m => (m, m)
    (.state r, s)
  | .insert h => s.withTable fun _ t => (nameOf t h.guid, t.insert h)
  | .remove guid => s.withTable fun _ t => (nameOf t guid, t.erase guid)
  | .contains guid => s.withTable fun _ t => (.truth (t.contains guid), t)
  | .installPackage package =>
    s.withTable fun rule t =>
      let (r, t) := t.installPackage (ScriptedDispatcher.code rule) package
      (.outcome r, t)
  | .call .. | .parallel _ => (.nothing, s)

/-- A call answered by a loop or a script is refused while an older request is pending. -/
def needsQuiet : Answerer → Bool
  | .running | .turns _ => true
  | .nobody | .late _ => false

def step (s : Session) : SessionStep → SessionResult × Served × Session
  | .call c limit who =>
    if needsQuiet who && s.isPending then (.refused .messagePending, .nothing, s)
    else s.call c limit who
  | .parallel calls =>
    if s.isPending then (.refused .messagePending, .nothing, s)
    else
      let (served, e) := (s.exchanges.begin calls).answerRunning calls.length
      (.clients (e.results calls), served, ofExchanges e)
  | alone =>
    let (r, s) := s.stepAlone alone
    (r, .nothing, s)

def handlerCount (s : Session) : Option Nat :=
  match s.dispatcher with
  | .table _ t => some t.size
  | .fixed _ => none

end Session

end FirmwareHost.Scenario
