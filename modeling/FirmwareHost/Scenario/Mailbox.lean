import FirmwareHost.Mailbox.Channel
import FirmwareHost.Message.Response

/-! Scripts on a held mailbox, on a bare channel, and on a single ready flag. -/

namespace FirmwareHost.Scenario

inductive RegionAct where
  | setFunction (code : UInt64)
  | setStatus (s : Status)
  | setSequence (sequence : UInt64)
  | markAnswered
  | clear
  | write (offset : Nat) (bytes : Bytes)
  | read (offset length : Nat)
  | header
  | payloadLength
  | encodeRequest (r : Request)
  | encodeResponse (r : Response)
  | decodeRequest
  | decodeResponse (function : UInt64)

inductive RegionResult where
  | nothing
  | truth (value : Bool)
  | bytes (value : Option Bytes)
  | header (h : Header)
  | length (n : Nat)
  | outcome (r : Outcome Unit)
  | request (r : Outcome Request)
  | response (r : Outcome Response)
  | unknownFunction (e : Failure)

def RegionAct.play (m : Region) : RegionAct → RegionResult × Region
  | .setFunction code => (.nothing, m.setFunction code)
  | .setStatus s => (.nothing, m.setStatus s)
  | .setSequence sequence => (.nothing, m.setRequestSequence sequence)
  | .markAnswered => (.nothing, m.markAnswered)
  | .clear => (.nothing, m.clear)
  | .write offset bytes =>
    match m.write? offset bytes with
    | some m => (.truth true, m)
    | none => (.truth false, m)
  | .read offset length => (.bytes (m.read? offset length), m)
  | .header => (.header m.header, m)
  | .payloadLength => (.length m.payload.length, m)
  | .encodeRequest r => let (o, m) := r.encode m; (.outcome o, m)
  | .encodeResponse r => let (o, m) := r.encode m; (.outcome o, m)
  | .decodeRequest => (.request (Request.decode m), m)
  | .decodeResponse function =>
    match FunctionCode.ofCode function with
    | .ok f => (.response (Response.decode f m), m)
    | .error e => (.unknownFunction e, m)

def playRegion (m : Region) : List RegionAct → List RegionResult × Region
  | [] => ([], m)
  | a :: rest =>
    let (r, m) := a.play m
    let (rs, m) := playRegion m rest
    (r :: rs, m)

inductive ChannelStep where
  | act (a : RegionAct)
  | acquire
  | tryAcquire
  | release
  | encodedLength (r : Request)
  /-- Someone else acquires the mailbox and panics. -/
  | poison
  | signalMessage
  | signalResponse
  | waitMessage (bounded : Bool)
  | waitResponse (bounded : Bool)

inductive ChannelRefusal where
  | notHeld
  | held
  | wouldBlock
  deriving DecidableEq, Repr

inductive ChannelResult where
  | region (r : RegionResult)
  | outcome (r : Outcome Unit)
  | length (n : Nat)
  | nothing
  | refused (reason : ChannelRefusal)

namespace ChannelStep

def isHeld (ch : Channel) : Bool :=
  match ch.mailbox.lock with
  | .held _ => true
  | _ => false

/-- Acquires with a result even for a held mailbox. -/
def acquireNow (ch : Channel) : Outcome Unit × Channel :=
  let (r, mailbox) := ch.mailbox.tryAcquire .outsider
  (r, { ch with mailbox })

/-- Whoever acquires the mailbox panics; one that is poisoned already stays as it is. -/
def poisonedBy (ch : Channel) : Channel :=
  match acquireNow ch with
  | (.ok (), ch) => { ch with mailbox := ch.mailbox.poison }
  | (.error _, ch) => ch

def wait (bounded : Bool) (f : ReadyFlag) : ChannelResult × ReadyFlag :=
  match f.take? with
  | some f => (.outcome (.ok ()), f)
  | none => (if bounded then .outcome f.waitBounded.1 else .refused .wouldBlock, f)

def play (ch : Channel) : ChannelStep → ChannelResult × Channel
  | .act a =>
    if isHeld ch then
      let (r, m) := a.play ch.mailbox.region
      (.region r, ch.update fun _ => m)
    else (.refused .notHeld, ch)
  | .acquire =>
    if isHeld ch then (.refused .held, ch)
    else let (r, ch) := acquireNow ch; (.outcome r, ch)
  | .tryAcquire => let (r, ch) := acquireNow ch; (.outcome r, ch)
  | .release => if isHeld ch then (.outcome (.ok ()), ch.release) else (.refused .notHeld, ch)
  | .encodedLength r => (.length r.encodedLength, ch)
  | .poison => if isHeld ch then (.refused .held, ch) else (.nothing, poisonedBy ch)
  | .signalMessage => (.nothing, ch.signalMessage)
  | .signalResponse => (.nothing, ch.signalResponse)
  | .waitMessage bounded =>
    let (r, messageReady) := wait bounded ch.messageReady
    (r, { ch with messageReady })
  | .waitResponse bounded =>
    let (r, responseReady) := wait bounded ch.responseReady
    (r, { ch with responseReady })

end ChannelStep

inductive FlagStep where
  | signal
  | clear
  | wait
  | timed

inductive FlagResult where
  | nothing
  | truth (value : Bool)
  | outcome (r : Outcome Unit)
  | wouldBlock

def FlagStep.play (f : ReadyFlag) : FlagStep → FlagResult × ReadyFlag
  | .signal => (.nothing, f.signal)
  | .clear => let (r, f) := f.clear; (.truth r, f)
  | .wait =>
    match f.take? with
    | some f => (.outcome (.ok ()), f)
    | none => (.wouldBlock, f)
  | .timed => let (r, f) := f.waitBounded; (.outcome r, f)

end FirmwareHost.Scenario
