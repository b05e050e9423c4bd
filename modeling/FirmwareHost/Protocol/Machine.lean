import FirmwareHost.Protocol.Consumer
import FirmwareHost.Protocol.Producer

/-! Any number of producers and consumers over one channel. Each action is one atomic step of one
of them, the end of a bounded wait, or something that happens outside of them; every interleaving
is a sequence of actions. -/

namespace FirmwareHost

structure Machine (σ : Type) where
  channel : Channel
  shutdown : Bool
  producers : Nat → Producer
  consumers : Nat → Consumer σ

inductive Action where
  /-- A producer at rest begins a round trip. -/
  | call (p : Nat) (r : Request) (limit : Option Nat)
  | produce (p : Nat)
  | expire (p : Nat)
  | consume (c : Nat)
  | idle (c : Nat)
  /-- A stopped consumer enters its loop again. -/
  | restart (c : Nat)
  /-- A consumer between requests is asked for a single one. -/
  | serve (c : Nat)
  | setShutdown (value : Bool)
  | strayMessage
  | strayResponse

namespace Machine

variable {σ : Type}

def withProducer (s : Machine σ) (p : Nat) (x : Producer) : Machine σ :=
  { s with producers := fun q => if q = p then x else s.producers q }

def withConsumer (s : Machine σ) (c : Nat) (x : Consumer σ) : Machine σ :=
  { s with consumers := fun d => if d = c then x else s.consumers d }

def initial (channel : Channel) (dispatcher : σ) : Machine σ :=
  { channel
    shutdown := false
    producers := fun _ => ⟨none, .idle⟩
    consumers := fun _ => ⟨.checking, 0, dispatcher⟩ }

/-- The state after an action, if the action can be taken. -/
def step (d : Dispatcher σ) (s : Machine σ) : Action → Option (Machine σ)
  | .call p r limit =>
    match (s.producers p).phase with
    | .idle | .done _ => some (s.withProducer p ⟨limit, .sizing r⟩)
    | _ => none
  | .produce p =>
    let x := s.producers p
    (x.phase.advance (.producer p) s.channel).map fun (phase, channel) =>
      { s.withProducer p { x with phase } with channel }
  | .expire p =>
    let x := s.producers p
    match x.limit with
    | none => none
    | some _ => (x.phase.expire s.channel).map fun phase => s.withProducer p { x with phase }
  | .consume c =>
    ((s.consumers c).advance d (.consumer c) s.shutdown s.channel).map fun (x, channel) =>
      { s.withConsumer c x with channel }
  | .idle c => ((s.consumers c).idle s.channel).map (s.withConsumer c)
  | .restart c =>
    match (s.consumers c).phase with
    | .stopped _ => some (s.withConsumer c (s.consumers c).restart)
    | _ => none
  | .serve c =>
    match (s.consumers c).phase with
    | .checking | .stopped _ => some (s.withConsumer c (s.consumers c).serve)
    | _ => none
  | .setShutdown value => some { s with shutdown := value }
  | .strayMessage => some { s with channel := s.channel.signalMessage }
  | .strayResponse => some { s with channel := s.channel.signalResponse }

/-- Takes an action where it can be taken and stays put where it cannot. -/
def attempt (d : Dispatcher σ) (s : Machine σ) (a : Action) : Machine σ := (s.step d a).getD s

@[simp] theorem withProducer_self (s : Machine σ) (p : Nat) (x : Producer) :
    (s.withProducer p x).producers p = x := by
  simp [withProducer]

theorem withProducer_ne (s : Machine σ) {p q : Nat} (x : Producer) (h : q ≠ p) :
    (s.withProducer p x).producers q = s.producers q := by
  simp [withProducer, h]

theorem forall_withProducer {P : Nat → Producer → Prop} {s : Machine σ} {p : Nat} {x : Producer}
    (hx : P p x) (hs : ∀ q, q ≠ p → P q (s.producers q)) (q : Nat) :
    P q ((s.withProducer p x).producers q) := by
  by_cases h : q = p
  · rw [h, withProducer_self]
    exact hx
  · rw [withProducer_ne s x h]
    exact hs q h

@[simp] theorem withProducer_channel (s : Machine σ) (p : Nat) (x : Producer) :
    (s.withProducer p x).channel = s.channel := rfl

@[simp] theorem withProducer_consumers (s : Machine σ) (p : Nat) (x : Producer) :
    (s.withProducer p x).consumers = s.consumers := rfl

@[simp] theorem withConsumer_self (s : Machine σ) (c : Nat) (x : Consumer σ) :
    (s.withConsumer c x).consumers c = x := by
  simp [withConsumer]

theorem withConsumer_ne (s : Machine σ) {c e : Nat} (x : Consumer σ) (h : e ≠ c) :
    (s.withConsumer c x).consumers e = s.consumers e := by
  simp [withConsumer, h]

theorem forall_withConsumer {P : Nat → Consumer σ → Prop} {s : Machine σ} {c : Nat}
    {x : Consumer σ} (hx : P c x) (hs : ∀ e, e ≠ c → P e (s.consumers e)) (e : Nat) :
    P e ((s.withConsumer c x).consumers e) := by
  by_cases h : e = c
  · rw [h, withConsumer_self]
    exact hx
  · rw [withConsumer_ne s x h]
    exact hs e h

@[simp] theorem withConsumer_channel (s : Machine σ) (c : Nat) (x : Consumer σ) :
    (s.withConsumer c x).channel = s.channel := rfl

@[simp] theorem withConsumer_producers (s : Machine σ) (c : Nat) (x : Consumer σ) :
    (s.withConsumer c x).producers = s.producers := rfl

end Machine

end FirmwareHost
