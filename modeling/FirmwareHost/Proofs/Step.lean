import FirmwareHost.Protocol.Machine
import Mathlib.Control.Monad.Basic

/-! Everything that an atomic step can do. Each step adds at most one event to the history: who is
admitted, what is posted and signalled, what a consumer makes of the mailbox, and what is collected
and returned. -/

namespace FirmwareHost

inductive Event where
  | admitted (p : Nat) (r : Request)
  /-- A producer leaves the region `m` as the mailbox's contents. -/
  | posted (p : Nat) (r : Request) (sequence : UInt64) (m : Region)
  | signalled (p : Nat) (r : Request) (sequence : UInt64)
  /-- A consumer finds the region `m` and leaves the region `n`. -/
  | served (c : Nat) (m n : Region)
  | woke (p : Nat)
  /-- A producer finds its own answer in the region `m`. -/
  | collected (p : Nat) (r : Request) (sequence : UInt64) (m : Region)
  | returned (p : Nat) (result : Outcome Exchanged)
  deriving DecidableEq

namespace ProducerPhase

def events (p : Nat) (ch : Channel) : ProducerPhase → List Event
  | .queueing r => if ch.inFlight = .free then [.admitted p r] else []
  | .writing r sequence =>
    match ch.mailbox.region.post r sequence with
    | (.ok (), m) => [.posted p r sequence m]
    | (.error _, _) => []
  | .signalling r sequence => [.signalled p r sequence]
  | .waiting .. => [.woke p]
  | .reading r sequence =>
    if ch.mailbox.region.header.answeredSequence = sequence then
      [.collected p r sequence ch.mailbox.region]
    else []
  | .leaving result => [.returned p result]
  | _ => []

/-- The atomic steps of a producer: the phase and channel it finds, what it adds to the history,
and the phase and channel it leaves. -/
inductive Step (p : Nat) (ch : Channel) :
    ProducerPhase → List Event → ProducerPhase → Channel → Prop
  | oversized {r} (h : ch.mailbox.capacity < r.encodedLength) :
      Step p ch (.sizing r) [] (.done (.error .badBufferSize)) ch
  | sized {r} (h : r.encodedLength ≤ ch.mailbox.capacity) :
      Step p ch (.sizing r) [] (.queueing r) ch
  | admitted {r} (h : ch.inFlight = .free) :
      Step p ch (.queueing r) [.admitted p r] (.numbering r)
        { ch with inFlight := .held (.producer p) }
  | turnedAway {r} (h : ch.inFlight = .poisoned) :
      Step p ch (.queueing r) [] (.done (.error .aborted)) ch
  | numbered {r} :
      Step p ch (.numbering r) [] (.acquiring r (max (ch.sequence + 1) 1))
        { ch with sequence := ch.sequence + 1 }
  | locked {r q} (h : ch.mailbox.lock = .free) :
      Step p ch (.acquiring r q) [] (.discarding r q)
        { ch with mailbox := ⟨ch.mailbox.region, .held (.producer p), ch.mailbox.acquisitions + 1⟩ }
  | shutOut {r q} (h : ch.mailbox.lock = .poisoned) :
      Step p ch (.acquiring r q) [] (.leaving (.error .aborted)) ch
  | discarded {r q} :
      Step p ch (.discarding r q) [] (.writing r q) { ch with responseReady := ⟨false⟩ }
  | posted {r q m} (h : ch.mailbox.region.post r q = (.ok (), m)) :
      Step p ch (.writing r q) [.posted p r q m] (.releasing r q)
        { ch with mailbox := ⟨m, ch.mailbox.lock, ch.mailbox.acquisitions⟩ }
  | rejected {r q e m} (h : ch.mailbox.region.post r q = (.error e, m)) :
      Step p ch (.writing r q) [] (.leaving (.error e))
        { ch with mailbox := ⟨m, .free, ch.mailbox.acquisitions⟩ }
  | released {r q} :
      Step p ch (.releasing r q) [] (.signalling r q)
        { ch with mailbox := ⟨ch.mailbox.region, .free, ch.mailbox.acquisitions⟩ }
  | signalled {r q} :
      Step p ch (.signalling r q) [.signalled p r q] (.waiting r q)
        { ch with messageReady := ⟨true⟩ }
  | woke {r q} (h : ch.responseReady.isSet = true) :
      Step p ch (.waiting r q) [.woke p] (.woken r q) { ch with responseReady := ⟨false⟩ }
  | relocked {r q} (h : ch.mailbox.lock = .free) :
      Step p ch (.woken r q) [] (.reading r q)
        { ch with mailbox := ⟨ch.mailbox.region, .held (.producer p), ch.mailbox.acquisitions + 1⟩ }
  | reshutOut {r q} (h : ch.mailbox.lock = .poisoned) :
      Step p ch (.woken r q) [] (.leaving (.error .aborted)) ch
  | collected {r q} (h : ch.mailbox.region.header.answeredSequence = q) :
      Step p ch (.reading r q) [.collected p r q ch.mailbox.region]
        (.leaving (ch.mailbox.region.collect r.function))
        { ch with mailbox := ⟨ch.mailbox.region, .free, ch.mailbox.acquisitions⟩ }
  | skipped {r q} (h : ch.mailbox.region.header.answeredSequence ≠ q) :
      Step p ch (.reading r q) [] (.waiting r q)
        { ch with mailbox := ⟨ch.mailbox.region, .free, ch.mailbox.acquisitions⟩ }
  | returned {result} :
      Step p ch (.leaving result) [.returned p result] (.done result) { ch with inFlight := .free }

theorem Step.events_le_one {p : Nat} {ch ch' : Channel} {x y : ProducerPhase} {es : List Event}
    (h : Step p ch x es y ch') : es = [] ∨ ∃ e, es = [e] := by
  cases h <;> simp

theorem step_of_advance {p : Nat} {ch ch' : Channel} {x y : ProducerPhase}
    (h : x.advance (.producer p) ch = some (y, ch')) : Step p ch x (x.events p ch) y ch' := by
  cases x with
  | idle => simp [advance] at h
  | done => simp [advance] at h
  | sizing r =>
    simp only [advance] at h
    split at h
    · next hr => cases h; exact .oversized hr
    · next hr => cases h; exact .sized (by omega)
  | queueing r =>
    simp only [advance] at h
    split at h
    · next hf => cases h; simpa [events, hf] using Step.admitted hf
    · cases h
    · next hf => cases h; simpa [events, hf] using Step.turnedAway hf
  | numbering r => cases h; exact .numbered
  | acquiring r q =>
    simp only [advance, Channel.acquire, Mailbox.acquire] at h
    cases hl : ch.mailbox.lock with
    | free => simp only [hl] at h; cases h; exact .locked hl
    | held a => simp [hl] at h
    | poisoned => simp only [hl] at h; cases h; exact .shutOut hl
  | discarding r q => cases h; exact .discarded
  | writing r q =>
    simp only [advance] at h
    split at h
    · next m hm => cases h; simp only [events, hm]; exact .posted hm
    · next e m hm => cases h; simp only [events, hm]; exact .rejected hm
  | releasing r q => cases h; exact .released
  | signalling r q => cases h; exact .signalled
  | waiting r q =>
    simp only [advance, ReadyFlag.take?] at h
    cases hf : ch.responseReady.isSet with
    | true => simp only [hf] at h; cases h; exact .woke hf
    | false => simp [hf] at h
  | woken r q =>
    simp only [advance, Channel.acquire, Mailbox.acquire] at h
    cases hl : ch.mailbox.lock with
    | free => simp only [hl] at h; cases h; exact .relocked hl
    | held a => simp [hl] at h
    | poisoned => simp only [hl] at h; cases h; exact .reshutOut hl
  | reading r q =>
    simp only [advance] at h
    split at h
    · next ha => cases h; simp only [events, ha, if_true]; exact .collected ha
    · next ha => cases h; simp only [events, ha, if_false]; exact .skipped ha
  | leaving result => cases h; exact .returned

theorem Step.advance {p : Nat} {ch ch' : Channel} {x y : ProducerPhase} {es : List Event}
    (h : Step p ch x es y ch') :
    x.advance (.producer p) ch = some (y, ch') ∧ x.events p ch = es := by
  cases h with
  | oversized h => exact ⟨by simp [ProducerPhase.advance, h], rfl⟩
  | sized h => exact ⟨by simp [ProducerPhase.advance, Nat.not_lt.mpr h], rfl⟩
  | admitted h => simp [ProducerPhase.advance, events, h]
  | turnedAway h => simp [ProducerPhase.advance, events, h]
  | locked h | shutOut h | relocked h | reshutOut h =>
    simp [ProducerPhase.advance, events, Channel.acquire, Mailbox.acquire, h]
  | posted h | rejected h =>
    simp [ProducerPhase.advance, events, h, Channel.update, Mailbox.update, Channel.release,
      Mailbox.release]
  | woke h => exact ⟨by simp [ProducerPhase.advance, ReadyFlag.take?, h], rfl⟩
  | collected h | skipped h =>
    simp [ProducerPhase.advance, events, h, Channel.release, Mailbox.release]
  | _ => exact ⟨rfl, rfl⟩

end ProducerPhase

/-- Whether a consumer in this phase has no request in hand. -/
def ConsumerPhase.atRest : ConsumerPhase → Bool
  | .checking | .waiting | .stopped _ => true
  | _ => false

namespace Consumer

variable {σ : Type}

def events (d : Dispatcher σ) (c : Nat) (ch : Channel) (x : Consumer σ) : List Event :=
  match x.phase with
  | .answering =>
    match d.answer ch.mailbox.region x.dispatcher with
    | (some n, _) => [.served c ch.mailbox.region n]
    | (none, _) => []
  | _ => []

/-- The atomic steps of a consumer. The poll of the shutdown flag is a step between phases of
rest. -/
inductive Step (d : Dispatcher σ) (c : Nat) (ch : Channel) (x : Consumer σ) :
    List Event → Consumer σ → Channel → Prop
  | polled {y} (hx : x.phase = .checking) (hy : y.atRest = true) :
      Step d c ch x [] { x with phase := y } ch
  | took (hx : x.phase = .waiting) (h : ch.messageReady.isSet = true) :
      Step d c ch x [] { x with phase := .woken } { ch with messageReady := ⟨false⟩ }
  | locked (hx : x.phase = .woken) (h : ch.mailbox.lock = .free) :
      Step d c ch x [] { x with phase := .answering }
        { ch with mailbox := ⟨ch.mailbox.region, .held (.consumer c), ch.mailbox.acquisitions + 1⟩ }
  | shutOut (hx : x.phase = .woken) (h : ch.mailbox.lock = .poisoned) :
      Step d c ch x [] { x with phase := .stopped (.error .aborted) } ch
  | served {n y} (hx : x.phase = .answering)
      (h : d.answer ch.mailbox.region x.dispatcher = (some n, y)) :
      Step d c ch x [.served c ch.mailbox.region n]
        { x with phase := .signalling, dispatcher := y }
        { ch with mailbox := ⟨n, ch.mailbox.lock, ch.mailbox.acquisitions⟩ }
  | panicked {y} (hx : x.phase = .answering)
      (h : d.answer ch.mailbox.region x.dispatcher = (none, y)) :
      Step d c ch x [] { x with phase := .panicked, dispatcher := y }
        { ch with mailbox := ⟨ch.mailbox.region, .poisoned, ch.mailbox.acquisitions⟩ }
  | signalled (hx : x.phase = .signalling) :
      Step d c ch x [] { x with phase := .releasing } { ch with responseReady := ⟨true⟩ }
  | released (hx : x.phase = .releasing) :
      Step d c ch x [] { x with phase := .checking, served := x.served + 1 }
        { ch with mailbox := ⟨ch.mailbox.region, .free, ch.mailbox.acquisitions⟩ }

theorem Step.events_le_one {d : Dispatcher σ} {c : Nat} {ch ch' : Channel} {x y : Consumer σ}
    {es : List Event} (h : Step d c ch x es y ch') : es = [] ∨ ∃ e, es = [e] := by
  cases h <;> simp

theorem step_of_advance {d : Dispatcher σ} {c : Nat} {shutdown : Bool} {ch ch' : Channel}
    {x y : Consumer σ} (h : x.advance d (.consumer c) shutdown ch = some (y, ch')) :
    Step d c ch x (x.events d c ch) y ch' := by
  cases hx : x.phase with
  | checking =>
    simp only [advance, hx] at h
    simp only [events, hx]
    split at h <;> cases h <;> exact .polled hx rfl
  | waiting =>
    simp only [advance, hx, ReadyFlag.take?] at h
    simp only [events, hx]
    cases hf : ch.messageReady.isSet with
    | true => simp only [hf] at h; cases h; exact .took hx hf
    | false => simp [hf] at h
  | woken =>
    simp only [advance, hx, Channel.acquire, Mailbox.acquire] at h
    simp only [events, hx]
    cases hl : ch.mailbox.lock with
    | free => simp only [hl] at h; cases h; exact .locked hx hl
    | held a => simp [hl] at h
    | poisoned => simp only [hl] at h; cases h; exact .shutOut hx hl
  | answering =>
    simp only [advance, hx] at h
    split at h
    · next n z hn => cases h; simp only [events, hx, hn]; exact .served hx hn
    · next z hn => cases h; simp only [events, hx, hn]; exact .panicked hx hn
  | signalling => simp only [advance, hx] at h; cases h; simp only [events, hx]; exact .signalled hx
  | releasing => simp only [advance, hx] at h; cases h; simp only [events, hx]; exact .released hx
  | stopped result => simp [advance, hx] at h
  | panicked => simp [advance, hx] at h

/-- A consumer can take each of its atomic steps, whatever the shutdown flag, except that the flag
decides the poll. -/
theorem Step.advance {d : Dispatcher σ} {c : Nat} {ch ch' : Channel} {x y : Consumer σ}
    {es : List Event} (shutdown : Bool) (hx : x.phase ≠ .checking) (h : Step d c ch x es y ch') :
    x.advance d (.consumer c) shutdown ch = some (y, ch') ∧ x.events d c ch = es := by
  cases h with
  | polled hp => exact absurd hp hx
  | took hp h => simp [Consumer.advance, events, hp, ReadyFlag.take?, h]
  | locked hp h | shutOut hp h =>
    simp [Consumer.advance, events, hp, Channel.acquire, Mailbox.acquire, h]
  | served hp h | panicked hp h =>
    simp [Consumer.advance, events, hp, h, Channel.update, Mailbox.update, Mailbox.poison]
  | signalled hp | released hp =>
    simp [Consumer.advance, events, hp, Channel.signalResponse, ReadyFlag.signal, Channel.release,
      Mailbox.release]

end Consumer

namespace Machine

variable {σ : Type}

def events (d : Dispatcher σ) (s : Machine σ) : Action → List Event
  | .produce p => (s.producers p).phase.events p s.channel
  | .consume c => (s.consumers c).events d c s.channel
  | _ => []

/-- Everything that an action can do. -/
inductive Step (d : Dispatcher σ) (s : Machine σ) : Action → List Event → Machine σ → Prop
  | called {p r limit} (h : (s.producers p).phase.holdsInFlight = false) :
      Step d s (.call p r limit) [] (s.withProducer p ⟨limit, .sizing r⟩)
  | produced {p x es y ch} (hx : (s.producers p).phase = x)
      (h : ProducerPhase.Step p s.channel x es y ch) :
      Step d s (.produce p) es
        { s.withProducer p ⟨(s.producers p).limit, y⟩ with channel := ch }
  | expired {p r q limit} (hx : (s.producers p).phase = .waiting r q)
      (hl : (s.producers p).limit = some limit) (h : s.channel.responseReady.isSet = false) :
      Step d s (.expire p) []
        (s.withProducer p ⟨some limit, .leaving (.error .timeout)⟩)
  | consumed {c es y ch} (h : Consumer.Step d c s.channel (s.consumers c) es y ch) :
      Step d s (.consume c) es { s.withConsumer c y with channel := ch }
  | turned {a c y} (ha : a = .idle c ∨ a = .restart c ∨ a = .serve c)
      (h : (s.consumers c).phase.atRest = true) (hy : y.phase.atRest = true)
      (hd : y.dispatcher = (s.consumers c).dispatcher) :
      Step d s a [] (s.withConsumer c y)
  | shutdown {value} : Step d s (.setShutdown value) [] { s with shutdown := value }
  | strayMessage :
      Step d s .strayMessage [] { s with channel := { s.channel with messageReady := ⟨true⟩ } }
  | strayResponse :
      Step d s .strayResponse [] { s with channel := { s.channel with responseReady := ⟨true⟩ } }

theorem step_inv {d : Dispatcher σ} {s t : Machine σ} {a : Action} (h : s.step d a = some t) :
    Step d s a (s.events d a) t := by
  cases a with
  | call p r limit =>
    simp only [step] at h
    split at h
    · next hx => cases h; exact .called (by rw [hx]; rfl)
    · next hx => cases h; exact .called (by rw [hx]; rfl)
    · cases h
  | produce p =>
    obtain ⟨⟨y, ch⟩, hy, rfl⟩ := Option.map_eq_some_iff.mp h
    exact .produced rfl (ProducerPhase.step_of_advance hy)
  | expire p =>
    simp only [step] at h
    split at h
    · cases h
    · next limit hl =>
      obtain ⟨y, hy, rfl⟩ := Option.map_eq_some_iff.mp h
      unfold ProducerPhase.expire at hy
      split at hy
      · next r q hx =>
        split at hy
        · cases hy
        · next hf => cases hy; exact hl ▸ .expired hx hl (by simpa using hf)
      · cases hy
  | consume c =>
    obtain ⟨⟨y, ch⟩, hy, rfl⟩ := Option.map_eq_some_iff.mp h
    exact .consumed (Consumer.step_of_advance hy)
  | idle c =>
    obtain ⟨y, hy, rfl⟩ := Option.map_eq_some_iff.mp h
    unfold Consumer.idle at hy
    split at hy
    · next hx =>
      split at hy <;> cases hy
      exact .turned (.inl rfl) (by rw [hx]; rfl) rfl rfl
    · cases hy
  | restart c =>
    simp only [step] at h
    split at h
    · next hx => cases h; exact .turned (.inr (.inl rfl)) (by rw [hx]; rfl) rfl rfl
    · cases h
  | serve c =>
    simp only [step] at h
    split at h
    · next hx => cases h; exact .turned (.inr (.inr rfl)) (by rw [hx]; rfl) rfl rfl
    · next hx => cases h; exact .turned (.inr (.inr rfl)) (by rw [hx]; rfl) rfl rfl
    · cases h
  | setShutdown value => cases h; exact .shutdown
  | strayMessage => cases h; exact .strayMessage
  | strayResponse => cases h; exact .strayResponse

theorem step_produce {d : Dispatcher σ} {s : Machine σ} {p : Nat} {x y : ProducerPhase}
    {ch : Channel} {es : List Event} (hx : (s.producers p).phase = x)
    (h : ProducerPhase.Step p s.channel x es y ch) :
    s.step d (.produce p) =
        some { s.withProducer p ⟨(s.producers p).limit, y⟩ with channel := ch } ∧
      s.events d (.produce p) = es := by
  obtain ⟨ha, he⟩ := h.advance
  exact ⟨by simp [step, hx, ha], by rw [← he, ← hx]; rfl⟩

theorem step_consume {d : Dispatcher σ} {s : Machine σ} {c : Nat} {y : Consumer σ} {ch : Channel}
    {es : List Event} (hx : (s.consumers c).phase ≠ .checking)
    (h : Consumer.Step d c s.channel (s.consumers c) es y ch) :
    s.step d (.consume c) = some { s.withConsumer c y with channel := ch } ∧
      s.events d (.consume c) = es := by
  obtain ⟨ha, he⟩ := h.advance s.shutdown hx
  exact ⟨by simp [step, ha], he⟩

theorem step_serve {d : Dispatcher σ} {s : Machine σ} {c : Nat}
    (hx : (s.consumers c).phase = .checking ∨ ∃ v, (s.consumers c).phase = .stopped v) :
    s.step d (.serve c) = some (s.withConsumer c (s.consumers c).serve) := by
  rcases hx with hx | ⟨v, hx⟩ <;> simp [step, hx]

theorem Step.events_le_one {d : Dispatcher σ} {s t : Machine σ} {a : Action} {es : List Event}
    (h : Step d s a es t) : es = [] ∨ ∃ e, es = [e] := by
  cases h with
  | produced _ h => exact h.events_le_one
  | consumed h => exact h.events_le_one
  | _ => exact .inl rfl

end Machine

/-- A producer with no round trip of its own. -/
def ProducerPhase.Rests (x : ProducerPhase) : Prop := x = .idle ∨ ∃ result, x = .done result

/-- Producer `p` makes no call. -/
def Action.Leaves (p : Nat) : Action → Prop
  | .call e .. => e ≠ p
  | _ => True

def Event.By (p : Nat) : Event → Prop
  | .admitted e _ | .posted e .. | .signalled e .. => e = p
  | .woke e | .collected e .. | .returned e _ => e = p
  | .served .. => False

variable {σ : Type} {d : Dispatcher σ} {t u : Machine σ} {a : Action} {es : List Event} {p : Nat}

/-- What a step can do to producer `p`, which makes no call by it. -/
inductive Machine.Touches (p : Nat) (t : Machine σ) (es : List Event) (u : Machine σ) : Prop
  | spares (hp : u.producers p = t.producers p) (hes : ∀ e ∈ es, ¬ e.By p)
  | own (y : ProducerPhase) (ch : Channel) (hy : (u.producers p).phase = y) (hch : u.channel = ch)
      (hs : ProducerPhase.Step p t.channel (t.producers p).phase es y ch)
  | cutsShort (r : Request) (q : UInt64) (hx : (t.producers p).phase = .waiting r q)
      (hy : (u.producers p).phase = .leaving (.error .timeout)) (hes : es = [])

theorem Event.By.unique {e : Event} {n : Nat} (hp : e.By p) (hn : e.By n) : p = n := by
  cases e with
  | served => exact hp.elim
  | _ => exact Eq.trans (Eq.symm hp) hn

theorem ProducerPhase.Step.by {e : Event} {ch ch' : Channel} {x y : ProducerPhase}
    (hs : Step p ch x es y ch') (he : e ∈ es) : e.By p := by
  cases hs <;> simp_all [Event.By]

theorem Consumer.Step.not_by {n : Nat} {e : Event} {ch ch' : Channel} {x y : Consumer σ}
    (hs : Step d n ch x es y ch') (he : e ∈ es) : ¬ e.By p := by
  cases hs <;> simp_all [Event.By]

theorem Machine.Step.touches (hs : t.Step d a es u) (ha : a.Leaves p) : t.Touches p es u := by
  cases hs with
  | called => exact .spares (withProducer_ne _ _ (Ne.symm ha)) (by simp)
  | @produced e x es y ch hx hs =>
    by_cases he : p = e
    · subst he
      exact .own y ch (by simp) rfl (hx ▸ hs)
    · exact .spares (withProducer_ne _ _ he) fun b hb hby => he (hby.unique (hs.by hb))
  | @expired e r q limit hx =>
    by_cases he : p = e
    · subst he
      exact .cutsShort _ _ hx (by simp) rfl
    · exact .spares (withProducer_ne _ _ he) (by simp)
  | consumed hs => exact .spares rfl fun b hb => hs.not_by hb
  | turned | shutdown | strayMessage | strayResponse => exact .spares rfl (by simp)

end FirmwareHost
