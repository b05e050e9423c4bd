import FirmwareHost.Proofs.Run

/-! Mutual exclusion. The phases tell who holds which lock, so at most one producer has a round
trip in flight and at most one party has the mailbox in hand. -/

namespace FirmwareHost

variable {σ : Type} {d : Dispatcher σ} {s t : Machine σ} {a : Action} {es : List Event}

/-- What a step of `a` does to a lock, with whether `a` holds it before and after: nothing, take
it while it is free, or give it up. -/
inductive Lock.Moves (a : Actor) (l : Lock) (had : Bool) : Lock → Bool → Prop
  | stays : Moves a l had l had
  | taken (h : l = .free) : Moves a l had (.held a) true
  | given {l'} (hhad : had = true) (h : ∀ b, l' ≠ .held b) : Moves a l had l' false

theorem Lock.Moves.holder {b : Actor} {l l' : Lock} {had has : Bool} (h : Moves b l had l' has)
    (hi : had = true ↔ l = .held b) : has = true ↔ l' = .held b := by
  cases h with
  | stays => exact hi
  | taken => simp
  | given _ h => simp [h b]

/-- Nobody else comes to hold the lock or loses it. -/
theorem Lock.Moves.others {b c : Actor} {l l' : Lock} {had has holds : Bool}
    (h : Moves b l had l' has) (hi : had = true ↔ l = .held b) (hne : c ≠ b)
    (hc : holds = true ↔ l = .held c) : holds = true ↔ l' = .held c := by
  cases h with
  | stays => exact hc
  | taken hl => simpa [hl, Ne.symm hne] using hc
  | given hhad h =>
    rw [hi.mp hhad] at hc
    simpa [h c, Ne.symm hne] using hc

theorem Lock.Moves.ne_held {b c : Actor} {l l' : Lock} {had has : Bool}
    (h : Moves b l had l' has) (hne : c ≠ b) (hl : l ≠ .held c) : l' ≠ .held c := by
  cases h with
  | stays => exact hl
  | taken => simpa using hne.symm
  | given _ h => exact h c

/-- The locks are where the phases say. -/
structure Machine.Exclusive (s : Machine σ) : Prop where
  inFlight : ∀ p, (s.producers p).phase.holdsInFlight = true ↔
    s.channel.inFlight = .held (.producer p)
  producer : ∀ p, (s.producers p).phase.holdsMailbox = true ↔
    s.channel.mailbox.lock = .held (.producer p)
  consumer : ∀ c, (s.consumers c).phase.holdsMailbox = true ↔
    s.channel.mailbox.lock = .held (.consumer c)
  insider : s.channel.mailbox.lock ≠ .held .outsider

namespace ProducerPhase

theorem holdsMailbox_of_not_holdsInFlight {x : ProducerPhase} (h : x.holdsInFlight = false) :
    x.holdsMailbox = false := by
  cases x with
  | idle | sizing | queueing | done => rfl
  | _ => cases h

variable {p : Nat} {ch ch' : Channel} {x y : ProducerPhase}

theorem Step.movesInFlight (hs : Step p ch x es y ch') :
    ch.inFlight.Moves (.producer p) x.holdsInFlight ch'.inFlight y.holdsInFlight := by
  cases hs with
  | admitted h => exact .taken h
  | returned => exact .given rfl nofun
  | _ => exact .stays

theorem Step.movesMailbox (hs : Step p ch x es y ch') :
    ch.mailbox.lock.Moves (.producer p) x.holdsMailbox ch'.mailbox.lock y.holdsMailbox := by
  cases hs with
  | locked h | relocked h => exact .taken h
  | rejected | released | collected | skipped => exact .given rfl nofun
  | _ => exact .stays

end ProducerPhase

theorem ConsumerPhase.holdsMailbox_of_atRest {x : ConsumerPhase} (h : x.atRest = true) :
    x.holdsMailbox = false := by
  cases x with
  | checking | waiting | stopped => rfl
  | _ => cases h

theorem Consumer.Step.movesMailbox {c : Nat} {ch ch' : Channel} {x y : Consumer σ}
    (hs : Step d c ch x es y ch') : ch.mailbox.lock.Moves (.consumer c) x.phase.holdsMailbox
      ch'.mailbox.lock y.phase.holdsMailbox := by
  cases hs with
  | polled hx hy =>
    rw [hx, ConsumerPhase.holdsMailbox_of_atRest hy]
    exact .stays
  | locked _ h => exact .taken h
  | panicked hx | released hx =>
    rw [hx]
    exact .given rfl nofun
  | took hx | shutOut hx | served hx | signalled hx =>
    rw [hx]
    exact .stays

theorem Consumer.Step.inFlight {c : Nat} {ch ch' : Channel} {x y : Consumer σ}
    (hs : Step d c ch x es y ch') : ch'.inFlight = ch.inFlight := by
  cases hs <;> rfl

namespace Machine

theorem Fresh.exclusive (h : s.Fresh) : s.Exclusive := by
  obtain ⟨capacity, -, hch⟩ := h.channel_eq
  constructor
  · intro p
    simp [h.idle p, hch, ProducerPhase.holdsInFlight]
  · intro p
    simp [h.idle p, hch, ProducerPhase.holdsMailbox]
  · intro c
    simp [h.checking c, hch, ConsumerPhase.holdsMailbox]
  · simp [hch]

theorem exclusive_withProducer {p : Nat} {x : Producer} (h : s.Exclusive)
    (hin : x.phase.holdsInFlight = (s.producers p).phase.holdsInFlight)
    (hmail : x.phase.holdsMailbox = (s.producers p).phase.holdsMailbox) :
    (s.withProducer p x).Exclusive := by
  refine ⟨fun q => ?_, fun q => ?_, h.consumer, h.insider⟩
  · by_cases he : q = p
    · subst he
      simpa [hin] using h.inFlight q
    · rw [withProducer_ne _ _ he]
      exact h.inFlight q
  · by_cases he : q = p
    · subst he
      simpa [hmail] using h.producer q
    · rw [withProducer_ne _ _ he]
      exact h.producer q

theorem exclusive_withConsumer {c : Nat} {y : Consumer σ} (h : s.Exclusive)
    (hmail : y.phase.holdsMailbox = (s.consumers c).phase.holdsMailbox) :
    (s.withConsumer c y).Exclusive := by
  refine ⟨h.inFlight, h.producer, fun e => ?_, h.insider⟩
  by_cases he : e = c
  · subst he
    simpa [hmail] using h.consumer e
  · rw [withConsumer_ne _ _ he]
    exact h.consumer e

theorem Exclusive.produced {p : Nat} {x y : ProducerPhase} {ch : Channel} (h : s.Exclusive)
    (hx : (s.producers p).phase = x) (hs : ProducerPhase.Step p s.channel x es y ch) :
    Exclusive { s.withProducer p ⟨(s.producers p).limit, y⟩ with channel := ch } := by
  have hin := hx ▸ h.inFlight p
  have hmail := hx ▸ h.producer p
  refine ⟨fun q => ?_, fun q => ?_, fun c => ?_, ?_⟩
  · by_cases he : q = p
    · subst he
      rw [withProducer_self]
      exact hs.movesInFlight.holder hin
    · rw [withProducer_ne _ _ he]
      exact hs.movesInFlight.others hin (by simpa using he) (h.inFlight q)
  · by_cases he : q = p
    · subst he
      rw [withProducer_self]
      exact hs.movesMailbox.holder hmail
    · rw [withProducer_ne _ _ he]
      exact hs.movesMailbox.others hmail (by simpa using he) (h.producer q)
  · exact hs.movesMailbox.others hmail nofun (h.consumer c)
  · exact hs.movesMailbox.ne_held nofun h.insider

theorem Exclusive.consumed {c : Nat} {y : Consumer σ} {ch : Channel} (h : s.Exclusive)
    (hs : Consumer.Step d c s.channel (s.consumers c) es y ch) :
    Exclusive { s.withConsumer c y with channel := ch } := by
  have hmail := h.consumer c
  refine ⟨fun q => ?_, fun q => ?_, fun e => ?_, ?_⟩
  · rw [hs.inFlight]
    exact h.inFlight q
  · exact hs.movesMailbox.others hmail nofun (h.producer q)
  · by_cases he : e = c
    · subst he
      rw [withConsumer_self]
      exact hs.movesMailbox.holder hmail
    · rw [withConsumer_ne _ _ he]
      exact hs.movesMailbox.others hmail (by simpa using he) (h.consumer e)
  · exact hs.movesMailbox.ne_held nofun h.insider

theorem Exclusive.step (h : s.Exclusive) (hs : s.Step d a es t) : t.Exclusive := by
  cases hs with
  | called hx =>
    have hm := ProducerPhase.holdsMailbox_of_not_holdsInFlight hx
    exact exclusive_withProducer h hx.symm hm.symm
  | produced hx hs => exact h.produced hx hs
  | expired hx => exact exclusive_withProducer h (by rw [hx]; rfl) (by rw [hx]; rfl)
  | consumed hs => exact h.consumed hs
  | turned _ hx hy =>
    exact exclusive_withConsumer h (by
      rw [ConsumerPhase.holdsMailbox_of_atRest hx, ConsumerPhase.holdsMailbox_of_atRest hy])
  | shutdown => exact ⟨h.inFlight, h.producer, h.consumer, h.insider⟩
  | strayMessage => exact ⟨h.inFlight, h.producer, h.consumer, h.insider⟩
  | strayResponse => exact ⟨h.inFlight, h.producer, h.consumer, h.insider⟩

theorem Exclusive.inFlight_unique (h : s.Exclusive) {p q : Nat}
    (hp : (s.producers p).phase.holdsInFlight = true)
    (hq : (s.producers q).phase.holdsInFlight = true) : p = q := by
  have he := ((h.inFlight p).mp hp).symm.trans ((h.inFlight q).mp hq)
  simpa using he

theorem Exclusive.consumer_of_producer (h : s.Exclusive) {p : Nat} (c : Nat)
    (hp : (s.producers p).phase.holdsMailbox = true) :
    (s.consumers c).phase.holdsMailbox = false := by
  have hl := (h.producer p).mp hp
  have hc := h.consumer c
  simpa [hl] using hc

/-- Whoever keeps a producer in flight from the mailbox is a consumer. -/
theorem Exclusive.consumer_of_held (h : s.Exclusive) {p : Nat} {b : Actor}
    (hp : (s.producers p).phase.holdsInFlight = true)
    (hno : (s.producers p).phase.holdsMailbox = false) (hl : s.channel.mailbox.lock = .held b) :
    ∃ c, (s.consumers c).phase.holdsMailbox = true := by
  cases b with
  | producer e =>
    have he := (h.producer e).mpr hl
    have hin : (s.producers e).phase.holdsInFlight = true := by
      by_contra hn
      have := ProducerPhase.holdsMailbox_of_not_holdsInFlight (Bool.eq_false_iff.mpr hn)
      simp [this] at he
    obtain rfl := h.inFlight_unique hin hp
    simp [hno] at he
  | consumer c => exact ⟨c, (h.consumer c).mpr hl⟩
  | outsider => exact absurd hl h.insider

/-- While one round trip is in flight, no other producer adds to the history or changes the
channel. -/
theorem Exclusive.still_of_inFlight (h : s.Exclusive) {p q : Nat} {y : ProducerPhase}
    {ch : Channel} (hq : (s.producers q).phase.holdsInFlight = true) (hne : q ≠ p)
    (hs : ProducerPhase.Step p s.channel (s.producers p).phase es y ch) :
    es = [] ∧ ch = s.channel := by
  have hp : (s.producers p).phase.holdsInFlight = false :=
    Bool.eq_false_iff.mpr fun hp => hne (h.inFlight_unique hq hp)
  have hheld := (h.inFlight q).mp hq
  generalize (s.producers p).phase = x at hs hp
  cases hs with
  | oversized | sized | turnedAway => exact ⟨rfl, rfl⟩
  | admitted hf =>
    rw [hheld] at hf
    cases hf
  | _ => cases hp

end Machine

theorem Run.exclusive {allowed : Action → Prop} {h : List Event} (hs : s.Fresh)
    (hr : Run d allowed s h t) : t.Exclusive :=
  hr.preserves (I := fun _ t => t.Exclusive) hs.exclusive fun hi _ hstep => hi.step hstep

end FirmwareHost
