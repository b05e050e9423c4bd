import FirmwareHost.Proofs.Exclusion

/-! A poisoned mailbox stays shut. Once a thread has panicked with the mailbox in hand, nobody gets
to it again: what was half written is never read, and every round trip that still wants the mailbox
fails. -/

namespace FirmwareHost

variable {σ : Type}

namespace Machine

/-- A thread panics while it holds the mailbox, whatever it has written there by then. A producer's
round trip goes with it, and a consumer may be of use again. -/
inductive Panics (s : Machine σ) : Machine σ → Prop
  | producer {p m} (hp : (s.producers p).phase.holdsMailbox = true)
      (hm : m.payload.length = s.channel.mailbox.capacity) :
      Panics s { s.withProducer p ⟨none, .idle⟩ with
        channel := { s.channel with
          mailbox := (s.channel.mailbox.update fun _ => m).poison, inFlight := .poisoned } }
  | consumer {c m y} (hc : (s.consumers c).phase.holdsMailbox = true)
      (hm : m.payload.length = s.channel.mailbox.capacity)
      (hy : y.phase = .panicked ∨ y.phase.atRest = true) :
      Panics s { s.withConsumer c y with
        channel := { s.channel with mailbox := (s.channel.mailbox.update fun _ => m).poison } }
  | outsider {m} (hl : s.channel.mailbox.lock = .held .outsider)
      (hm : m.payload.length = s.channel.mailbox.capacity) :
      Panics s { s with
        channel := { s.channel with mailbox := (s.channel.mailbox.update fun _ => m).poison } }

/-- What can happen to the channel: a step of a producer or consumer, a panic with the mailbox in
hand or without it, or somebody else's use of the flags and of the mailbox. -/
inductive Moves (d : Dispatcher σ) (s : Machine σ) : List Event → Machine σ → Prop
  | steps {a t} (hs : s.step d a = some t) : Moves d s (s.events d a) t
  | panics {t} (hp : s.Panics t) : Moves d s [] t
  | gone {p} (hp : (s.producers p).phase.holdsInFlight = true)
      (hm : (s.producers p).phase.holdsMailbox = false) :
      Moves d s [] { s.withProducer p ⟨none, .idle⟩ with
        channel := { s.channel with inFlight := .poisoned } }
  | flagged {messageReady responseReady} :
      Moves d s [] { s with channel := { s.channel with messageReady, responseReady } }
  | borrowed (hl : s.channel.mailbox.lock = .free) :
      Moves d s [] { s with
        channel := { s.channel with
          mailbox := ⟨s.channel.mailbox.region, .held .outsider,
            s.channel.mailbox.acquisitions + 1⟩ } }
  | edited {m} (hl : s.channel.mailbox.lock = .held .outsider)
      (hm : m.payload.length = s.channel.mailbox.capacity) :
      Moves d s [] { s with channel := s.channel.update fun _ => m }
  | handedBack (hl : s.channel.mailbox.lock = .held .outsider) :
      Moves d s [] { s with channel := s.channel.release }

end Machine

/-- Any number of moves, with the history they leave. -/
inductive Course (d : Dispatcher σ) (s : Machine σ) : List Event → Machine σ → Prop
  | start : Course d s [] s
  | next {h t es u} (hc : Course d s h t) (hm : t.Moves d es u) : Course d s (h ++ es) u

variable {d : Dispatcher σ} {s t u v : Machine σ} {a : Action} {h g es : List Event} {p : Nat}

theorem Course.preserves {I : Machine σ → Prop} (hstart : I s)
    (hstep : ∀ {t es u}, I t → t.Moves d es u → I u) (hc : Course d s h t) : I t := by
  induction hc with
  | start => exact hstart
  | next _ hm ih => exact hstep ih hm

theorem Course.trans (hc : Course d s h t) (hg : Course d t g u) : Course d s (h ++ g) u := by
  induction hg with
  | start => rwa [List.append_nil]
  | next _ hm ih =>
    rw [← List.append_assoc]
    exact ih.next hm

/-- Whoever is at work on the mailbox has its lock. -/
structure Machine.Holding (s : Machine σ) : Prop where
  producer : ∀ p, (s.producers p).phase.holdsMailbox = true →
    s.channel.mailbox.lock = .held (.producer p)
  consumer : ∀ c, (s.consumers c).phase.holdsMailbox = true →
    s.channel.mailbox.lock = .held (.consumer c)

theorem Lock.Moves.owner {b : Actor} {l l' : Lock} {had has : Bool} (h : Moves b l had l' has)
    (hi : had = true → l = .held b) : has = true → l' = .held b := by
  cases h with
  | stays => exact hi
  | taken => exact fun _ => rfl
  | given => exact nofun

theorem Lock.Moves.keeps {b c : Actor} {l l' : Lock} {had has : Bool} (h : Moves b l had l' has)
    (hi : had = true → l = .held b) (hne : c ≠ b) (hc : l = .held c) : l' = .held c := by
  cases h with
  | stays => exact hc
  | taken hfree =>
    rw [hc] at hfree
    cases hfree
  | given hhad =>
    rw [hc] at hi
    exact absurd (Lock.held.inj (hi hhad)) hne

namespace Machine

theorem Holding.producer_idle (hi : s.Holding)
    (hl : s.channel.mailbox.lock ≠ .held (.producer p)) :
    (s.producers p).phase.holdsMailbox = false :=
  Bool.eq_false_iff.mpr fun hh => hl (hi.producer p hh)

theorem Holding.consumer_idle {c : Nat} (hi : s.Holding)
    (hl : s.channel.mailbox.lock ≠ .held (.consumer c)) :
    (s.consumers c).phase.holdsMailbox = false :=
  Bool.eq_false_iff.mpr fun hh => hl (hi.consumer c hh)

theorem Holding.withProducer {x : Producer} {ch : Channel} (hi : s.Holding)
    (hx : x.phase.holdsMailbox = false) (hl : ch.mailbox.lock = s.channel.mailbox.lock) :
    Holding { s.withProducer p x with channel := ch } := by
  refine ⟨fun q => ?_, fun c hc => hl.trans (hi.consumer c hc)⟩
  rw [hl]
  exact forall_withProducer
    (P := fun q x => x.phase.holdsMailbox = true → s.channel.mailbox.lock = .held (.producer q))
    (fun hh => by simp [hx] at hh) (fun q _ => hi.producer q) q

theorem Holding.step (hi : s.Holding) (hs : s.Step d a es t) : t.Holding := by
  cases hs with
  | called | expired => exact hi.withProducer rfl rfl
  | @produced p x es y ch hx hs =>
    have hown := hx ▸ hi.producer p
    have hmove := hs.movesMailbox
    -- what one actor does to the lock keeps everybody else's hold of it
    refine ⟨?_, fun c hc => hmove.keeps hown nofun (hi.consumer c hc)⟩
    exact forall_withProducer
      (P := fun q x => x.phase.holdsMailbox = true → ch.mailbox.lock = .held (.producer q))
      (hmove.owner hown) fun q hq hh => hmove.keeps hown (by simpa using hq) (hi.producer q hh)
  | @consumed c es y ch hs =>
    have hown := hi.consumer c
    have hmove := hs.movesMailbox
    refine ⟨fun p hp => hmove.keeps hown nofun (hi.producer p hp), ?_⟩
    exact forall_withConsumer
      (P := fun e x => x.phase.holdsMailbox = true → ch.mailbox.lock = .held (.consumer e))
      (hmove.owner hown) fun e he hh => hmove.keeps hown (by simpa using he) (hi.consumer e hh)
  | turned _ _ hy =>
    have hno := ConsumerPhase.holdsMailbox_of_atRest hy
    refine ⟨hi.producer, ?_⟩
    exact forall_withConsumer
      (P := fun e x => x.phase.holdsMailbox = true → s.channel.mailbox.lock = .held (.consumer e))
      (fun hh => by simp [hno] at hh) fun e _ => hi.consumer e
  | shutdown | strayMessage | strayResponse => exact ⟨hi.producer, hi.consumer⟩

/-- The mailbox is poisoned, and nobody is at work on it. -/
structure Shut (t : Machine σ) : Prop where
  lock : t.channel.mailbox.lock = .poisoned
  producer : ∀ p, (t.producers p).phase.holdsMailbox = false
  consumer : ∀ c, (t.consumers c).phase.holdsMailbox = false

theorem Shut.holding (ht : t.Shut) : t.Holding where
  producer p hp := by simp [ht.producer p] at hp
  consumer c hc := by simp [ht.consumer c] at hc

theorem Panics.shut (hi : s.Holding) (hp : s.Panics t) : t.Shut := by
  cases hp with
  | @producer p m hp =>
    have hl := hi.producer p hp
    refine ⟨rfl, ?_, fun c => hi.consumer_idle (by simp [hl])⟩
    exact forall_withProducer (P := fun _ x => x.phase.holdsMailbox = false) rfl
      fun q hq => hi.producer_idle (by simpa [hl] using hq.symm)
  | @consumer c m y hc hm hy =>
    have hl := hi.consumer c hc
    refine ⟨rfl, fun p => hi.producer_idle (by simp [hl]), ?_⟩
    refine forall_withConsumer (P := fun _ x => x.phase.holdsMailbox = false) ?_
      fun e he => hi.consumer_idle (by simpa [hl] using he.symm)
    rcases hy with hy | hy
    · rw [hy]
      rfl
    · exact ConsumerPhase.holdsMailbox_of_atRest hy
  | outsider hl =>
    exact ⟨rfl, fun p => hi.producer_idle (by simp [hl]), fun c => hi.consumer_idle (by simp [hl])⟩

theorem Holding.moves (hi : s.Holding) (hm : s.Moves d es t) : t.Holding := by
  cases hm with
  | steps hs => exact hi.step (step_inv hs)
  | panics hp => exact (hp.shut hi).holding
  | gone => exact hi.withProducer rfl rfl
  | flagged => exact ⟨hi.producer, hi.consumer⟩
  | borrowed hl | edited hl | handedBack hl =>
    -- no producer or consumer has the lock, so none is at work
    refine ⟨fun p hp => ?_, fun c hc => ?_⟩
    · have hno := hi.producer_idle (p := p) (by simp [hl])
      simp [hno] at hp
    · have hno := hi.consumer_idle (c := c) (by simp [hl])
      simp [hno] at hc

theorem Fresh.holding (hs : s.Fresh) : s.Holding where
  producer p hp := by simp [hs.idle p, ProducerPhase.holdsMailbox] at hp
  consumer c hc := by simp [hs.checking c, ConsumerPhase.holdsMailbox] at hc

end Machine

theorem Course.holding (hs : s.Fresh) (hc : Course d s h t) : t.Holding :=
  hc.preserves (I := Machine.Holding) hs.holding fun hi hm => hi.moves hm

/-- Nobody is told of what stands in the mailbox, nor writes there. -/
def Event.Barred : Event → Prop
  | .posted .. | .served .. | .collected .. => True
  | _ => False

theorem ProducerPhase.Step.shut_out {ch ch' : Channel} {x y : ProducerPhase}
    (hs : Step p ch x es y ch') (hl : ch.mailbox.lock = .poisoned) (hx : x.holdsMailbox = false) :
    y.holdsMailbox = false ∧ ch'.mailbox = ch.mailbox ∧ ∀ e ∈ es, ¬ e.Barred := by
  cases hs with
  | locked h | relocked h =>
    rw [hl] at h
    cases h
  | discarded | posted | rejected | released | collected | skipped => cases hx
  | _ => exact ⟨rfl, rfl, by simp [Event.Barred]⟩

theorem Consumer.Step.shut_out {c : Nat} {ch ch' : Channel} {x y : Consumer σ}
    (hs : Step d c ch x es y ch') (hl : ch.mailbox.lock = .poisoned)
    (hx : x.phase.holdsMailbox = false) : y.phase.holdsMailbox = false ∧
      ch'.mailbox = ch.mailbox ∧ y.dispatcher = x.dispatcher ∧ es = [] := by
  cases hs with
  | polled _ hy => exact ⟨ConsumerPhase.holdsMailbox_of_atRest hy, rfl, rfl, rfl⟩
  | took | shutOut => exact ⟨rfl, rfl, rfl, rfl⟩
  | locked _ h =>
    rw [hl] at h
    cases h
  | served hp | panicked hp | signalled hp | released hp =>
    rw [hp] at hx
    cases hx

namespace Machine

/-- What is left as it was from one machine to another, `es` having happened on the way. -/
structure Sealed (t : Machine σ) (es : List Event) (u : Machine σ) : Prop where
  shut : u.Shut
  mailbox : u.channel.mailbox = t.channel.mailbox
  dispatcher : ∀ c, (u.consumers c).dispatcher = (t.consumers c).dispatcher
  unseen : ∀ e ∈ es, ¬ e.Barred

theorem Shut.withProducer {x : Producer} {ch : Channel} (ht : t.Shut)
    (hx : x.phase.holdsMailbox = false) (hch : ch.mailbox = t.channel.mailbox)
    (hes : ∀ e ∈ es, ¬ e.Barred) : t.Sealed es { t.withProducer p x with channel := ch } := by
  refine ⟨⟨(congrArg Mailbox.lock hch).trans ht.lock, ?_, ht.consumer⟩, hch, fun _ => rfl, hes⟩
  exact forall_withProducer (P := fun _ x => x.phase.holdsMailbox = false) hx
    fun q _ => ht.producer q

theorem Shut.withConsumer {c : Nat} {y : Consumer σ} {ch : Channel} (ht : t.Shut)
    (hy : y.phase.holdsMailbox = false) (hd : y.dispatcher = (t.consumers c).dispatcher)
    (hch : ch.mailbox = t.channel.mailbox) :
    t.Sealed [] { t.withConsumer c y with channel := ch } := by
  refine ⟨⟨(congrArg Mailbox.lock hch).trans ht.lock, ht.producer, ?_⟩, hch, ?_, by simp⟩
  · exact forall_withConsumer (P := fun _ x => x.phase.holdsMailbox = false) hy
      fun e _ => ht.consumer e
  · exact forall_withConsumer (P := fun e x => x.dispatcher = (t.consumers e).dispatcher) hd
      fun _ _ => rfl

theorem Shut.step (ht : t.Shut) (hs : t.Step d a es u) : t.Sealed es u := by
  cases hs with
  | called | expired => exact ht.withProducer rfl rfl (by simp)
  | produced hx hs =>
    obtain ⟨hy, hmailbox, hes⟩ := hs.shut_out ht.lock (hx ▸ ht.producer _)
    exact ht.withProducer hy hmailbox hes
  | consumed hs =>
    obtain ⟨hy, hmailbox, hd, rfl⟩ := hs.shut_out ht.lock (ht.consumer _)
    exact ht.withConsumer hy hd hmailbox
  | turned _ _ hy hd => exact ht.withConsumer (ConsumerPhase.holdsMailbox_of_atRest hy) hd rfl
  | shutdown | strayMessage | strayResponse =>
    exact ⟨⟨ht.lock, ht.producer, ht.consumer⟩, rfl, fun _ => rfl, by simp⟩

theorem Shut.moves (ht : t.Shut) (hm : t.Moves d es u) : t.Sealed es u := by
  cases hm with
  | steps hs => exact ht.step (step_inv hs)
  | panics hp =>
    cases hp with
    | producer hp => simp [ht.producer] at hp
    | consumer hc => simp [ht.consumer] at hc
    | outsider hl => simp [ht.lock] at hl
  | gone => exact ht.withProducer rfl rfl (by simp)
  | flagged => exact ⟨⟨ht.lock, ht.producer, ht.consumer⟩, rfl, fun _ => rfl, by simp⟩
  | borrowed hl | edited hl | handedBack hl => simp [ht.lock] at hl

end Machine

theorem Course.sealed (ht : t.Shut) (hc : Course d t g u) : t.Sealed g u := by
  induction hc with
  | start => exact ⟨ht, rfl, fun _ => rfl, by simp⟩
  | next _ hm ih =>
    have hlast := ih.shut.moves hm
    refine ⟨hlast.shut, hlast.mailbox.trans ih.mailbox, fun c => ?_, fun e he => ?_⟩
    · exact (hlast.dispatcher c).trans (ih.dispatcher c)
    · exact (List.mem_append.mp he).elim (ih.unseen e) (hlast.unseen e)

/-- Where a producer can be put by what is not a step of its own. -/
def ProducerPhase.Reset : ProducerPhase → Prop
  | .idle | .sizing _ | .leaving (.error .timeout) => True
  | _ => False

/-- Whether a move is a step of producer `p`, or what it does to it otherwise. -/
def Machine.Bears (p : Nat) (t : Machine σ) (es : List Event) (u : Machine σ) : Prop :=
  (∃ ch, ProducerPhase.Step p t.channel (t.producers p).phase es (u.producers p).phase ch) ∨
    (∀ e ∈ es, ¬ e.By p) ∧
      ((u.producers p).phase = (t.producers p).phase ∨ (u.producers p).phase.Reset)

theorem Machine.Step.bears (hs : t.Step d a es u) (p : Nat) : t.Bears p es u := by
  by_cases ha : a.Leaves p
  · cases hs.touches ha with
    | spares hp hes => exact .inr ⟨hes, .inl (by rw [hp])⟩
    | own y ch hy _ hs => exact .inl ⟨ch, hy ▸ hs⟩
    | cutsShort r q _ hy hes =>
      rw [hes]
      exact .inr ⟨by simp, .inr (by rw [hy]; trivial)⟩
  · cases hs with
    | @called e r limit =>
      obtain rfl : e = p := not_not.mp ha
      exact .inr ⟨by simp, .inr (by rw [withProducer_self]; trivial)⟩
    | turned hc => rcases hc with rfl | rfl | rfl <;> exact absurd trivial ha
    | _ => exact absurd trivial ha

theorem Machine.bears_withProducer_idle {e : Nat} (t : Machine σ) (p : Nat) :
    ((t.withProducer e ⟨none, .idle⟩).producers p).phase = (t.producers p).phase ∨
      ((t.withProducer e ⟨none, .idle⟩).producers p).phase.Reset :=
  forall_withProducer (P := fun q x => x.phase = (t.producers q).phase ∨ x.phase.Reset)
    (.inr (show ProducerPhase.Reset .idle from trivial)) (fun _ _ => .inl rfl) p

theorem Machine.Moves.bears (hm : t.Moves d es u) (p : Nat) : t.Bears p es u := by
  cases hm with
  | steps hs => exact (step_inv hs).bears p
  | panics hp =>
    refine .inr ⟨by simp, ?_⟩
    cases hp with
    | producer => exact t.bears_withProducer_idle p
    | consumer | outsider => exact .inl rfl
  | gone => exact .inr ⟨by simp, t.bears_withProducer_idle p⟩
  | flagged | borrowed | edited | handedBack => exact .inr ⟨by simp, .inl rfl⟩

/-- The failures of a round trip itself. -/
def Outcome.Failed (x : Outcome Exchanged) : Prop :=
  x = .error .badBufferSize ∨ x = .error .aborted ∨ x = .error .timeout

namespace ProducerPhase

/-- No answer has been brought back. -/
def Unanswered : ProducerPhase → Prop
  | .leaving x | .done x => Outcome.Failed x
  | _ => True

def Settled : ProducerPhase → Prop
  | .leaving x | .done x => (∃ w, x = .ok w) ∨ Outcome.Failed x
  | _ => True

end ProducerPhase

theorem error_of_requireHeader {size : Nat} {payload : Bytes} {e : Failure}
    (h : requireHeader size payload = .error e) : e = .badBufferSize := by
  unfold requireHeader at h
  split at h <;> cases h
  rfl

theorem error_of_takeExactly {length : Nat} {tail : Bytes} {e : Failure}
    (h : takeExactly length tail = .error e) : e = .badBufferSize := by
  unfold takeExactly at h
  split at h <;> cases h
  rfl

theorem Outcome.error_bind {α β : Type} {x : Outcome α} {f : α → Outcome β} {e : Failure}
    (h : (x >>= f) = .error e) : x = .error e ∨ ∃ a, x = .ok a ∧ f a = .error e := by
  cases x with
  | error e' =>
    cases h
    exact .inl rfl
  | ok a => exact .inr ⟨a, rfl, h⟩

/-- A payload that is too short is all that can keep a response from being read. -/
theorem Response.error_of_decode {f : FunctionCode} {m : Region} {e : Failure}
    (h : decode f m = .error e) : e = .badBufferSize := by
  unfold decode at h
  split at h
  · rcases Outcome.error_bind h with hh | ⟨-, -, h⟩
    · exact error_of_requireHeader hh
    · rcases Outcome.error_bind h with ht | ⟨_, -, h⟩
      · exact error_of_takeExactly ht
      · cases h
  · rcases Outcome.error_bind h with hh | ⟨-, -, h⟩
    · exact error_of_requireHeader hh
    · rcases Outcome.error_bind h with ht | ⟨_, -, h⟩
      · exact error_of_takeExactly ht
      · rcases Outcome.error_bind h with ht | ⟨_, -, h⟩
        · exact error_of_takeExactly ht
        · cases h
  · cases h

theorem Region.collect_settled (f : FunctionCode) (m : Region) :
    (∃ w, m.collect f = .ok w) ∨ Outcome.Failed (m.collect f) := by
  unfold collect
  split
  · exact .inl ⟨_, rfl⟩
  · next e he =>
    split
    · exact .inl ⟨_, rfl⟩
    · rw [Response.error_of_decode he]
      exact .inr (.inl rfl)

namespace ProducerPhase

variable {ch ch' : Channel} {x y : ProducerPhase}

theorem Reset.unanswered (hx : x.Reset) : x.Unanswered := by
  cases x with
  | idle | sizing => trivial
  | leaving result =>
    cases result with
    | ok => exact hx.elim
    | error e =>
      cases e with
      | timeout => exact .inr (.inr rfl)
      | _ => exact hx.elim
  | _ => exact hx.elim

theorem Unanswered.settled (hx : x.Unanswered) : x.Settled := by
  cases x with
  | leaving | done => exact .inr hx
  | _ => trivial

theorem Settled.unanswered (hx : x.Settled)
    (hno : ∀ w, x ≠ .leaving (.ok w) ∧ x ≠ .done (.ok w)) : x.Unanswered := by
  cases x with
  | leaving result =>
    rcases hx with ⟨w, rfl⟩ | hfail
    · exact absurd rfl (hno w).1
    · exact hfail
  | done result =>
    rcases hx with ⟨w, rfl⟩ | hfail
    · exact absurd rfl (hno w).2
    · exact hfail
  | _ => trivial

theorem Step.settled (hs : Step p ch x es y ch') (hx : x.Settled) : y.Settled := by
  cases hs with
  | oversized => exact .inr (.inl rfl)
  | turnedAway | shutOut | reshutOut => exact .inr (.inr (.inl rfl))
  | rejected h =>
    obtain ⟨rfl, -⟩ := Region.refused_of_post h
    exact .inr (.inl rfl)
  | collected => exact Region.collect_settled _ _
  | returned => exact hx
  | _ => trivial

/-- Without the mailbox there is no way to an answer. -/
theorem Step.unanswered (hs : Step p ch x es y ch') (hm : x.holdsMailbox = false)
    (hx : x.Unanswered) : y.Unanswered ∧ ∀ result, .returned p result ∈ es → result.Failed := by
  cases hs with
  | oversized => exact ⟨.inl rfl, by simp⟩
  | turnedAway | shutOut | reshutOut => exact ⟨.inr (.inl rfl), by simp⟩
  | returned =>
    refine ⟨hx, fun result hr => ?_⟩
    cases List.mem_singleton.mp hr
    exact hx
  | discarded | posted | rejected | released | collected | skipped => cases hm
  | _ => exact ⟨trivial, by simp⟩

theorem Step.signals (hs : Step p ch x es y ch') (hm : x.holdsMailbox = false) :
    (∀ r q, .signalled p r q ∈ es → x = .signalling r q) ∧ ∀ r q, y ≠ .signalling r q := by
  cases hs with
  | @signalled r q =>
    refine ⟨fun r' q' he => ?_, by simp⟩
    cases List.mem_singleton.mp he
    rfl
  | discarded | posted | rejected | released | collected | skipped => cases hm
  | _ => exact ⟨by simp, nofun⟩

end ProducerPhase

theorem Course.settled (hs : s.Fresh) (hc : Course d s h t) (p : Nat) :
    (t.producers p).phase.Settled := by
  refine hc.preserves (I := fun t => (t.producers p).phase.Settled) ?_ fun hi hm => ?_
  · rw [hs.idle p]
    trivial
  rcases hm.bears p with ⟨ch, hs⟩ | ⟨-, hsame | hreset⟩
  · exact hs.settled hi
  · rwa [hsame]
  · exact hreset.unanswered.settled

/-- A producer that has no answer in a shut machine comes to no answer. -/
theorem Course.unanswered (ht : t.Shut) (hc : Course d t g u)
    (hp : (t.producers p).phase.Unanswered) :
    (u.producers p).phase.Unanswered ∧ ∀ result, .returned p result ∈ g → result.Failed := by
  induction hc with
  | start => exact ⟨hp, by simp⟩
  | next hc hm ih =>
    have hidle := (hc.sealed ht).shut.producer p
    rcases hm.bears p with ⟨ch, hs⟩ | ⟨hes, hsame⟩
    · obtain ⟨hu, hfail⟩ := hs.unanswered hidle ih.1
      exact ⟨hu, fun x hx => (List.mem_append.mp hx).elim (ih.2 x) (hfail x)⟩
    · refine ⟨?_, fun x hx => ?_⟩
      · rcases hsame with hsame | hreset
        · rw [hsame]
          exact ih.1
        · exact hreset.unanswered
      · rcases List.mem_append.mp hx with hx | hx
        · exact ih.2 x hx
        · exact absurd rfl (hes _ hx)

/-- Only a signal that was due already comes in a shut machine. -/
theorem Course.signals (ht : t.Shut) (hc : Course d t g u) :
    (∀ r q, .signalled p r q ∈ g → (t.producers p).phase = .signalling r q) ∧
      ∀ r q, (u.producers p).phase = .signalling r q → (t.producers p).phase = .signalling r q := by
  induction hc with
  | start => exact ⟨by simp, fun _ _ => id⟩
  | next hc hm ih =>
    obtain ⟨hpast, hdue⟩ := ih
    rcases hm.bears p with ⟨ch, hs⟩ | ⟨hes, hsame⟩
    · obtain ⟨hsig, hno⟩ := hs.signals ((hc.sealed ht).shut.producer p)
      refine ⟨fun r q he => ?_, fun r q hy => absurd hy (hno r q)⟩
      rcases List.mem_append.mp he with he | he
      · exact hpast r q he
      · exact hdue r q (hsig r q he)
    · refine ⟨fun r q he => ?_, fun r q hy => ?_⟩
      · rcases List.mem_append.mp he with he | he
        · exact hpast r q he
        · exact absurd rfl (hes _ he)
      · rcases hsame with hsame | hreset
        · exact hdue r q (hsame ▸ hy)
        · rw [hy] at hreset
          exact hreset.elim

theorem Mailbox.acquire_poisoned {m : Mailbox} (hl : m.lock = .poisoned) (b : Actor) :
    m.acquire b = some (.error .aborted, m) ∧ m.tryAcquire b = (.error .aborted, m) := by
  have ha : m.acquire b = some (.error .aborted, m) := by simp [acquire, hl]
  exact ⟨ha, by simp [tryAcquire, ha]⟩

/-- What is true of a machine `u` and of the history `g` that led there from `t`, when a panic had
left the mailbox poisoned in `t₀`, in `t` or before. -/
structure Machine.KeptShut (d : Dispatcher σ) (t₀ t : Machine σ) (g : List Event) (u : Machine σ) :
    Prop where
  mailbox : u.channel.mailbox = t₀.channel.mailbox
  /-- Whoever wants the mailbox is told so at once. -/
  aborted : ∀ b, u.channel.mailbox.acquire b = some (.error .aborted, u.channel.mailbox) ∧
    u.channel.mailbox.tryAcquire b = (.error .aborted, u.channel.mailbox)
  unseen : ∀ e ∈ g, ¬ e.Barred
  dispatcher : ∀ c, (u.consumers c).dispatcher = (t₀.consumers c).dispatcher ∧
    (u.consumers c).phase ≠ .answering
  woken : ∀ c, (u.consumers c).phase = .woken → ∃ w, u.step d (.consume c) = some w ∧
    (w.consumers c).phase = .stopped (.error .aborted)
  /-- A signal comes only from a producer that had posted and released before. -/
  signals : ∀ p r q, .signalled p r q ∈ g → (t.producers p).phase = .signalling r q
  /-- An answer comes only from a producer that had read it before. -/
  answers : ∀ p, (∀ w, (t.producers p).phase ≠ .leaving (.ok w) ∧
      (t.producers p).phase ≠ .done (.ok w)) →
    ∀ result, .returned p result ∈ g ∨ (u.producers p).phase = .done result → result.Failed

/-- From the moment a thread panics with the mailbox in hand it is shut, at any moment after. -/
theorem Machine.Panics.stays_shut {v t₀ : Machine σ} {h₀ h g : List Event} (hs : s.Fresh)
    (hv : Course d s h₀ v) (hp : v.Panics t₀) (ht : Course d t₀ h t) (hu : Course d t g u) :
    KeptShut d t₀ t g u := by
  have hshut₀ := hp.shut (hv.holding hs)
  have hshut := (ht.sealed hshut₀).shut
  have hseal := (ht.trans hu).sealed hshut₀
  constructor
  case mailbox => exact hseal.mailbox
  case aborted => exact Mailbox.acquire_poisoned hseal.shut.lock
  case unseen => exact (hu.sealed hshut).unseen
  case dispatcher =>
    refine fun c => ⟨hseal.dispatcher c, fun hc => ?_⟩
    have hidle := hseal.shut.consumer c
    rw [hc] at hidle
    cases hidle
  case woken =>
    intro c hc
    obtain ⟨hstep, -⟩ := step_consume (d := d) (by simp [hc]) (.shutOut hc hseal.shut.lock)
    exact ⟨_, hstep, by simp⟩
  case signals => exact fun p => (hu.signals hshut).1
  case answers =>
    intro p hno result hr
    have hset := ((hv.next (.panics hp)).trans ht).settled hs p
    obtain ⟨hphase, hback⟩ := hu.unanswered hshut (hset.unanswered hno)
    rcases hr with hr | hr
    · exact hback result hr
    · rw [hr] at hphase
      exact hphase

theorem Machine.panics_of_dispatcher {c : Nat} (hx : (s.consumers c).phase = .answering)
    (hd : (d.answer s.channel.mailbox.region (s.consumers c).dispatcher).1 = none)
    (hs : s.step d (.consume c) = some t) : s.Panics t := by
  have hstep := step_inv hs
  generalize s.events d (.consume c) = es at hstep
  cases hstep with
  | consumed hc =>
    cases hc with
    | served _ hn => simp [hn] at hd
    | panicked => exact .consumer (by rw [hx]; rfl) rfl (.inl rfl)
    | polled hy | took hy | locked hy | shutOut hy | signalled hy | released hy =>
      rw [hx] at hy
      cases hy
  | turned ha => simp at ha

theorem Course.of_run {allowed : Action → Prop} (hr : Run d allowed s h t) : Course d s h t := by
  induction hr with
  | start => exact .start
  | next _ _ hs ih => exact ih.next (.steps hs)

def Dispatcher.panicking : Dispatcher Unit where
  installPackage _ y := (.panicked, y)
  enumerateHandlers y := (.panicked, y)
  invokeHandler _ _ y := (.panicked, y)
  uninstallModule _ y := (.panicked, y)
  debugInfo _ y := (.panicked, y)

theorem Machine.Panics.stays_shut_sample : ∃ v t u : Machine Unit, v.Panics t ∧
    KeptShut .panicking t t [.returned 0 (.error .timeout)] u := by
  let d := Dispatcher.panicking
  let s := Machine.initial .smallest ()
  let r := Request.enumerateHandlers
  let before : List Action :=
    .call 0 r (some 1) :: (List.replicate 8 (.produce 0) ++ List.replicate 3 (.consume 0))
  let behind : List Action := [.expire 0, .produce 0, .strayMessage, .consume 1, .consume 1]
  have hplay : ∃ h v t u, s.play d before = some (h, v) ∧ (v.consumers 0).phase = .answering ∧
      (d.answer v.channel.mailbox.region (v.consumers 0).dispatcher).1 = none ∧
      v.step d (.consume 0) = some t ∧
      t.play d behind = some ([.returned 0 (.error .timeout)], u) :=
    ⟨_, _, _, _, rfl, rfl, rfl, rfl, rfl⟩
  obtain ⟨h, v, t, u, hv, hx, hd, ht, hu⟩ := hplay
  have hpanic := panics_of_dispatcher hx hd ht
  have hbefore := Course.of_run (Run.of_play (fun _ _ => trivial) hv)
  have hbehind := Course.of_run (Run.of_play (fun _ _ => trivial) hu)
  have hfresh : s.Fresh := Machine.fresh_smallest ()
  exact ⟨v, t, u, hpanic, Machine.Panics.stays_shut hfresh hbefore hpanic .start hbehind⟩

end FirmwareHost
