import FirmwareHost.Proofs.Provenance

/-! The handshake of one consumer with its producers. The flags carry no identity, and yet a token
is never lost: what a producer waits for is under way as long as it has not been given. -/

namespace FirmwareHost

variable {σ : Type} {d : Dispatcher σ} {s t u : Machine σ} {a : Action} {h es : List Event}

def Region.Answered (m : Region) : Prop := m.header.answeredSequence = m.header.requestSequence

theorem Region.posted_not_answered {r : Request} {q : UInt64} {capacity : Nat} (h : q ≠ 0) :
    ¬(posted r q capacity).Answered := Ne.symm h

theorem Dispatcher.answered_of_answer {m n : Region} {y z : σ} (h : d.answer m y = (some n, z)) :
    n.Answered :=
  (header_of_answer h).2.2.trans (header_of_answer h).2.1.symm

/-- Whether a consumer in this phase has taken a token that it has not answered yet. -/
def ConsumerPhase.hasToken : ConsumerPhase → Bool
  | .woken | .answering => true
  | _ => false

theorem ConsumerPhase.hasToken_of_atRest {y : ConsumerPhase} (h : y.atRest = true) :
    y.hasToken = false := by
  cases y with
  | checking | waiting | stopped => rfl
  | _ => cases h

/-- An answer is to be signalled or has been. -/
def Channel.Announced (ch : Channel) (y : ConsumerPhase) : Prop :=
  y = .signalling ∨ ch.responseReady.isSet = true

/-- A message is to be taken or has been, and not been answered. -/
def Channel.Noticed (ch : Channel) (y : ConsumerPhase) : Prop :=
  ch.messageReady.isSet = true ∨ y.hasToken = true

namespace ProducerPhase

/-- What a producer can rely on in each phase. -/
def Relies (ch : Channel) (y : ConsumerPhase) : ProducerPhase → Prop
  | .writing .. => ch.responseReady.isSet = false
  | .releasing .. | .signalling .. => ch.mailbox.region.Answered → ch.Announced y
  | .waiting .. => (ch.mailbox.region.Answered → ch.Announced y) ∧
      (¬ch.mailbox.region.Answered → ch.Noticed y)
  | .woken .. | .reading .. => ch.mailbox.region.Answered
  | .leaving _ => ¬ch.mailbox.region.Answered → ch.Noticed y
  | _ => True

/-- The part of it that does not need the messages: what the response flag tells. -/
def Expects (ch : Channel) : ProducerPhase → Prop
  | .writing .. => ch.responseReady.isSet = false
  | .woken .. | .reading .. => ch.mailbox.region.Answered
  | _ => True

theorem Relies.expects {ch : Channel} {y : ConsumerPhase} {x : ProducerPhase}
    (hx : x.Relies ch y) : x.Expects ch := by
  cases x with
  | writing | woken | reading => exact hx
  | _ => trivial

theorem relies_of_not_holdsInFlight {ch : Channel} {y : ConsumerPhase} {x : ProducerPhase}
    (h : x.holdsInFlight = false) : x.Relies ch y := by
  cases x with
  | idle | sizing | queueing | done => trivial
  | _ => cases h

/-- What a producer relies on outlasts a step that leaves answers answered and takes back neither
an announcement nor a notice. -/
theorem Relies.imp {ch ch' : Channel} {y y' : ConsumerPhase} {x : ProducerPhase}
    (hx : x.Relies ch y)
    (hflag : x.holdsMailbox = true → ch'.responseReady = ch.responseReady)
    (hkept : ch.mailbox.region.Answered → ch'.mailbox.region.Answered)
    (hann : ch'.mailbox.region.Answered → (ch.mailbox.region.Answered → ch.Announced y) →
      ch'.Announced y')
    (hnot : ¬ch'.mailbox.region.Answered → ch.Noticed y → ch'.Noticed y') :
    x.Relies ch' y' := by
  cases x with
  | writing => simpa [Relies, hflag rfl] using hx
  | releasing | signalling => exact fun ha => hann ha hx
  | waiting => exact ⟨fun ha => hann ha hx.1, fun hn => hnot hn (hx.2 fun ha => hn (hkept ha))⟩
  | woken | reading => exact hkept hx
  | leaving => exact fun hn => hnot hn (hx fun ha => hn (hkept ha))
  | _ => trivial

theorem Relies.of_atRest {ch : Channel} {y y' : ConsumerPhase} {x : ProducerPhase}
    (hx : x.Relies ch y) (hy : y.atRest = true) : x.Relies ch y' := by
  refine hx.imp (fun _ => rfl) id (fun ha h => .inr ((h ha).resolve_left ?_))
    fun _ h => .inl (h.resolve_right ?_)
  · rintro rfl
    cases hy
  · simp [ConsumerPhase.hasToken_of_atRest hy]

theorem Step.relies {p : Nat} {ch ch' : Channel} {x x' : ProducerPhase} {y : ConsumerPhase}
    (hs : Step p ch x es x' ch') (hx : x.Relies ch y) (hnum : x.Numbered)
    (hopen : ch.mailbox.lock ≠ .poisoned)
    (hr : ch.responseReady.isSet = true → ch.mailbox.region.Answered)
    (hq : ∀ {r q}, x.Carries r q → ch.mailbox.region.header.requestSequence = q) :
    x'.Relies ch' y := by
  cases hs with
  | oversized | sized | turnedAway | admitted | numbered | locked | returned => trivial
  | shutOut hl => exact absurd hl hopen
  | discarded => exact rfl
  | posted hm =>
    obtain ⟨-, -, rfl⟩ := Region.posted_of_post hm
    exact fun ha => absurd ha (Region.posted_not_answered hnum)
  | rejected hm =>
    obtain ⟨-, rfl, -⟩ := Region.refused_of_post hm
    exact fun ha => absurd (Region.sequences_refused _ _) ha
  | released => exact hx
  | signalled => exact ⟨hx, fun _ => .inl rfl⟩
  | woke h => exact hr h
  | relocked => exact hx
  | reshutOut hl => exact absurd hl hopen
  | collected => exact fun ha => absurd hx ha
  | skipped ha => exact absurd (hx.trans (hq ⟨rfl, rfl⟩)) ha

end ProducerPhase

theorem Consumer.Step.relies {c : Nat} {ch ch' : Channel} {x : ProducerPhase} {y z : Consumer σ}
    (hs : Consumer.Step d c ch y es z ch') (hx : x.Relies ch y.phase) (hd : d.Calm)
    (hopen : ch.mailbox.lock ≠ .poisoned)
    (hex : x.holdsMailbox = true → y.phase.holdsMailbox = false) :
    x.Relies ch' z.phase := by
  cases hs with
  | polled hy => exact hx.of_atRest (by rw [hy]; rfl)
  | took hy =>
    exact hx.imp (fun _ => rfl) id (fun ha h => .inr ((h ha).resolve_left (by simp [hy])))
      fun _ _ => .inr rfl
  | locked hy =>
    exact hx.imp (fun _ => rfl) id (fun ha h => .inr ((h ha).resolve_left (by simp [hy])))
      fun _ _ => .inr rfl
  | shutOut _ hl => exact absurd hl hopen
  | served hy hn =>
    have ha := Dispatcher.answered_of_answer hn
    exact hx.imp (fun _ => rfl) (fun _ => ha) (fun _ _ => .inl rfl) fun hna => absurd ha hna
  | panicked _ hn => exact absurd hn hd.answer_ne_none
  | signalled hy =>
    refine hx.imp (fun hm => ?_) id (fun _ _ => .inr rfl)
      fun _ h => .inl (h.resolve_right (by simp [hy, ConsumerPhase.hasToken]))
    have hno := hex hm
    rw [hy] at hno
    cases hno
  | released hy =>
    exact hx.imp (fun _ => rfl) id (fun ha h => .inr ((h ha).resolve_left (by simp [hy])))
      fun _ h => .inl (h.resolve_right (by simp [hy, ConsumerPhase.hasToken]))

/-- What holds of the flags and the mailbox whatever the producers do. -/
structure Handshake (t : Machine σ) : Prop where
  unpoisoned : t.channel.mailbox.lock ≠ .poisoned
  calm : (t.consumers 0).phase ≠ .panicked
  alone : ∀ c, c ≠ 0 → (t.consumers c).phase = .checking
  stamped : (t.consumers 0).phase = .signalling ∨ (t.consumers 0).phase = .releasing →
    t.channel.mailbox.region.Answered
  response : t.channel.responseReady.isSet = true → t.channel.mailbox.region.Answered
  relies : ∀ p, (t.producers p).phase.Relies t.channel (t.consumers 0).phase

theorem ProducerPhase.Step.region {p : Nat} {ch ch' : Channel} {x y : ProducerPhase}
    (hs : Step p ch x es y ch') :
    ch'.mailbox.region = ch.mailbox.region ∨ x.holdsMailbox = true := by
  cases hs with
  | posted | rejected => exact .inr rfl
  | _ => exact .inl rfl

theorem ProducerPhase.Step.response {p : Nat} {ch ch' : Channel} {x x' : ProducerPhase}
    (hs : Step p ch x es x' ch') (hx : x.Expects ch)
    (hr : ch.responseReady.isSet = true → ch.mailbox.region.Answered)
    (h : ch'.responseReady.isSet = true) : ch'.mailbox.region.Answered := by
  cases hs with
  | discarded | woke => cases h
  | posted =>
    rw [show ch.responseReady.isSet = false from hx] at h
    cases h
  | rejected hm =>
    obtain ⟨-, rfl, -⟩ := Region.refused_of_post hm
    exact Region.sequences_refused _ _
  | _ => exact hr h

theorem Handshake.produced (hi : Handshake t) (hp : Pending h t) {p : Nat} {x y : ProducerPhase}
    (hq : ∀ {r q}, x.Carries r q → t.channel.mailbox.region.header.requestSequence = q)
    {ch : Channel} (hx : (t.producers p).phase = x)
    (hs : ProducerPhase.Step p t.channel x es y ch) :
    Handshake { t.withProducer p ⟨(t.producers p).limit, y⟩ with channel := ch } where
  unpoisoned := by
    cases hs with
    | locked | relocked | rejected | released | collected | skipped => nofun
    | _ => exact hi.unpoisoned
  calm := hi.calm
  alone := hi.alone
  stamped hy := by
    rcases hs.region with hm | hm
    · exact hm ▸ hi.stamped hy
    · -- The consumer and the producer would both hold the mailbox.
      have hno := hp.exclusive.consumer_of_producer 0 (hx ▸ hm)
      rcases hy with hy | hy <;> simp [show (t.consumers 0).phase = _ from hy,
        ConsumerPhase.holdsMailbox] at hno
  response h := hs.response (hx ▸ (hi.relies p).expects) hi.response h
  relies := by
    intro e
    by_cases he : e = p
    · subst he
      rw [Machine.withProducer_self]
      exact hs.relies (hx ▸ hi.relies e) (hx ▸ hp.numbered e) hi.unpoisoned hi.response hq
    · rw [Machine.withProducer_ne _ _ he]
      cases hin : (t.producers e).phase.holdsInFlight with
      | false => exact ProducerPhase.relies_of_not_holdsInFlight hin
      | true =>
        obtain ⟨-, rfl⟩ := hp.exclusive.still_of_inFlight hin he (hx ▸ hs)
        exact hi.relies e

theorem Handshake.consumed (hi : Handshake t) (hex : t.Exclusive) (hd : d.Calm)
    {y : Consumer σ} {ch : Channel}
    (hs : Consumer.Step d 0 t.channel (t.consumers 0) es y ch) :
    Handshake { t.withConsumer 0 y with channel := ch } where
  unpoisoned := by
    cases hs with
    | locked | released => nofun
    | panicked _ hn => exact absurd hn hd.answer_ne_none
    | _ => exact hi.unpoisoned
  calm := by
    rw [Machine.withConsumer_self]
    cases hs with
    | panicked _ hn => exact absurd hn hd.answer_ne_none
    | polled _ hy =>
      rintro rfl
      cases hy
    | _ => nofun
  alone c hc := by
    rw [Machine.withConsumer_ne _ _ hc]
    exact hi.alone c hc
  stamped hy := by
    rw [Machine.withConsumer_self] at hy
    cases hs with
    | polled _ hz => rcases hy with rfl | rfl <;> cases hz
    | served _ hn => exact Dispatcher.answered_of_answer hn
    | signalled hz => exact hi.stamped (.inl hz)
    | _ => rcases hy with hy | hy <;> cases hy
  response h := by
    cases hs with
    | served _ hn => exact Dispatcher.answered_of_answer hn
    | signalled hz => exact hi.stamped (.inl hz)
    | _ => exact hi.response h
  relies p := by
    rw [Machine.withConsumer_self]
    exact hs.relies (hi.relies p) hd hi.unpoisoned fun hm => hex.consumer_of_producer 0 hm

theorem Handshake.withProducer (hi : Handshake t) {p : Nat} {x : Producer}
    (hx : x.phase.Relies t.channel (t.consumers 0).phase) : Handshake (t.withProducer p x) where
  unpoisoned := hi.unpoisoned
  calm := hi.calm
  alone := hi.alone
  stamped := hi.stamped
  response := hi.response
  relies e := by
    by_cases he : e = p
    · subst he
      rw [Machine.withProducer_self]
      exact hx
    · rw [Machine.withProducer_ne _ _ he]
      exact hi.relies e

theorem Handshake.turned (hi : Handshake t) {y : Consumer σ}
    (hx : (t.consumers 0).phase.atRest = true) (hy : y.phase.atRest = true) :
    Handshake (t.withConsumer 0 y) where
  unpoisoned := hi.unpoisoned
  calm := by
    rw [Machine.withConsumer_self]
    rintro hp
    rw [hp] at hy
    cases hy
  alone c hc := by
    rw [Machine.withConsumer_ne _ _ hc]
    exact hi.alone c hc
  stamped hz := by
    rw [Machine.withConsumer_self] at hz
    rcases hz with hz | hz <;> rw [hz] at hy <;> cases hy
  response := hi.response
  relies p := (hi.relies p).of_atRest hx

theorem Handshake.step (hi : Handshake t) (hd : d.Calm) (hp : Pending h t)
    (hq : ∀ {p r q}, (t.producers p).phase.Carries r q →
      t.channel.mailbox.region.header.requestSequence = q)
    (ha : a.Solo) (hs : t.Step d a es u) : Handshake u := by
  cases hs with
  | called => exact hi.withProducer trivial
  | produced hx hs => exact hi.produced hp (fun hc => hq (hx ▸ hc)) hx hs
  | @expired p r q limit hx =>
    have hw := hi.relies p
    rw [hx] at hw
    exact hi.withProducer hw.2
  | consumed hs =>
    obtain rfl := ha
    exact hi.consumed hp.exclusive hd hs
  | @turned a c y hc hx hy =>
    obtain rfl := ha.turned hc
    exact hi.turned hx hy
  | shutdown => exact ⟨hi.unpoisoned, hi.calm, hi.alone, hi.stamped, hi.response, hi.relies⟩
  | strayMessage | strayResponse => exact ha.elim

theorem Machine.Fresh.handshake (hs : s.Fresh) : Handshake s := by
  obtain ⟨capacity, -, hch⟩ := hs.channel_eq
  constructor
  · simp [hch]
  · simp [hs.checking 0]
  · exact fun c _ => hs.checking c
  · simp [hs.checking 0]
  · simp [hch, ReadyFlag.initial]
  · intro p
    rw [hs.idle p]
    trivial

theorem Run.handshake (hs : s.Fresh) (hd : d.Calm) (hr : Run d Action.Solo s h t) :
    Handshake t := by
  induction hr with
  | start => exact hs.handshake
  | next hr ha hstep ih =>
    exact ih.step hd (hr.pending hs) (hr.requestSequence hs) ha (Machine.step_inv hstep)

end FirmwareHost
