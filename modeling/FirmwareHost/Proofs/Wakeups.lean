import FirmwareHost.Proofs.Handshake

/-! No wake-up is lost. A producer that has signalled its request is never left waiting for a
consumer that waits for it. -/

namespace FirmwareHost

variable {σ : Type} {d : Dispatcher σ} {s t u : Machine σ} {a : Action} {h es : List Event}

/-- The phases of a producer between its signal and its return. -/
def ProducerPhase.HasSignalled (r : Request) (q : UInt64) : ProducerPhase → Prop
  | .waiting r' q' | .woken r' q' | .reading r' q' => r' = r ∧ q' = q
  | .leaving _ => True
  | _ => False

theorem ProducerPhase.HasSignalled.holdsInFlight {r : Request} {q : UInt64} {x : ProducerPhase}
    (h : x.HasSignalled r q) : x.holdsInFlight = true := by
  cases x with
  | waiting | woken | reading | leaving => rfl
  | _ => exact absurd h id

theorem ProducerPhase.Step.hasSignalled {p : Nat} {ch ch' : Channel} {x y : ProducerPhase}
    {r : Request} {q : UInt64} (hs : Step p ch x es y ch') (hx : x.HasSignalled r q)
    (hes : ∀ v, .returned p v ∉ es) :
    y.HasSignalled r q ∧ ch'.mailbox.region = ch.mailbox.region ∧
      (.woke p ∈ es ∨ ch'.responseReady = ch.responseReady) := by
  cases hs with
  | woke => exact ⟨hx, rfl, .inl (List.mem_singleton_self _)⟩
  | relocked | skipped => exact ⟨hx, rfl, .inr rfl⟩
  | reshutOut | collected => exact ⟨trivial, rfl, .inr rfl⟩
  | returned => exact absurd (List.mem_singleton_self _) (hes _)
  | _ => exact absurd hx id

/-- From a signal until the return: the mailbox keeps the request's number, and until the producer
has woken an answer in the mailbox is announced. -/
structure Awaited (p : Nat) (r : Request) (q : UInt64) (since : List Event) (t : Machine σ) :
    Prop where
  phase : (t.producers p).phase.HasSignalled r q
  numbered : t.channel.mailbox.region.header.requestSequence = q
  announced : .woke p ∈ since ∨
    (t.channel.mailbox.region.Answered → t.channel.Announced (t.consumers 0).phase)

variable {p : Nat} {r : Request} {q : UInt64} {since : List Event}

/-- What others do leaves the phase and the number, and takes back no announcement. -/
theorem Awaited.keep (hi : Awaited p r q since t)
    (hphase : (u.producers p).phase.HasSignalled r q)
    (hnumber : u.channel.mailbox.region.header.requestSequence =
      t.channel.mailbox.region.header.requestSequence)
    (hann : (t.channel.mailbox.region.Answered → t.channel.Announced (t.consumers 0).phase) →
      u.channel.mailbox.region.Answered → u.channel.Announced (u.consumers 0).phase) :
    Awaited p r q (since ++ es) u :=
  ⟨hphase, hnumber.trans hi.numbered, hi.announced.imp (List.mem_append_left _) hann⟩

theorem Awaited.produced (hi : Awaited p r q since t) (hex : t.Exclusive) {e : Nat}
    {x y : ProducerPhase} {ch : Channel} (hx : (t.producers e).phase = x)
    (hs : ProducerPhase.Step e t.channel x es y ch) (hes : ∀ v, .returned p v ∉ es) :
    Awaited p r q (since ++ es)
      { t.withProducer e ⟨(t.producers e).limit, y⟩ with channel := ch } := by
  by_cases he : p = e
  · subst he
    obtain ⟨hy, hregion, hr⟩ := hs.hasSignalled (hx ▸ hi.phase) hes
    refine ⟨by rwa [Machine.withProducer_self], hregion ▸ hi.numbered, ?_⟩
    rcases hr with hr | hr
    · exact .inl (List.mem_append_right _ hr)
    · refine hi.announced.imp (List.mem_append_left _) fun h => ?_
      simpa [Channel.Announced, hregion, hr] using h
  · obtain ⟨rfl, rfl⟩ := hex.still_of_inFlight hi.phase.holdsInFlight he (hx ▸ hs)
    exact hi.keep (by rw [Machine.withProducer_ne _ _ he]; exact hi.phase) rfl id

theorem Awaited.consumed (hi : Awaited p r q since t) (hand : Handshake t) (hd : d.Calm)
    {y : Consumer σ} {ch : Channel}
    (hs : Consumer.Step d 0 t.channel (t.consumers 0) es y ch) :
    Awaited p r q (since ++ es) { t.withConsumer 0 y with channel := ch } := by
  refine hi.keep hi.phase ?_ fun h => ?_
  · cases hs with
    | served _ hn => exact (Dispatcher.header_of_answer hn).2.1
    | _ => rfl
  · -- A producer that is about to signal relies on no more than the announcement.
    rw [Machine.withConsumer_self]
    exact hs.relies (x := .signalling r q) h hd hand.unpoisoned nofun

theorem Awaited.step (hi : Awaited p r q since t) (hex : t.Exclusive) (hand : Handshake t)
    (hd : d.Calm) (ha : a.Solo) (hs : t.Step d a es u) (hes : ∀ v, .returned p v ∉ es) :
    Awaited p r q (since ++ es) u := by
  cases hs with
  | @called e r' limit he =>
    have hne : p ≠ e := by
      rintro rfl
      simp [hi.phase.holdsInFlight] at he
    exact hi.keep (by rw [Machine.withProducer_ne _ _ hne]; exact hi.phase) rfl id
  | produced hx hs => exact hi.produced hex hx hs hes
  | @expired e r' q' limit he =>
    refine hi.keep ?_ rfl id
    by_cases hpe : p = e
    · subst hpe
      rw [Machine.withProducer_self]
      trivial
    · rw [Machine.withProducer_ne _ _ hpe]
      exact hi.phase
  | consumed hs =>
    obtain rfl := ha
    exact hi.consumed hand hd hs
  | @turned a c y hc hx =>
    obtain rfl := ha.turned hc
    refine hi.keep hi.phase rfl fun h => ?_
    exact ProducerPhase.Relies.of_atRest (x := .signalling r q) h hx
  | shutdown => exact hi.keep hi.phase rfl id
  | strayMessage | strayResponse => exact ha.elim

/-- A signal is awaited from the step that makes it. -/
theorem Handshake.awaited (hi : Handshake t)
    (hq : ∀ {p r q}, (t.producers p).phase.Carries r q →
      t.channel.mailbox.region.header.requestSequence = q)
    (hs : t.Step d a [.signalled p r q] u) : Awaited p r q [] u := by
  cases hs with
  | produced hx hs =>
    have hrel := hi.relies p
    cases hs with
    | signalled =>
      rw [hx] at hrel
      have hc : (t.producers p).phase.Carries r q := by rw [hx]; exact ⟨rfl, rfl⟩
      exact ⟨by rw [Machine.withProducer_self]; exact ⟨rfl, rfl⟩, hq hc, .inr hrel⟩
  | consumed hs => cases hs

theorem Run.awaited (hs : s.Fresh) (hd : d.Calm) (hr : Run d Action.Solo s h t)
    {before : List Event} (hh : h = before ++ .signalled p r q :: since)
    (hopen : ∀ x, .returned p x ∉ since) : Awaited p r q since t := by
  induction hr generalizing since with
  | start => simp at hh
  | next hr ha hstep ih =>
    have hstep := Machine.step_inv hstep
    rcases split_append hstep.events_le_one hh with ⟨rest, hrest, rfl⟩ | ⟨hes, rfl, rfl⟩
    · have hi := ih hrest fun x hx => hopen x (List.mem_append_left _ hx)
      exact hi.step (hr.exclusive hs) (hr.handshake hs hd) hd ha hstep fun x hx =>
        hopen x (List.mem_append_right _ hx)
    · exact (hr.handshake hs hd).awaited (hr.requestSequence hs) (hes ▸ hstep)

theorem ProducerPhase.HasSignalled.held_up
    (hp : (t.producers p).phase.HasSignalled r q) (hb : t.step d (.produce p) = none) :
    ((t.producers p).phase = .waiting r q ∧ t.channel.responseReady.isSet = false) ∨
      ((t.producers p).phase = .woken r q ∧ ∃ a, t.channel.mailbox.lock = .held a) := by
  have hb := Option.map_eq_none_iff.mp hb
  cases hx : (t.producers p).phase with
  | waiting =>
    rw [hx] at hp hb
    obtain ⟨rfl, rfl⟩ := hp
    refine .inl ⟨rfl, ?_⟩
    simp only [advance, ReadyFlag.take?] at hb
    split at hb
    · next hf => simpa using hf
    · cases hb
  | woken =>
    rw [hx] at hp hb
    obtain ⟨rfl, rfl⟩ := hp
    refine .inr ⟨rfl, ?_⟩
    simp only [advance, Channel.acquire, Mailbox.acquire] at hb
    cases hl : t.channel.mailbox.lock with
    | held a => exact ⟨a, rfl⟩
    | _ => simp [hl] at hb
  | reading =>
    rw [hx] at hb
    simp only [advance] at hb
    split at hb <;> cases hb
  | leaving =>
    rw [hx] at hb
    cases hb
  | _ =>
    rw [hx] at hp
    exact absurd hp id

def ConsumerPhase.distance : ConsumerPhase → Nat
  | .stopped _ => 7
  | .checking => 6
  | .waiting => 5
  | .woken => 4
  | .answering => 3
  | .signalling => 2
  | .releasing => 1
  | .panicked => 0

/-- A step of the consumer by itself, which serves anew where it had stopped. -/
def Action.Consumes (a : Action) : Prop := a = .consume 0 ∨ a = .serve 0

theorem Handshake.coming (hi : Handshake t) {p : Nat} {r : Request} {q : UInt64}
    (hx : (t.producers p).phase = .waiting r q) (hr : t.channel.responseReady.isSet = false) :
    (t.consumers 0).phase = .signalling ∨
      (¬t.channel.mailbox.region.Answered ∧ t.channel.Noticed (t.consumers 0).phase) := by
  have hrel := hi.relies p
  rw [hx] at hrel
  by_cases ha : t.channel.mailbox.region.Answered
  · exact (hrel.1 ha).elim .inl fun h => by simp [hr] at h
  · exact .inr ⟨ha, hrel.2 ha⟩

theorem Handshake.holder (hi : Handshake t) (hex : t.Exclusive) {p : Nat} {b : Actor}
    (hp : (t.producers p).phase.holdsInFlight = true)
    (hno : (t.producers p).phase.holdsMailbox = false) (hl : t.channel.mailbox.lock = .held b) :
    (t.consumers 0).phase.holdsMailbox = true := by
  obtain ⟨c, hc⟩ := hex.consumer_of_held hp hno hl
  by_cases h0 : c = 0
  · exact h0 ▸ hc
  · rw [hi.alone c h0] at hc
    cases hc

/-- While a producer is held up after its signal, the consumer can bring its answer nearer. -/
theorem Handshake.approach (hi : Handshake t) (hex : t.Exclusive) (hd : d.Calm) {p : Nat}
    {r : Request} {q : UInt64} (hp : (t.producers p).phase.HasSignalled r q)
    (hb : t.step d (.produce p) = none) :
    ∃ a u, a.Consumes ∧ t.step d a = some u ∧ u.producers = t.producers ∧
      (u.step d (.produce p) ≠ none ∨
        (u.consumers 0).phase.distance < (t.consumers 0).phase.distance) := by
  have hconsume {es y ch} (hx : (t.consumers 0).phase ≠ .checking)
      (hs : Consumer.Step d 0 t.channel (t.consumers 0) es y ch)
      (hlt : y.phase.distance < (t.consumers 0).phase.distance) :
      ∃ a u, a.Consumes ∧ t.step d a = some u ∧ u.producers = t.producers ∧
        (u.step d (.produce p) ≠ none ∨
          (u.consumers 0).phase.distance < (t.consumers 0).phase.distance) :=
    ⟨_, _, .inl rfl, (Machine.step_consume hx hs).1, rfl, .inr (by simpa using hlt)⟩
  have hup := hp.held_up hb
  obtain ⟨y, hy⟩ : ∃ y, (t.consumers 0).phase = y := ⟨_, rfl⟩
  cases y with
  | checking | stopped =>
    refine ⟨_, _, .inr rfl, Machine.step_serve (by simp [hy]), rfl, .inr ?_⟩
    simp [hy, Consumer.serve, ConsumerPhase.distance]
  | waiting =>
    rcases hup with ⟨hx, hr⟩ | ⟨hx, b, hl⟩
    · have hm := (hi.coming hx hr).resolve_left (by simp [hy])
      have htok := hm.2.resolve_right (by simp [hy, ConsumerPhase.hasToken])
      exact hconsume (by simp [hy]) (.took hy htok) (by simp [hy, ConsumerPhase.distance])
    · have hc := hi.holder hex (by rw [hx]; rfl) (by rw [hx]; rfl) hl
      simp [hy, ConsumerPhase.holdsMailbox] at hc
  | woken =>
    have hno : (t.producers p).phase.holdsMailbox = false := by
      rcases hup with ⟨hx, -⟩ | ⟨hx, -⟩ <;> rw [hx] <;> rfl
    have hfree : t.channel.mailbox.lock = .free := by
      cases hl : t.channel.mailbox.lock with
      | free => rfl
      | held b =>
        have hc := hi.holder hex hp.holdsInFlight hno hl
        simp [hy, ConsumerPhase.holdsMailbox] at hc
      | poisoned => exact absurd hl hi.unpoisoned
    exact hconsume (by simp [hy]) (.locked hy hfree) (by simp [hy, ConsumerPhase.distance])
  | answering =>
    obtain ⟨n, z, hn⟩ := hd.answers t.channel.mailbox.region (t.consumers 0).dispatcher
    exact hconsume (by simp [hy]) (.served hy hn) (by simp [hy, ConsumerPhase.distance])
  | signalling =>
    exact hconsume (by simp [hy]) (.signalled hy) (by simp [hy, ConsumerPhase.distance])
  | releasing =>
    rcases hup with ⟨hx, hr⟩ | ⟨hx, b, hl⟩
    · have hm := (hi.coming hx hr).resolve_left (by simp [hy])
      exact absurd (hi.stamped (.inr hy)) hm.1
    · -- The mailbox is free again, which is all that the producer waits for.
      refine ⟨_, _, .inl rfl, (Machine.step_consume (by simp [hy]) (.released hy)).1, rfl, .inl ?_⟩
      intro hn
      have hup := fun h => ProducerPhase.HasSignalled.held_up (r := r) (q := q) h hn
      rcases hup hp with ⟨hw, -⟩ | ⟨-, e, he⟩
      · rw [show (t.producers p).phase = _ from hw] at hx
        cases hx
      · cases he
  | panicked => exact absurd hy hi.calm

theorem Action.Consumes.solo (ha : a.Consumes) : a.Solo := by
  rcases ha with rfl | rfl <;> rfl

theorem Run.goes_on (hs : s.Fresh) (hd : d.Calm) (hr : Run d Action.Solo s h t) {p : Nat}
    {r : Request} {q : UInt64} (hp : (t.producers p).phase.HasSignalled r q) :
    ∃ g u v, Run d Action.Consumes t g u ∧ u.producers = t.producers ∧
      u.step d (.produce p) = some v := by
  induction hn : (t.consumers 0).phase.distance using Nat.strongRecOn generalizing t h with
  | _ n ih =>
    cases hb : t.step d (.produce p) with
    | some v => exact ⟨[], t, v, .start, rfl, hb⟩
    | none =>
      obtain ⟨a, u, ha, hu, hprod, hnear⟩ :=
        (hr.handshake hs hd).approach (hr.exclusive hs) hd hp hb
      have hfirst : Run d Action.Consumes t ([] ++ t.events d a) u := .next .start ha hu
      rcases hnear with hgo | hlt
      · obtain ⟨v, hv⟩ := Option.ne_none_iff_exists'.mp hgo
        exact ⟨_, u, v, hfirst, hprod, hv⟩
      · obtain ⟨g, w, v, hg, hw, hv⟩ := ih _ (hn ▸ hlt) (hr.next ha.solo hu) (hprod ▸ hp) rfl
        exact ⟨_, w, v, hfirst.trans hg, hw.trans hprod, hv⟩

def ProducerPhase.distance : ProducerPhase → Nat
  | .waiting .. => 3
  | .woken .. => 2
  | .reading .. => 1
  | _ => 0

theorem ProducerPhase.Step.nearer {p : Nat} {ch ch' : Channel} {x y : ProducerPhase} {r : Request}
    {q : UInt64} (hs : Step p ch x es y ch') (hx : x.HasSignalled r q)
    (hread : x = .reading r q → ch.mailbox.region.header.answeredSequence = q) :
    (∃ v, es = [.returned p v]) ∨ (y.HasSignalled r q ∧ y.distance < x.distance) := by
  cases hs with
  | woke | relocked => exact .inr ⟨hx, by simp [distance]⟩
  | reshutOut | collected => exact .inr ⟨trivial, by simp [distance]⟩
  | skipped ha =>
    obtain ⟨rfl, rfl⟩ := hx
    exact absurd (hread rfl) ha
  | returned => exact .inl ⟨_, rfl⟩
  | _ => exact absurd hx id

theorem Run.answered_of_reading (hs : s.Fresh) (hd : d.Calm) (hr : Run d Action.Solo s h t)
    {p : Nat} {r : Request} {q : UInt64} (hx : (t.producers p).phase = .reading r q) :
    t.channel.mailbox.region.header.answeredSequence = q := by
  have hrel := (hr.handshake hs hd).relies p
  have hc : (t.producers p).phase.Carries r q := by rw [hx]; exact ⟨rfl, rfl⟩
  rw [hx] at hrel
  exact hrel.trans (hr.requestSequence hs hc)

/-- The consumer and a signalled producer by themselves bring the round trip to its end. -/
theorem Run.returns (hs : s.Fresh) (hd : d.Calm) (hr : Run d Action.Solo s h t) {p : Nat}
    {r : Request} {q : UInt64} (hp : (t.producers p).phase.HasSignalled r q) :
    ∃ g u x, Run d (fun a => a.Consumes ∨ a = .produce p) t g u ∧ .returned p x ∈ g := by
  induction hn : (t.producers p).phase.distance using Nat.strongRecOn generalizing t h with
  | _ n ih =>
    obtain ⟨g, u, v, hg, hprod, hv⟩ := hr.goes_on hs hd hp
    have hu : Run d Action.Solo s (h ++ g) u := hr.trans (hg.mono fun _ ha => ha.solo)
    have hgo : Run d (fun a => a.Consumes ∨ a = .produce p) t (g ++ u.events d (.produce p)) v :=
      .next (hg.mono fun _ ha => .inl ha) (.inr rfl) hv
    have hstep := Machine.step_inv hv
    generalize u.events d (.produce p) = es at hgo hstep
    have hv := hu.next (a := .produce p) trivial hv
    cases hstep with
    | turned ha => simp at ha
    | produced hx hstep =>
      rcases hstep.nearer (hx ▸ hprod ▸ hp) (fun he => hu.answered_of_reading hs hd (hx.trans he))
        with ⟨x, rfl⟩ | ⟨hp', hlt⟩
      · exact ⟨_, _, x, hgo, by simp⟩
      · obtain ⟨g', w, x, hg', hmem⟩ := ih _ (by rw [← hn, ← hprod, hx]; simpa using hlt) hv
          (by simpa using hp') rfl
        exact ⟨_, w, x, hgo.trans hg', List.mem_append_right _ hmem⟩

/-- From its signal until its return, a producer's request is noticed until it is answered, and its
answer is announced until the producer has woken; what it reads then is the answer. So the two by
themselves can always bring the round trip to its end: neither waits for the other for good. -/
theorem Run.no_wakeup_lost (hs : s.Fresh) (hd : d.Calm) (hr : Run d Action.Solo s h t)
    {before since : List Event} {p : Nat} {r : Request} {q : UInt64}
    (hh : h = before ++ .signalled p r q :: since) (hopen : ∀ x, .returned p x ∉ since) :
    (t.channel.mailbox.region.header.answeredSequence ≠ q →
      t.channel.messageReady.isSet = true ∨
        (t.consumers 0).phase = .woken ∨ (t.consumers 0).phase = .answering) ∧
    (t.channel.mailbox.region.header.answeredSequence = q →
      (t.consumers 0).phase = .signalling ∨ t.channel.responseReady.isSet = true ∨
        .woke p ∈ since) ∧
    ((t.producers p).phase = .reading r q →
      t.channel.mailbox.region.header.answeredSequence = q) ∧
    ∃ g u x, Run d (fun a => a.Consumes ∨ a = .produce p) t g u ∧ .returned p x ∈ g := by
  have hi := hr.handshake hs hd
  obtain ⟨hp, hm, hann⟩ := hr.awaited hs hd hh hopen
  have hans : t.channel.mailbox.region.Answered ↔
      t.channel.mailbox.region.header.answeredSequence = q := by rw [Region.Answered, hm]
  have hrel := hi.relies p
  refine ⟨fun hne => ?_, fun he => ?_, hr.answered_of_reading hs hd, hr.returns hs hd hp⟩
  · have hnot : t.channel.Noticed (t.consumers 0).phase := by
      rw [← hans.ne] at hne
      cases hx : (t.producers p).phase with
      | waiting => rw [hx] at hrel; exact hrel.2 hne
      | woken | reading => rw [hx] at hrel; exact absurd hrel hne
      | leaving => rw [hx] at hrel; exact hrel hne
      | _ => rw [hx] at hp; exact absurd hp id
    refine hnot.imp id fun htok => ?_
    cases hy : (t.consumers 0).phase with
    | woken => exact .inl rfl
    | answering => exact .inr rfl
    | _ => rw [hy] at htok; cases htok
  · rcases hann with hw | hann
    · exact .inr (.inr hw)
    · exact (hann (hans.mpr he)).imp id .inl

theorem Dispatcher.calm_adding (n : UInt8) : (adding n).Calm := by
  intro r y
  cases r <;> nofun

theorem Run.no_wakeup_lost_sample :
    ∃ t, Run (.adding 0) Action.Solo (.initial .smallest ()) (Event.sample.take 3) t ∧
      (t.channel.mailbox.region.header.answeredSequence ≠ 1 →
        t.channel.messageReady.isSet = true ∨
          (t.consumers 0).phase = .woken ∨ (t.consumers 0).phase = .answering) ∧
      (t.channel.mailbox.region.header.answeredSequence = 1 →
        (t.consumers 0).phase = .signalling ∨ t.channel.responseReady.isSet = true ∨
          .woke 0 ∈ ([] : List Event)) ∧
      ((t.producers 0).phase = .reading .enumerateHandlers 1 →
        t.channel.mailbox.region.header.answeredSequence = 1) ∧
      ∃ g u x, Run (.adding 0) (fun a => a.Consumes ∨ a = .produce 0) t g u ∧
        .returned 0 x ∈ g := by
  obtain ⟨t, hr⟩ : ∃ t, Run (.adding 0) Action.Solo (.initial .smallest ())
      (Event.sample.take 3) t :=
    Run.exists_of_play (l := (Action.roundTrip 0 .enumerateHandlers none).take 9)
      (by simp [Action.roundTrip, Action.Solo]) rfl
  have hh : Event.sample.take 3 = Event.sample.take 2 ++ [.signalled 0 .enumerateHandlers 1] := rfl
  exact ⟨t, hr, Run.no_wakeup_lost (Machine.fresh_smallest ()) (Dispatcher.calm_adding 0) hr hh
    (by simp)⟩

end FirmwareHost
