import FirmwareHost.Proofs.Serving

/-! Own wake-ups. While only consumers signal answers, a set response flag tells of an answer to the
request in the mailbox. A producer that wakes finds its own answer there, whatever was abandoned
before, and never waits a second time. -/

namespace FirmwareHost

variable {σ : Type} {d : Dispatcher σ} {s t u : Machine σ} {a : Action} {h es since : List Event}
  {p : Nat} {r : Request} {q : UInt64}

/-- Anybody may signal a message, but only consumers signal answers. -/
def Action.Unprompted (a : Action) : Prop := a ≠ .strayResponse

namespace ProducerPhase

variable {ch ch' : Channel} {x y : ProducerPhase}

theorem expects_of_not_holdsInFlight (h : x.holdsInFlight = false) : x.Expects ch := by
  cases x with
  | idle | sizing | queueing | done => trivial
  | _ => cases h

theorem Expects.imp (hx : x.Expects ch)
    (hflag : x.holdsMailbox = true → ch'.responseReady = ch.responseReady)
    (hkept : ch.mailbox.region.Answered → ch'.mailbox.region.Answered) : x.Expects ch' := by
  cases x with
  | writing => simpa [Expects, hflag rfl] using hx
  | woken | reading => exact hkept hx
  | _ => trivial

theorem Step.expects (hs : Step p ch x es y ch') (hx : x.Expects ch)
    (hr : ch.responseReady.isSet = true → ch.mailbox.region.Answered) : y.Expects ch' := by
  cases hs with
  | discarded => rfl
  | woke h => exact hr h
  | relocked => exact hx
  | _ => trivial

end ProducerPhase

theorem Consumer.Step.answered {c : Nat} {ch ch' : Channel} {x y : Consumer σ}
    (hs : Step d c ch x es y ch') :
    ch'.mailbox.region = ch.mailbox.region ∨ ch'.mailbox.region.Answered := by
  cases hs with
  | served _ hn => exact .inr (Dispatcher.answered_of_answer hn)
  | _ => exact .inl rfl

/-- A consumer that has answered and not yet released the mailbox. -/
def ConsumerPhase.hasAnswered : ConsumerPhase → Bool
  | .signalling | .releasing => true
  | _ => false

theorem ConsumerPhase.holdsMailbox_of_hasAnswered {y : ConsumerPhase} (h : y.hasAnswered = true) :
    y.holdsMailbox = true := by
  cases y with
  | signalling | releasing => rfl
  | _ => cases h

/-- Who has seen the response flag, and who is to set it, knows the mailbox to be answered. -/
structure Machine.Heralded (t : Machine σ) : Prop where
  stamped : ∀ c, (t.consumers c).phase.hasAnswered = true → t.channel.mailbox.region.Answered
  response : t.channel.responseReady.isSet = true → t.channel.mailbox.region.Answered
  expects : ∀ p, (t.producers p).phase.Expects t.channel

namespace Machine

theorem Fresh.heralded (hs : s.Fresh) : s.Heralded where
  stamped c hc := by simp [hs.checking c, ConsumerPhase.hasAnswered] at hc
  response hf := by
    obtain ⟨capacity, -, hch⟩ := hs.channel_eq
    simp [hch, ReadyFlag.initial] at hf
  expects p := by simp [hs.idle p, ProducerPhase.Expects]

theorem Heralded.withProducer (hi : t.Heralded) {x : Producer}
    (hx : x.phase.Expects t.channel) : (t.withProducer p x).Heralded :=
  ⟨hi.stamped, hi.response,
    forall_withProducer (P := fun _ x => x.phase.Expects t.channel) hx fun e _ => hi.expects e⟩

theorem Heralded.produced (hi : t.Heralded) (hex : t.Exclusive) {x y : ProducerPhase}
    {ch : Channel} (hx : (t.producers p).phase = x)
    (hs : ProducerPhase.Step p t.channel x es y ch) :
    Heralded { t.withProducer p ⟨(t.producers p).limit, y⟩ with channel := ch } where
  stamped c hc := by
    rcases hs.region with hm | hm
    · exact hm ▸ hi.stamped c hc
    · -- the consumer and the producer would both hold the mailbox
      have hno := hex.consumer_of_producer c (hx ▸ hm)
      exact absurd ((ConsumerPhase.holdsMailbox_of_hasAnswered hc).symm.trans hno) nofun
  response := hs.response (hx ▸ hi.expects p) hi.response
  expects := by
    refine forall_withProducer (P := fun _ x => x.phase.Expects ch)
      (hs.expects (hx ▸ hi.expects p) hi.response) fun e he => ?_
    cases hin : (t.producers e).phase.holdsInFlight with
    | false => exact ProducerPhase.expects_of_not_holdsInFlight hin
    | true =>
      obtain ⟨-, rfl⟩ := hex.still_of_inFlight hin he (hx ▸ hs)
      exact hi.expects e

theorem Heralded.consumed (hi : t.Heralded) (hex : t.Exclusive) {c : Nat} {y : Consumer σ}
    {ch : Channel} (hs : Consumer.Step d c t.channel (t.consumers c) es y ch) :
    Heralded { t.withConsumer c y with channel := ch } := by
  have hkept (ha : t.channel.mailbox.region.Answered) : ch.mailbox.region.Answered :=
    hs.answered.elim (fun hm => hm ▸ ha) id
  refine ⟨?_, fun hf => ?_, fun p => ?_⟩
  · refine forall_withConsumer
      (P := fun _ x => x.phase.hasAnswered = true → ch.mailbox.region.Answered)
      (fun hy => ?_) fun e _ he => hkept (hi.stamped e he)
    cases hs with
    | served _ hn => exact Dispatcher.answered_of_answer hn
    | signalled hz => exact hi.stamped c (by rw [hz]; rfl)
    | polled _ hz =>
      have hno := ConsumerPhase.holdsMailbox_of_atRest hz
      exact absurd ((ConsumerPhase.holdsMailbox_of_hasAnswered hy).symm.trans hno) nofun
    | _ => cases hy
  · cases hs with
    | served _ hn => exact Dispatcher.answered_of_answer hn
    | signalled hz => exact hi.stamped c (by rw [hz]; rfl)
    | _ => exact hi.response hf
  · refine (hi.expects p).imp (fun hm => ?_) hkept
    have hno := hex.consumer_of_producer c hm
    cases hs with
    | signalled hz =>
      -- who is about to signal holds the mailbox, and so nobody writes there
      rw [hz] at hno
      cases hno
    | _ => rfl

theorem Heralded.step (hi : t.Heralded) (hex : t.Exclusive) (ha : a.Unprompted)
    (hs : t.Step d a es u) : u.Heralded := by
  cases hs with
  | called | expired => exact hi.withProducer trivial
  | produced hx hs => exact hi.produced hex hx hs
  | consumed hs => exact hi.consumed hex hs
  | turned _ _ hy =>
    refine ⟨?_, hi.response, hi.expects⟩
    refine forall_withConsumer
      (P := fun _ x => x.phase.hasAnswered = true → t.channel.mailbox.region.Answered)
      (fun hc => ?_) fun e _ => hi.stamped e
    have hno := ConsumerPhase.holdsMailbox_of_atRest hy
    exact absurd ((ConsumerPhase.holdsMailbox_of_hasAnswered hc).symm.trans hno) nofun
  | shutdown => exact ⟨hi.stamped, hi.response, hi.expects⟩
  | strayMessage =>
    exact ⟨hi.stamped, hi.response, fun p => (hi.expects p).imp (fun _ => rfl) id⟩
  | strayResponse => exact absurd rfl ha

end Machine

theorem Run.heralded (hs : s.Fresh) (hr : Run d Action.Unprompted s h t) : t.Heralded := by
  induction hr with
  | start => exact hs.heralded
  | next hr ha hstep ih => exact ih.step (hr.exclusive hs) ha (Machine.step_inv hstep)

theorem Run.finds_own_answer (hs : s.Fresh) (hr : Run d Action.Unprompted s h t)
    (hx : (t.producers p).phase = .reading r q) :
    t.channel.mailbox.region.header.answeredSequence = q := by
  have ha := (hr.heralded hs).expects p
  have hc : (t.producers p).phase.Carries r q := by rw [hx]; exact ⟨rfl, rfl⟩
  rw [hx] at ha
  exact Eq.trans ha (hr.requestSequence hs hc)

/-- The phases of a producer that has woken and is not to wait again. -/
def ProducerPhase.Roused (r : Request) (q : UInt64) : ProducerPhase → Prop
  | .woken r' q' | .reading r' q' => r' = r ∧ q' = q
  | .leaving _ => True
  | _ => False

theorem ProducerPhase.Step.roused {ch ch' : Channel} {x y : ProducerPhase}
    (hs : Step p ch x es y ch') (hx : x.HasPosted r q) (hes : ∀ v, .returned p v ∉ es)
    (hread : x = .reading r q → ch.mailbox.region.header.answeredSequence = q) :
    (es = [.woke p] ∧ ¬ x.Roused r q ∧ y.Roused r q) ∨
      (.woke p ∉ es ∧ (x.Roused r q → y.Roused r q)) := by
  cases hs with
  | woke =>
    rcases hx with hc | ⟨v, hv⟩
    · exact .inl ⟨rfl, id, hc⟩
    · cases hv
  | released | signalled => exact .inr ⟨by simp, False.elim⟩
  | relocked => exact .inr ⟨by simp, id⟩
  | reshutOut | collected => exact .inr ⟨by simp, fun _ => trivial⟩
  | skipped ha =>
    refine .inr ⟨by simp, ?_⟩
    rintro ⟨rfl, rfl⟩
    exact absurd (hread rfl) ha
  | returned => exact absurd (List.mem_singleton_self _) (hes _)
  | _ => simp [HasPosted, Carries] at hx

theorem Machine.Step.leaves (hs : t.Step d a es u)
    (hp : (t.producers p).phase.holdsInFlight = true) : a.Leaves p := by
  cases hs with
  | called hx =>
    rintro rfl
    rw [hp] at hx
    cases hx
  | turned ha => rcases ha with rfl | rfl | rfl <;> trivial
  | _ => trivial

/-- Whether the producer has woken since its post, and then once and for all. -/
def WokenOnce (p : Nat) (r : Request) (q : UInt64) (since : List Event) (x : ProducerPhase) :
    Prop :=
  .woke p ∉ since ∨ since.count (.woke p) = 1 ∧ x.Roused r q

theorem WokenOnce.step (hi : WokenOnce p r q since (t.producers p).phase)
    (hx : (t.producers p).phase.HasPosted r q) (hs : t.Step d a es u)
    (hes : ∀ v, .returned p v ∉ es)
    (hread : (t.producers p).phase = .reading r q →
      t.channel.mailbox.region.header.answeredSequence = q) :
    WokenOnce p r q (since ++ es) (u.producers p).phase := by
  have hkeep {y : ProducerPhase} (hno : .woke p ∉ es)
      (hy : (t.producers p).phase.Roused r q → y.Roused r q) : WokenOnce p r q (since ++ es) y := by
    refine hi.imp (fun hn => ?_) fun ⟨hc, hr⟩ => ⟨?_, hy hr⟩
    · simpa using ⟨hn, hno⟩
    · rw [List.count_append, hc, List.count_eq_zero_of_not_mem hno]
  cases hs.touches (hs.leaves hx.holdsInFlight) with
  | spares hp hby =>
    rw [hp]
    exact hkeep (fun hw => hby _ hw rfl) id
  | own y ch hy hch hown =>
    rw [hy]
    rcases hown.roused hx hes hread with ⟨rfl, hnot, hr⟩ | ⟨hno, hr⟩
    · have hn := hi.resolve_right fun h => hnot h.2
      exact .inr ⟨by simp [List.count_append, List.count_eq_zero_of_not_mem hn], hr⟩
    · exact hkeep hno hr
  | cutsShort r' q' _ hy hnone =>
    rw [hy]
    exact hkeep (by simp [hnone]) fun _ => trivial

theorem Run.woken_once (hs : s.Fresh) (hr : Run d Action.Unprompted s h t) {m : Region}
    {before : List Event} (hh : h = before ++ .posted p r q m :: since)
    (hopen : ∀ x, .returned p x ∉ since) : WokenOnce p r q since (t.producers p).phase := by
  induction hr generalizing since with
  | start => simp at hh
  | next hr ha hstep ih =>
    have hstep := Machine.step_inv hstep
    rcases split_append hstep.events_le_one hh with ⟨rest, hrest, rfl⟩ | ⟨-, -, rfl⟩
    · simp only [List.mem_append, not_or] at hopen
      have hold := fun x => (hopen x).1
      obtain ⟨hx, -⟩ := (hr.pending hs).kept hrest hold
      exact (ih hrest hold).step hx hstep (fun x => (hopen x).2) (hr.finds_own_answer hs)
    · exact .inl (by simp)

/-- A step of producer `p` or of a consumer. -/
def Action.Finishes (p : Nat) (a : Action) : Prop := a = .produce p ∨ ∃ c, a = .consume c

theorem Action.finishes_produce : (Action.produce p).Finishes p := .inl rfl

theorem Action.Finishes.unprompted (ha : a.Finishes p) : a.Unprompted := by
  rcases ha with rfl | ⟨c, rfl⟩ <;> nofun

namespace Machine

variable {c : Nat} {x y : Consumer σ} {ch ch' : Channel}

/-- Consumer `c` by itself comes to where nobody holds the mailbox. -/
def HandsBack (d : Dispatcher σ) (t : Machine σ) (c : Nat) (x : Consumer σ) (ch : Channel) : Prop :=
  ∃ n es y ch', (t.advanced c x ch).play d (List.replicate n (.consume c)) =
    some (es, t.advanced c y ch') ∧ (∀ b, ch'.mailbox.lock ≠ .held b) ∧ ∀ e ∈ es, ∀ p, ¬ e.By p

theorem HandsBack.already (hl : ∀ b, ch.mailbox.lock ≠ .held b) : HandsBack d t c x ch :=
  ⟨0, [], x, ch, rfl, hl, by simp⟩

theorem HandsBack.after (hs : Consumer.Step d c ch x es y ch') (hx : x.phase ≠ .checking)
    (h : HandsBack d t c y ch') : HandsBack d t c x ch := by
  obtain ⟨n, g, z, ch'', hp, hl, hg⟩ := h
  refine ⟨n + 1, es ++ g, z, ch'', play_advanced hs hx hp rfl, hl, fun e he p => ?_⟩
  exact (List.mem_append.mp he).elim hs.not_by fun he => hg e he p

theorem handsBack (hx : x.phase.holdsMailbox = true) : HandsBack d t c x ch := by
  have hsignalling {x : Consumer σ} {ch : Channel} (hx : x.phase = .signalling) :
      HandsBack d t c x ch :=
    .after (.signalled hx) (by simp [hx]) (.after (.released rfl) nofun (.already nofun))
  cases hy : x.phase with
  | releasing => exact .after (.released hy) (by simp [hy]) (.already nofun)
  | signalling => exact hsignalling hy
  | answering =>
    obtain ⟨m, z, hn⟩ : ∃ m z, d.answer ch.mailbox.region x.dispatcher = (m, z) := ⟨_, _, rfl⟩
    cases m with
    | none => exact .after (.panicked hy hn) (by simp [hy]) (.already nofun)
    | some n => exact .after (.served hy hn) (by simp [hy]) (hsignalling rfl)
  | _ => simp [hy, ConsumerPhase.holdsMailbox] at hx

end Machine

theorem Run.hands_back {c : Nat} (hc : (t.consumers c).phase.holdsMailbox = true) :
    ∃ g u, Run d (Action.Finishes p) t g u ∧ u.producers = t.producers ∧
      (∀ b, u.channel.mailbox.lock ≠ .held b) ∧ .woke p ∉ g := by
  have hback : Machine.HandsBack d t c (t.consumers c) t.channel := Machine.handsBack hc
  obtain ⟨n, g, y, ch, hp, hl, hg⟩ := hback
  rw [Machine.advanced_self] at hp
  refine ⟨g, _, .of_play (fun a ha => .inr ⟨c, ?_⟩) hp, rfl, hl, fun hw => hg _ hw p rfl⟩
  exact List.eq_of_mem_replicate ha

theorem Run.collects_own (hs : s.Fresh) (hr : Run d Action.Unprompted s h t)
    (hx : (t.producers p).phase = .reading r q) :
    ∃ u, Run d (Action.Finishes p) t [.collected p r q t.channel.mailbox.region] u ∧
      (u.producers p).phase = .leaving (t.channel.mailbox.region.collect r.function) := by
  obtain ⟨u, hu, -, -, hy⟩ :=
    Run.produce (d := d) Action.finishes_produce hx (.collected (hr.finds_own_answer hs hx))
  exact ⟨u, hu, hy⟩

/-- A woken producer waits for the mailbox alone, which whoever has it can always hand back. -/
theorem Run.leaves_loop (hs : s.Fresh) (hr : Run d Action.Unprompted s h t)
    (hx : (t.producers p).phase.Roused r q) : ∃ g u x, Run d (Action.Finishes p) t g u ∧
      .woke p ∉ g ∧ (u.producers p).phase = .leaving x := by
  have hopened {g : List Event} {v : Machine σ} (hg : Run d (Action.Finishes p) t g v)
      (hno : .woke p ∉ g) (hv : (v.producers p).phase = .woken r q)
      (hl : ∀ b, v.channel.mailbox.lock ≠ .held b) : ∃ g u x, Run d (Action.Finishes p) t g u ∧
        .woke p ∉ g ∧ (u.producers p).phase = .leaving x := by
    cases hlock : v.channel.mailbox.lock with
    | held b => exact absurd hlock (hl b)
    | poisoned =>
      obtain ⟨u, hu, -, -, hy⟩ := Run.produce (d := d) Action.finishes_produce hv (.reshutOut hlock)
      exact ⟨_, u, _, hg.trans hu, by simpa using hno, hy⟩
    | free =>
      obtain ⟨w, hw, -, -, hy⟩ := Run.produce (d := d) Action.finishes_produce hv (.relocked hlock)
      have hw := hg.trans hw
      obtain ⟨u, hu, hy⟩ := (hr.trans (hw.mono fun _ ha => ha.unprompted)).collects_own hs hy
      exact ⟨_, u, _, hw.trans hu, by simpa using hno, hy⟩
  cases hy : (t.producers p).phase with
  | leaving x => exact ⟨[], t, x, .start, by simp, hy⟩
  | reading =>
    rw [hy] at hx
    obtain ⟨rfl, rfl⟩ := hx
    obtain ⟨u, hu, hy⟩ := hr.collects_own hs hy
    exact ⟨_, u, _, hu, by simp, hy⟩
  | woken =>
    rw [hy] at hx
    obtain ⟨rfl, rfl⟩ := hx
    by_cases hl : ∃ b, t.channel.mailbox.lock = .held b
    · obtain ⟨b, hl⟩ := hl
      obtain ⟨c, hc⟩ :=
        (hr.exclusive hs).consumer_of_held (by rw [hy]; rfl) (by rw [hy]; rfl) hl
      obtain ⟨g, v, hg, hprod, hl, hno⟩ := Run.hands_back (d := d) (p := p) hc
      exact hopened hg hno (hprod ▸ hy) hl
    · exact hopened .start (by simp) hy fun b hb => hl ⟨b, hb⟩
  | _ =>
    rw [hy] at hx
    exact hx.elim

/-- What is true while a request that producer `p` has posted is open, `since` having happened
meanwhile. -/
structure OwnWakeup (d : Dispatcher σ) (p : Nat) (r : Request) (q : UInt64) (since : List Event)
    (t : Machine σ) : Prop where
  own : t.channel.responseReady.isSet = true →
    t.channel.mailbox.region.header.answeredSequence = q
  once : since.count (.woke p) ≤ 1
  /-- Having woken it is past the wait for good. -/
  roused : .woke p ∈ since → (t.producers p).phase.Roused r q
  /-- With the mailbox in hand it takes the answer and does not try again. -/
  collects : (t.producers p).phase = .reading r q →
    t.channel.mailbox.region.header.answeredSequence = q ∧
      ∃ u, t.step d (.produce p) = some u ∧
        (u.producers p).phase = .leaving (t.channel.mailbox.region.collect r.function)
  ends : .woke p ∈ since → ∃ g u x, Run d (Action.Finishes p) t g u ∧ .woke p ∉ g ∧
    (u.producers p).phase = .leaving x

/-- From its post until it returns every wake-up of a producer is its own: the flag is set only for
the answer that the mailbox holds, and the first time it wakes ends its wait. -/
theorem Run.woken_by_own_answer (hs : s.Fresh) (hr : Run d Action.Unprompted s h t)
    {before : List Event} {m : Region} (hh : h = before ++ .posted p r q m :: since)
    (hopen : ∀ x, .returned p x ∉ since) : OwnWakeup d p r q since t := by
  have honce := hr.woken_once hs hh hopen
  have hroused (hw : .woke p ∈ since) : (t.producers p).phase.Roused r q :=
    (honce.resolve_left fun hn => hn hw).2
  refine ⟨fun hf => ?_, ?_, hroused, fun hx => ?_, fun hw => hr.leaves_loop hs (hroused hw)⟩
  · have ha : t.channel.mailbox.region.Answered := (hr.heralded hs).response hf
    exact ha.trans (hr.requestSequence_of_open hs hh hopen)
  · rcases honce with hn | ⟨hc, -⟩
    · simp [List.count_eq_zero_of_not_mem hn]
    · exact Nat.le_of_eq hc
  · have ha := hr.finds_own_answer hs hx
    exact ⟨ha, _, (Machine.step_produce hx (.collected ha)).1, by simp⟩

/-- A request is abandoned, and its token makes the consumer answer the next one. -/
theorem Run.woken_by_own_answer_sample : ∃ t : Machine Unit,
    let r := Request.enumerateHandlers
    let m := Region.posted r 2 32
    OwnWakeup (.adding 0) 1 r 2 [.served 0 m m.markAnswered, .signalled 1 r 2, .woke 1] t := by
  let r := Request.enumerateHandlers
  let m := Region.posted r 2 32
  let before : List Event := [.admitted 0 r, .posted 0 r 1 (.posted r 1 32), .signalled 0 r 1,
    .returned 0 (.error .timeout), .admitted 1 r]
  let l : List Action := .call 0 r (some 1) :: (List.replicate 8 (.produce 0) ++
    .expire 0 :: .produce 0 :: .call 1 r none :: (List.replicate 7 (.produce 1) ++
    (List.replicate 6 (.consume 0) ++ [.produce 1, .produce 1, .strayMessage])))
  obtain ⟨t, hr⟩ : ∃ t, Run (.adding 0) Action.Unprompted (.initial .smallest ())
      (before ++ .posted 1 r 2 m :: [.served 0 m m.markAnswered, .signalled 1 r 2, .woke 1]) t :=
    Run.exists_of_play (l := l) (by simp [l, Action.Unprompted]) rfl
  exact ⟨t, Run.woken_by_own_answer (Machine.fresh_smallest ()) hr rfl (by simp)⟩

end FirmwareHost
