import FirmwareHost.Proofs.Wakeups

/-! The end of a consumer's loop. The consumer looks at the shutdown flag before it looks for a
message, so a request that is signalled while it is about to look can be left behind, and a caller
that set no bound waits for good. Past that look it serves every request that it was signalled. -/

namespace FirmwareHost

variable {σ : Type} {d : Dispatcher σ} {s t u v : Machine σ} {a : Action} {h g since : List Event}
  {p n : Nat} {r : Request} {q : UInt64} {m : Region} {y : σ}

section Calmed

def Ended.quiet {α : Type} : Ended α → Ended α
  | .returned result => .returned result
  | .panicked => .returned (.error .aborted)

def Dispatcher.calmed (d : Dispatcher σ) : Dispatcher σ where
  installPackage package y := (d.installPackage package y).map .quiet id
  enumerateHandlers y := (d.enumerateHandlers y).map .quiet id
  invokeHandler guid parameters y := (d.invokeHandler guid parameters y).map .quiet id
  uninstallModule guid y := (d.uninstallModule guid y).map .quiet id
  debugInfo guid y := (d.debugInfo guid y).map .quiet id

theorem Ended.quiet_ne_panicked {α : Type} (e : Ended α) : e.quiet ≠ .panicked := by
  cases e <;> nofun

theorem Ended.map_quiet {α β : Type} (f : α → β) (e : Ended α) : e.quiet.map f = (e.map f).quiet := by
  cases e <;> rfl

theorem Dispatcher.handle_calmed (d : Dispatcher σ) (r : Request) (y : σ) :
    d.calmed.handle r y = (d.handle r y).map .quiet id := by
  cases r <;> simp [handle, calmed, Prod.map, Ended.map_quiet]

theorem Dispatcher.calm_calmed (d : Dispatcher σ) : d.calmed.Calm := by
  intro r y
  rw [handle_calmed]
  exact Ended.quiet_ne_panicked _

theorem Dispatcher.answer_calmed (h : (d.answer m y).1 ≠ none) :
    d.calmed.answer m y = d.answer m y := by
  unfold answer at h ⊢
  cases hm : Request.decode m with
  | error e => rfl
  | ok r =>
    simp only [hm, handle_calmed] at h ⊢
    generalize d.handle r y = x at h ⊢
    obtain ⟨e, z⟩ := x
    cases e with
    | returned result => rfl
    | panicked => exact absurd rfl h

theorem Consumer.answers_of_advance {x z : Consumer σ} {self : Actor} {shutdown : Bool}
    {ch ch' : Channel} (hs : x.advance d self shutdown ch = some (z, ch'))
    (hz : z.phase ≠ .panicked) (hx : x.phase = .answering) :
    (d.answer ch.mailbox.region x.dispatcher).1 ≠ none := by
  intro hn
  simp only [advance, hx] at hs
  split at hs
  · next he => simp [he] at hn
  · cases hs
    exact hz rfl

/-- A consumer that has not panicked cannot be told from one with the calmed dispatcher. -/
theorem Consumer.advance_calmed {x z : Consumer σ} {c : Nat} {shutdown : Bool} {ch ch' : Channel}
    (hs : x.advance d (.consumer c) shutdown ch = some (z, ch')) (hz : z.phase ≠ .panicked) :
    x.advance d.calmed (.consumer c) shutdown ch = some (z, ch') ∧
      x.events d.calmed c ch = x.events d c ch ∧ x.phase ≠ .panicked := by
  have ha := Consumer.answers_of_advance hs hz
  rw [← hs]
  cases hx : x.phase with
  | answering => simp only [advance, events, hx, Dispatcher.answer_calmed (ha hx)]; simp
  | panicked => simp [advance, hx] at hs
  | _ => simp [advance, events, hx]

theorem Machine.step_calmed (ha : a.Solo) (hs : t.step d a = some u)
    (hu : (u.consumers 0).phase ≠ .panicked) : t.step d.calmed a = some u ∧
      t.events d.calmed a = t.events d a ∧ (t.consumers 0).phase ≠ .panicked := by
  cases a with
  | consume c =>
    obtain rfl : c = 0 := ha
    obtain ⟨⟨z, ch⟩, hz, rfl⟩ := Option.map_eq_some_iff.mp hs
    rw [withConsumer_self] at hu
    obtain ⟨hz, he, hx⟩ := Consumer.advance_calmed hz hu
    exact ⟨by simp only [step, hz, Option.map_some], he, hx⟩
  | idle c | restart c | serve c =>
    obtain rfl : c = 0 := ha
    refine ⟨hs, rfl, fun hx => ?_⟩
    simp [step, Consumer.idle, hx] at hs
  | _ =>
    refine ⟨hs, rfl, ?_⟩
    have hinv := step_inv hs
    generalize t.events d _ = es at hinv
    cases hinv with
    | turned hc => simp at hc
    | _ => exact hu

theorem Run.calmed {allowed : Action → Prop} (hr : Run d allowed s h t)
    (hsolo : ∀ a, allowed a → a.Solo) (ht : (t.consumers 0).phase ≠ .panicked) :
    Run d.calmed allowed s h t ∧ (s.consumers 0).phase ≠ .panicked := by
  induction hr with
  | start => exact ⟨.start, ht⟩
  | next _ ha hs ih =>
    obtain ⟨hstep, he, ht⟩ := Machine.step_calmed (hsolo _ ha) hs ht
    rw [← he]
    exact ⟨.next (ih ht).1 ha hstep, (ih ht).2⟩

end Calmed

/-- One run of the loop: whatever happens around it, it is neither entered again nor asked for a
single request. -/
def Action.Looping : Action → Prop
  | .restart _ | .serve _ => False
  | a => a.Solo

theorem Action.Looping.solo (ha : a.Looping) : a.Solo := by
  cases a with
  | restart | serve => exact ha.elim
  | _ => exact ha

/-- About to look at the shutdown flag, or stopped by it. -/
def ConsumerPhase.atFlag : ConsumerPhase → Bool
  | .checking | .stopped (.ok _) => true
  | _ => false

theorem Machine.step_idle {c : Nat} (hs : t.step d (.idle c) = some u) :
    (t.consumers c).phase = .waiting ∧ t.channel.messageReady.isSet = false ∧
      u = t.withConsumer c { t.consumers c with phase := .checking } := by
  obtain ⟨y, hy, rfl⟩ := Option.map_eq_some_iff.mp hs
  unfold Consumer.idle at hy
  split at hy
  · next hx =>
    split at hy
    · cases hy
    · next hm =>
      cases hy
      exact ⟨hx, by simpa using hm, rfl⟩
  · cases hy

theorem Handshake.noticed (hi : Handshake t) (hp : (t.producers p).phase.HasSignalled r q)
    (hna : ¬t.channel.mailbox.region.Answered) : t.channel.Noticed (t.consumers 0).phase := by
  have hrel := hi.relies p
  cases hx : (t.producers p).phase with
  | waiting => rw [hx] at hrel; exact hrel.2 hna
  | woken | reading => rw [hx] at hrel; exact absurd hrel hna
  | leaving => rw [hx] at hrel; exact hrel hna
  | _ => rw [hx] at hp; exact absurd hp id

/-- A consumer that has a message to serve does not come back to the flag before it has served. -/
def Machine.Held (t : Machine σ) : Prop :=
  t.channel.mailbox.region.Answered ∨ (t.consumers 0).phase.atFlag = false

theorem Awaited.held (hi : Awaited p r q since t) (hex : t.Exclusive) (hand : Handshake t)
    (hheld : t.Held) (ha : a.Looping) (hs : t.step d a = some u)
    (hopen : ∀ x, .returned p x ∉ t.events d a) : u.Held := by
  by_cases hidle : a = .idle 0
  -- a wait that ends idle leads back to the flag, but only if no message is there
  · subst hidle
    obtain ⟨hx, hm, rfl⟩ := Machine.step_idle hs
    refine .inl ?_
    by_contra hna
    rcases hand.noticed hi.phase hna with h | h
    · simp [h] at hm
    · simp [hx, ConsumerPhase.hasToken] at h
  · have hstep := Machine.step_inv hs
    generalize t.events d a = es at hstep hopen
    cases hstep with
    | called | expired | shutdown => exact hheld
    | @produced e x es y ch hx hstep =>
      by_cases he : p = e
      · subst he
        obtain ⟨-, hregion, -⟩ := hstep.hasSignalled (hx ▸ hi.phase) hopen
        exact hheld.imp (fun h => (congrArg Region.Answered hregion).mpr h) id
      · obtain ⟨-, rfl⟩ := hex.still_of_inFlight hi.phase.holdsInFlight he (hx ▸ hstep)
        exact hheld
    | @consumed c es y ch hstep =>
      obtain rfl : c = 0 := ha
      -- past the flag the consumer comes back to it only with an answer behind it
      simp only [Machine.Held, Machine.withConsumer_self]
      cases hstep with
      | polled hx => exact .inl (hheld.resolve_right (by simp [hx, ConsumerPhase.atFlag]))
      | served _ hn => exact .inl (Dispatcher.answered_of_answer hn)
      | released hx => exact .inl (hand.stamped (.inr hx))
      | _ => exact .inr rfl
    | turned hc =>
      rcases hc with rfl | rfl | rfl
      · obtain rfl : _ = 0 := ha
        exact absurd rfl hidle
      · exact ha.elim
      · exact ha.elim
    | strayMessage | strayResponse => exact ha.elim

theorem Run.awaited_of_waiting (hs : s.Fresh) (hd : d.Calm) (hr : Run d Action.Solo s h t)
    (hp : (t.producers p).phase = .waiting r q) : Awaited p r q [] t := by
  have hrel := (hr.handshake hs hd).relies p
  have hc : (t.producers p).phase.Carries r q := by rw [hp]; exact ⟨rfl, rfl⟩
  rw [hp] at hrel
  exact ⟨by rw [hp]; exact ⟨rfl, rfl⟩, hr.requestSequence hs hc, .inr hrel.1⟩

theorem Run.held (hs : s.Fresh) (hd : d.Calm) (hr : Run d Action.Solo s h t)
    (hi : Awaited p r q [] t) (hheld : t.Held) (hg : Run d Action.Looping t g u)
    (hopen : ∀ x, .returned p x ∉ g) : Awaited p r q g u ∧ u.Held := by
  induction hg with
  | start => exact ⟨hi, hheld⟩
  | next hg ha hstep ih =>
    obtain ⟨hi, hheld⟩ := ih fun x hx => hopen x (List.mem_append_left _ hx)
    have hr := hr.trans (hg.mono fun _ => Action.Looping.solo)
    have hes := fun x hx => hopen x (List.mem_append_right _ hx)
    have hex := hr.exclusive hs
    have hand := hr.handshake hs hd
    exact ⟨hi.step hex hand hd ha.solo (Machine.step_inv hstep) hes,
      hi.held hex hand hheld ha hstep hes⟩

/-- A producer that set no bound waits for a consumer that has stopped. -/
structure Stranded (p : Nat) (r : Request) (q : UInt64) (n : Nat) (t : Machine σ) : Prop where
  producer : t.producers p = ⟨none, .waiting r q⟩
  consumer : (t.consumers 0).phase = .stopped (.ok n)
  silent : t.channel.responseReady.isSet = false

theorem Stranded.step (hi : Stranded p r q n t) (hex : t.Exclusive) (ha : a.Looping)
    (hs : t.step d a = some u) : Stranded p r q n u := by
  have hin : (t.producers p).phase.holdsInFlight = true := by rw [hi.producer]; rfl
  have hother {e : Nat} {x : Producer} (he : p ≠ e) : Stranded p r q n (t.withProducer e x) :=
    ⟨(Machine.withProducer_ne _ _ he).trans hi.producer, hi.consumer, hi.silent⟩
  have hstep := Machine.step_inv hs
  generalize t.events d a = es at hstep
  cases hstep with
  | @called e r limit he =>
    refine hother ?_
    rintro rfl
    simp [hin] at he
  | @produced e x es y ch hx hstep =>
    by_cases he : p = e
    · subst he
      rw [hi.producer] at hx
      subst hx
      cases hstep with
      | woke h => simp [hi.silent] at h
    · obtain ⟨-, rfl⟩ := hex.still_of_inFlight hin he (hx ▸ hstep)
      exact hother he
  | @expired e r q limit hx hl =>
    refine hother ?_
    rintro rfl
    simp [hi.producer] at hl
  | @consumed c es y ch hstep =>
    obtain rfl : c = 0 := ha
    have hy := hi.consumer
    cases hstep with
    | polled hx | took hx | locked hx | shutOut hx | served hx | panicked hx | signalled hx
      | released hx => simp [hy] at hx
  | turned hc =>
    rcases hc with rfl | rfl | rfl
    · obtain rfl : _ = 0 := ha
      have hx := (Machine.step_idle hs).1
      simp [hi.consumer] at hx
    · exact ha.elim
    · exact ha.elim
  | shutdown => exact ⟨hi.producer, hi.consumer, hi.silent⟩
  | strayMessage | strayResponse => exact ha.elim

theorem Run.stranded (hs : s.Fresh) (hr : Run d Action.Solo s h t) (hi : Stranded p r q n t)
    (hg : Run d Action.Looping t g u) : Stranded p r q n u := by
  induction hg with
  | start => exact hi
  | next hg ha hstep ih =>
    exact ih.step ((hr.trans (hg.mono fun _ => Action.Looping.solo)).exclusive hs) ha hstep

theorem Run.stops (d : Dispatcher σ) (hx : (t.consumers 0).phase = .checking) :
    ∃ u, Run d Action.Looping t [] u ∧ u.producers = t.producers ∧ u.channel = t.channel ∧
      (u.consumers 0).phase = .stopped (.ok (t.consumers 0).served) := by
  let t' : Machine σ := { t with shutdown := true }
  let x := t.consumers 0
  have hset : Run d Action.Looping t [] t' :=
    Run.start.next (show Action.Looping (.setShutdown true) from trivial) rfl
  have hstep : t'.step d (.consume 0) =
      some { t'.withConsumer 0 { x with phase := .stopped (.ok x.served) } with
        channel := t.channel } := by
    simp [Machine.step, Consumer.advance, t', x, hx]
  have hes : t'.events d (.consume 0) = [] := by
    simp [Machine.events, Consumer.events, t', hx]
  have hrun := hset.next (show Action.Looping (.consume 0) from rfl) hstep
  rw [hes] at hrun
  exact ⟨_, hrun, rfl, rfl, by simp [x]⟩

/-- A producer that waits for its answer is sure to get it before the consumer stops, unless the
consumer was about to look at the flag. -/
theorem Run.answered_before_stop_iff (hs : s.Fresh) (hr : Run d Action.Solo s h t)
    (hp : (t.producers p).phase = .waiting r q) :
    ((∀ g u n, Run d Action.Looping t g u → (∀ x, .returned p x ∉ g) →
        (u.producers p).phase = .waiting r q → (u.consumers 0).phase = .stopped (.ok n) →
        u.channel.mailbox.region.header.answeredSequence = q) ↔
      t.channel.mailbox.region.header.answeredSequence = q ∨
        (t.consumers 0).phase.atFlag = false) ∧
    ∀ n, (t.consumers 0).phase = .stopped (.ok n) →
      t.channel.mailbox.region.header.answeredSequence ≠ q →
      t.channel.messageReady.isSet = true ∧ ((t.producers p).limit = none →
        ∀ g u, Run d Action.Looping t g u → u.producers p = t.producers p ∧
          (u.consumers 0).phase = .stopped (.ok n)) := by
  refine ⟨⟨fun hall => ?_, fun hsure g u n hg hopen hu hn => ?_⟩, fun n hn hna => ?_⟩
  · by_contra! hno
    obtain ⟨hna, hflag⟩ := hno
    cases hx : (t.consumers 0).phase with
    | checking =>
      obtain ⟨u, hu, hprod, hch, hn⟩ := Run.stops d hx
      have ha := hall [] u _ hu (by simp) (by rw [hprod, hp]) hn
      exact hna (hch ▸ ha)
    | stopped v =>
      cases v with
      | ok n => exact hna (hall [] t n .start (by simp) hp hx)
      | error e => simp [hx, ConsumerPhase.atFlag] at hflag
    | _ => simp [hx, ConsumerPhase.atFlag] at hflag
  -- the dispatcher may panic, but a consumer that reached its stop never saw that, and the
  -- invariants of calm dispatchers hold of it
  · have hd := d.calm_calmed
    obtain ⟨hg, ht⟩ := hg.calmed (fun _ => Action.Looping.solo) (by simp [hn])
    have hr := (hr.calmed (fun _ => id) ht).1
    have hi := hr.awaited_of_waiting hs hd hp
    have hheld : t.Held := hsure.imp (fun ha => ha.trans hi.numbered.symm) id
    obtain ⟨hi, hheld⟩ := hr.held hs hd hi hheld hg hopen
    have ha := hheld.resolve_right (by simp [hn, ConsumerPhase.atFlag])
    exact Eq.trans ha hi.numbered
  · have hd := d.calm_calmed
    have hc := (hr.calmed (fun _ => id) (by simp [hn])).1
    have hi := hc.awaited_of_waiting hs hd hp
    have hand := hc.handshake hs hd
    have hna : ¬t.channel.mailbox.region.Answered := fun ha => hna (Eq.trans ha hi.numbered)
    have hready : t.channel.messageReady.isSet = true :=
      (hand.noticed hi.phase hna).resolve_right (by simp [hn, ConsumerPhase.hasToken])
    refine ⟨hready, fun hl g u hg => ?_⟩
    have hp : t.producers p = ⟨none, .waiting r q⟩ := by rw [← hp, ← hl]
    have hleft : Stranded p r q n t :=
      ⟨hp, hn, Bool.eq_false_iff.mpr fun hf => hna (hand.response hf)⟩
    have hleft := hr.stranded hs hleft hg
    exact ⟨hleft.producer.trans hp.symm, hleft.consumer⟩

theorem Run.answered_before_stop_iff_sample :
    ∃ h t, Run (.adding 0) Action.Solo (.initial .smallest ()) h t ∧
      (t.producers 0).phase = .waiting .enumerateHandlers 1 ∧
      ∀ g u n, Run (.adding 0) Action.Looping t g u → (∀ x, .returned 0 x ∉ g) →
        (u.producers 0).phase = .waiting .enumerateHandlers 1 →
        (u.consumers 0).phase = .stopped (.ok n) →
        u.channel.mailbox.region.header.answeredSequence = 1 := by
  have hl : ∀ a ∈ .consume 0 :: (Action.roundTrip 0 .enumerateHandlers none).take 9, a.Solo := by
    simp [Action.roundTrip, Action.Solo]
  have hr := Run.of_play (d := .adding 0) (s := .initial .smallest ()) hl rfl
  exact ⟨_, _, hr, rfl,
    (Run.answered_before_stop_iff (Machine.fresh_smallest ()) hr rfl).1.mpr (.inr rfl)⟩

/-- A request is signalled while the consumer comes back from an idle wait. -/
def Action.signalledLate : List Action :=
  .consume 0 :: .call 0 .enumerateHandlers none ::
    (List.replicate 7 (.produce 0) ++ [.idle 0, .produce 0])

/-- The flag is raised after the signal, the consumer stops without an answer, and the caller waits
for good. -/
theorem Run.stopped_unanswered : ∃ h t u,
    Run (.adding 0) Action.Solo (.initial .smallest ()) h t ∧
    .signalled 0 .enumerateHandlers 1 ∈ h ∧ t.shutdown = false ∧
    Run (.adding 0) Action.Looping t [] u ∧ (u.consumers 0).phase = .stopped (.ok 0) ∧
    u.channel.mailbox.region.header.answeredSequence ≠ 1 ∧
    ∀ g v, Run (.adding 0) Action.Looping u g v →
      v.producers 0 = ⟨none, .waiting .enumerateHandlers 1⟩ := by
  have hl : ∀ a ∈ Action.signalledLate, a.Solo := by simp [Action.signalledLate, Action.Solo]
  obtain ⟨h, t, ht, hx, hwait, hsilent, hserved, hrest⟩ : ∃ h t,
      (Machine.initial .smallest ()).play (.adding 0) Action.signalledLate = some (h, t) ∧
      (t.consumers 0).phase = .checking ∧
      t.producers 0 = ⟨none, .waiting .enumerateHandlers 1⟩ ∧
      t.channel.responseReady.isSet = false ∧ (t.consumers 0).served = 0 ∧
      .signalled 0 .enumerateHandlers 1 ∈ h ∧ t.shutdown = false ∧
      t.channel.mailbox.region.header.answeredSequence ≠ 1 :=
    ⟨_, _, rfl, rfl, rfl, rfl, rfl, by decide, rfl, by decide⟩
  obtain ⟨hsig, hflag, hna⟩ := hrest
  have hr := Run.of_play hl ht
  obtain ⟨u, hu, hprod, hch, hn⟩ := Run.stops (.adding 0) hx
  rw [hserved] at hn
  have hleft : Stranded 0 .enumerateHandlers 1 0 u :=
    ⟨(congrFun hprod 0).trans hwait, hn, by rw [hch, hsilent]⟩
  refine ⟨h, t, u, hr, hsig, hflag, hu, hn, by rwa [hch], fun g v hg => ?_⟩
  exact (Run.stranded (Machine.fresh_smallest ())
    (hr.trans (hu.mono fun _ => Action.Looping.solo)) hleft hg).producer

end FirmwareHost
