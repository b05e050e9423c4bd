import FirmwareHost.Proofs.Serving

/-! Stale tokens. A consumer does not look at the numbers in the mailbox, so a token that an
abandoned request left behind makes it answer the next request early, and that request's own token
makes it answer once more. Without such a token a posted request is dispatched at most once. -/

namespace FirmwareHost

variable {σ : Type} {d : Dispatcher σ} {s t u v : Machine σ} {a : Action} {h g es : List Event}
  {p : Nat} {r : Request} {q : UInt64} {m : Region}

/-- The dispatcher can answer the region `m` with the region `n`, and is handed `r` for it, once and
nothing else. -/
def Dispatcher.AnswersOnce (d : Dispatcher σ) (r : Request) (m n : Region) : Prop :=
  ∃ y z, ∀ calls, d.recording.answer m (y, calls) = (some n, z, calls ++ [r])

theorem Dispatcher.Answers.once {n : Region} (h : d.Answers m n) (hr : Request.decode m = .ok r) :
    d.AnswersOnce r m n := by
  obtain ⟨y, z, hn⟩ := h
  exact ⟨y, z, calls_of_answer hr hn⟩

/-- An answer to a posted request always shows a response. -/
theorem Dispatcher.Answers.shown {n : Region} {x : Exchanged} {capacity : Nat}
    (h : d.Answers (.posted r q capacity) n) (hl : r.data.length < lengthLimit)
    (hbig : debugInfoHeaderSize ≤ capacity) (hx : n.collect r.function = .ok x) :
    x.1 = n.status ∧ Response.decode r.function n = .ok x.2 := by
  obtain ⟨y, z, hn⟩ := h
  obtain ⟨w, hw⟩ := readable_of_answer hl hbig hn
  obtain ⟨hs, hx | ⟨-, -, e, he⟩⟩ := Region.shown_of_collect hx
  · exact ⟨hs, hx⟩
  · rw [hw] at he
    cases he

/-- The requests in a history that were handed to the dispatcher. -/
def dispatches (h : List Event) : List Request :=
  (answers h).filterMap fun x => (Request.decode x.1).toOption

@[simp] theorem dispatches_append (h g : List Event) :
    dispatches (h ++ g) = dispatches h ++ dispatches g := by
  simp [dispatches]

theorem dispatches_eq_nil (ha : answers h = []) : dispatches h = [] := by
  rw [dispatches, ha]
  rfl

theorem dispatches_served (c : Nat) (m n : Region) :
    dispatches [.served c m n] = (Request.decode m).toOption.toList := by
  cases hm : Request.decode m <;> simp [dispatches, answers, hm, Except.toOption]

theorem mem_dispatches_served {c : Nat} {m n : Region} {k : Request} :
    k ∈ dispatches [.served c m n] ↔ Request.decode m = .ok k := by
  rw [dispatches_served]
  cases Request.decode m <;> simp [Except.toOption, eq_comm]

theorem length_dispatches_le (h : List Event) : (dispatches h).length ≤ (answers h).length :=
  List.length_filterMap_le ..

theorem Consumer.Step.calls {ch ch' : Channel} {y z : Consumer (σ × List Request)} {c : Nat}
    (hs : Consumer.Step d.recording c ch y es z ch') (hd : d.Calm) :
    z.dispatcher.2 = y.dispatcher.2 ++ dispatches es := by
  cases hs with
  | served hx hn =>
    rw [show y.dispatcher = (y.dispatcher.1, y.dispatcher.2) from rfl,
      Dispatcher.answer_recording] at hn
    obtain ⟨-, rfl⟩ := Prod.mk.inj hn
    rw [dispatches_served]
  | panicked hx hn => exact absurd hn hd.recording.answer_ne_none
  | _ => exact (List.append_nil _).symm

/-- What a history shows to be dispatched are the calls that the dispatcher got. -/
theorem Run.calls_eq_dispatches {s t : Machine (σ × List Request)} (hd : d.Calm)
    (hr : Run d.recording Action.Solo s h t) :
    (t.consumers 0).dispatcher.2 = (s.consumers 0).dispatcher.2 ++ dispatches h := by
  refine hr.preserves (I := fun h t => (t.consumers 0).dispatcher.2 =
    (s.consumers 0).dispatcher.2 ++ dispatches h) (List.append_nil _).symm ?_
  intro h t a es u hi ha hs
  rw [dispatches_append, ← List.append_assoc, ← hi]
  cases hs with
  | produced hx hs =>
    have hnone : answers es = [] := by cases hs <;> rfl
    rw [dispatches_eq_nil hnone, List.append_nil]
    rfl
  | @consumed c _ y ch hs =>
    obtain rfl : c = 0 := ha
    rw [Machine.withConsumer_self]
    exact hs.calls hd
  | @turned a c y hc hx hy hkeep =>
    obtain rfl := ha.turned hc
    rw [Machine.withConsumer_self, hkeep]
    exact (List.append_nil _).symm
  | _ => exact (List.append_nil _).symm

/-- A history without a post. -/
def NoPost (h : List Event) : Prop := ∀ p r q m, .posted p r q m ∉ h

/-- The tokens that can still make a consumer answer: one set, and one taken. -/
def Channel.tokens (ch : Channel) (y : ConsumerPhase) : Nat :=
  ch.messageReady.isSet.toNat + y.hasToken.toNat

def ProducerPhase.willSignal : ProducerPhase → Bool
  | .releasing .. | .signalling .. => true
  | _ => false

theorem Consumer.Step.tokens {ch ch' : Channel} {y z : Consumer σ} {c : Nat}
    (hs : Consumer.Step d c ch y es z ch') :
    (answers es).length + ch'.tokens z.phase ≤ ch.tokens y.phase := by
  cases hs with
  | polled hx hy =>
    have hz : ConsumerPhase.hasToken _ = false := ConsumerPhase.hasToken_of_atRest hy
    simp [answers, Channel.tokens, hz]
  | took hx hm => simp [answers, Channel.tokens, ConsumerPhase.hasToken, hm]
  | locked hx => simp [answers, Channel.tokens, ConsumerPhase.hasToken, hx]
  | shutOut hx => simp [answers, Channel.tokens, ConsumerPhase.hasToken]
  | served hx => simp [answers, Channel.tokens, ConsumerPhase.hasToken, hx]; omega
  | panicked hx => simp [answers, Channel.tokens, ConsumerPhase.hasToken]
  | signalled hx => simp [answers, Channel.tokens, ConsumerPhase.hasToken]
  | released hx => simp [answers, Channel.tokens, ConsumerPhase.hasToken]

theorem ProducerPhase.holdsInFlight_of_willSignal {x : ProducerPhase}
    (h : x.willSignal = true) : x.holdsInFlight = true := by
  cases x with
  | releasing | signalling => rfl
  | _ => cases h

theorem ProducerPhase.Step.tokens {ch ch' : Channel} {x y : ProducerPhase}
    (hs : Step p ch x es y ch') (hn : NoPost es) :
    answers es = [] ∧ (y.willSignal = true → x.willSignal = true) ∧
      (ch'.messageReady = ch.messageReady ∨
        (x.willSignal = true ∧ y.willSignal = false ∧ ch'.messageReady.isSet = true)) := by
  cases hs with
  | posted => exact absurd (List.mem_singleton_self _) (hn _ _ _ _)
  | released => exact ⟨rfl, id, .inl rfl⟩
  | signalled => exact ⟨rfl, nofun, .inr ⟨rfl, rfl, rfl⟩⟩
  | _ => exact ⟨rfl, nofun, .inl rfl⟩

def Machine.tokens (v : Machine σ) : Nat := v.channel.tokens (v.consumers 0).phase

/-- Since a post, what was answered and what can still be answered come from one token. -/
structure Spent (g : List Event) (v : Machine σ) : Prop where
  total : (answers g).length + v.tokens ≤ 1
  unsignalled : ∀ e, (v.producers e).phase.willSignal = true → (answers g).length + v.tokens = 0

theorem Spent.of_le (hi : Spent g v) {w : Machine σ}
    (hle : (answers es).length + w.tokens ≤ v.tokens)
    (hsig : ∀ e, (w.producers e).phase.willSignal = true →
      (v.producers e).phase.willSignal = true) : Spent (g ++ es) w := by
  have htotal := hi.total
  constructor
  · rw [answers_append, List.length_append]
    omega
  · intro e he
    have h0 := hi.unsignalled e (hsig e he)
    rw [answers_append, List.length_append]
    omega

theorem Spent.produced (hi : Spent g v) (hex : v.Exclusive) {x y : ProducerPhase} {ch : Channel}
    (hx : (v.producers p).phase = x) (hs : ProducerPhase.Step p v.channel x es y ch)
    (hn : NoPost es) :
    Spent (g ++ es) { v.withProducer p ⟨(v.producers p).limit, y⟩ with channel := ch } := by
  obtain ⟨ha, hsig, hm⟩ := hs.tokens hn
  have hothers : ∀ e, e ≠ p → ((v.withProducer p ⟨(v.producers p).limit, y⟩).producers e).phase =
      (v.producers e).phase := fun e he => by rw [Machine.withProducer_ne _ _ he]
  rcases hm with hm | ⟨hw, hno, hm⟩
  · refine hi.of_le (by simp [ha, Machine.tokens, Channel.tokens, hm]) fun e he => ?_
    by_cases hep : e = p
    · subst hep
      rw [Machine.withProducer_self] at he
      exact hx ▸ hsig he
    · exact hothers e hep ▸ he
  · -- The one token is set now, and nobody else is about to set another.
    have h0 := hi.unsignalled p (hx ▸ hw)
    simp only [Machine.tokens, Channel.tokens] at h0
    constructor
    · simp only [answers_append, ha, List.append_nil, Machine.tokens, Channel.tokens, hm,
        Bool.toNat_true, Machine.withProducer_consumers]
      omega
    · intro e he
      by_cases hep : e = p
      · subst hep
        rw [Machine.withProducer_self] at he
        simp [hno] at he
      · rw [hothers e hep] at he
        have hin := ProducerPhase.holdsInFlight_of_willSignal he
        have hpin := ProducerPhase.holdsInFlight_of_willSignal hw
        exact absurd (hex.inFlight_unique hin (hx ▸ hpin)) hep

theorem Spent.step (hi : Spent g v) (hex : v.Exclusive) {w : Machine σ} (ha : a.Solo)
    (hs : v.Step d a es w) (hn : NoPost es) : Spent (g ++ es) w := by
  cases hs with
  | @called e r limit | @expired e r q limit =>
    refine hi.of_le (Nat.le_of_eq (Nat.zero_add _)) fun b hb => ?_
    by_cases hbe : b = e
    · subst hbe
      rw [Machine.withProducer_self] at hb
      cases hb
    · rwa [Machine.withProducer_ne _ _ hbe] at hb
  | produced hx hs => exact hi.produced hex hx hs hn
  | @consumed c _ y ch hs =>
    obtain rfl : c = 0 := ha
    refine hi.of_le ?_ fun _ hb => hb
    have htok := hs.tokens
    rwa [Machine.tokens, Machine.withConsumer_self]
  | @turned a c y hc hx hy =>
    obtain rfl := ha.turned hc
    refine hi.of_le ?_ fun _ hb => hb
    simp [answers, Machine.tokens, Channel.tokens, ConsumerPhase.hasToken_of_atRest hx,
      ConsumerPhase.hasToken_of_atRest hy]
  | shutdown => exact hi.of_le (Nat.le_of_eq (Nat.zero_add _)) fun _ hb => hb
  | strayMessage | strayResponse => exact ha.elim

theorem Run.spent (hex : ∀ {g v}, Run d Action.Solo u g v → v.Exclusive) (hu : Spent [] u)
    (hr : Run d Action.Solo u g v) (hn : NoPost g) : Spent g v := by
  induction hr with
  | start => exact hu
  | next hr ha hstep ih =>
    have hn' : NoPost _ := fun p r q m hm => hn p r q m (List.mem_append_left _ hm)
    exact (ih hn').step (hex hr) ha (Machine.step_inv hstep) fun p r q m hm =>
      hn p r q m (List.mem_append_right _ hm)

/-- The last post in a history is the last one however the history is split. -/
theorem NoPost.last {before before' since since' : List Event} {e e' : Event}
    (hh : before ++ e :: since = before' ++ e' :: since')
    (he : ∃ p r q m, e = .posted p r q m) (he' : ∃ p r q m, e' = .posted p r q m)
    (hn : NoPost since) (hn' : NoPost since') : before = before' ∧ e = e' ∧ since = since' := by
  obtain ⟨p, r, q, m, rfl⟩ := he
  obtain ⟨p', r', q', m', rfl⟩ := he'
  rcases List.append_eq_append_iff.mp hh with ⟨l, rfl, hl⟩ | ⟨l, rfl, hl⟩
  · cases l with
    | nil => simpa using hl
    | cons x l =>
      obtain ⟨-, rfl⟩ := List.cons.inj hl
      exact absurd (by simp) (hn p' r' q' m')
  · cases l with
    | nil => simpa [eq_comm] using hl
    | cons x l =>
      obtain ⟨-, rfl⟩ := List.cons.inj hl
      exact absurd (by simp) (hn' p r q m)

theorem NoPost.of_quiet (hq : ∀ e ∈ h, e.Quiet) : NoPost h :=
  fun _ _ _ _ hm => (hq _ hm : False)

/-- A round trip whose post is answered only once returns with that answer. -/
theorem Run.returned_single_answer {allowed : Action → Prop} (hs : s.Fresh)
    (hr : Run d allowed s (h ++ .posted p r q m :: g) v) (hn : NoPost g)
    (hone : (answers g).length ≤ 1) {past future : List Event} {x : Exchanged}
    (hg : g = past ++ .returned p (.ok x) :: future) :
    ∃ n, answers past = [(m, n)] ∧ d.Answers m n ∧ n.collect r.function = .ok x := by
  subst hg
  have hsplit : h ++ .posted p r q m :: (past ++ .returned p (.ok x) :: future) =
      (h ++ .posted p r q m :: past) ++ .returned p (.ok x) :: future := by simp
  obtain ⟨front, r', q', n, after, hpast, hafter, hx⟩ := hr.returned_from_collected hs hsplit
  have hh : h ++ .posted p r q m :: (past ++ .returned p (.ok x) :: future) =
      front ++ .collected p r' q' n :: (after ++ .returned p (.ok x) :: future) := by
    rw [hsplit, hpast, List.append_assoc, List.cons_append]
  obtain ⟨before, k, between, rfl, hbetween, hl⟩ := hr.collected_from_post hs hh
  -- What was collected was posted last, and that is the post in question.
  have hafter' : NoPost (between ++ .collected p r' q' n :: after) := .of_quiet fun e he => by
    simp only [List.mem_append, List.mem_cons] at he
    rcases he with he | rfl | he
    · exact hbetween e he
    · trivial
    · exact hafter e he
  have hpast' : NoPost past := fun p r q m hm => hn p r q m (List.mem_append_left _ hm)
  rw [List.append_assoc, List.cons_append] at hpast
  obtain ⟨rfl, he, rfl⟩ := NoPost.last hpast ⟨_, _, _, _, rfl⟩ ⟨_, _, _, _, rfl⟩ hpast' hafter'
  cases he
  have hne : answers between ≠ [] := by
    intro hnone
    have hm : m = n := by simpa [hnone, Leads] using hl
    obtain ⟨hq0, -, -, hpost⟩ := hr.sound hs (e := .posted p r q m) (by simp)
    have hq : n.header.answeredSequence = q := hr.sound hs (e := .collected p r q n) (by simp)
    rw [← hm, hpost] at hq
    exact hq0 hq.symm
  have hlen : (answers between).length + (answers after).length ≤ 1 := by
    have hle : (answers (between ++ .collected p r q n :: after)).length ≤ 1 := by
      rw [answers_append, List.length_append] at hone
      omega
    simpa [answers] using hle
  have hpos := List.length_pos_iff.mpr hne
  obtain ⟨⟨k, l⟩, hbetween1⟩ := List.length_eq_one_iff.mp (by omega : (answers between).length = 1)
  have hafter0 := List.length_eq_zero_iff.mp (by omega : (answers after).length = 0)
  rw [hbetween1] at hl
  obtain ⟨rfl, rfl⟩ := hl
  obtain ⟨c, hc⟩ := mem_answers (h := between) (x := (k, l)) (by simp [hbetween1])
  refine ⟨l, ?_, hr.sound hs (e := .served c k l) (by simp [hc]), hx⟩
  rw [answers_append, hbetween1]
  simpa [answers] using hafter0

/-- An awake consumer answers what is in the mailbox and leaves something to answer again. -/
theorem Run.answers_again (hd : d.Calm) (hw : (v.consumers 0).phase = .woken)
    (hfree : v.channel.mailbox.lock = .free)
    (hr : Request.decode v.channel.mailbox.region = .ok r) :
    ∃ n r' w, Run d Action.Consumes v [.served 0 v.channel.mailbox.region n] w ∧
      w.producers = v.producers ∧
      w.channel.mailbox = ⟨n, .free, v.channel.mailbox.acquisitions + 1⟩ ∧
      Request.decode n = .ok r' ∧ (w.consumers 0).phase = .checking := by
  obtain ⟨n, z, hn⟩ := hd.answers v.channel.mailbox.region (v.consumers 0).dispatcher
  obtain ⟨r', hr'⟩ := Dispatcher.decode_of_answer hr hn
  obtain ⟨w, hrun, hp, hc, hy⟩ := Run.serves hw hfree hn
  exact ⟨n, r', w, hrun, hp, by rw [hc], hr', hy⟩

/-- With a stale token about, a posted request can be dispatched before its producer signals it,
and the signal has it dispatched once more. -/
theorem Run.dispatched_again (hd : d.Calm) (hp : (u.producers p).phase = .releasing r q)
    (hr : Request.decode u.channel.mailbox.region = .ok r)
    (hstale : u.channel.messageReady.isSet = true ∧ (u.consumers 0).phase.atRest = true ∨
      (u.consumers 0).phase = .woken) :
    ∃ g v, Run d Action.Solo u g v ∧ NoPost g ∧ 1 < (dispatches g).length := by
  have hsolo : Action.Solo (.produce p) := trivial
  have hmono {v w : Machine σ} {g : List Event} (hg : Run d Action.Consumes v g w) :
      Run d Action.Solo v g w := hg.mono fun _ ha => ha.solo
  obtain ⟨v₁, hr₁, hy₁, hc₁, hp₁⟩ := Run.produce (d := d) hsolo hp .released
  obtain ⟨v₂, hr₂, hp₂, hm₂, hy₂⟩ : ∃ w, Run d Action.Consumes v₁ [] w ∧
      w.producers = v₁.producers ∧ w.channel.mailbox = v₁.channel.mailbox ∧
      (w.consumers 0).phase = .woken := by
    rcases hstale with ⟨hm, hat⟩ | hw
    · obtain ⟨w, hr, hp, hc, hy, -⟩ := Run.wakes d (v := v₁) (by rw [hc₁]; exact hm)
        (by rw [hy₁]; exact hat)
      exact ⟨w, hr, hp, by rw [hc], hy⟩
    · exact ⟨v₁, .start, rfl, rfl, by rw [hy₁]; exact hw⟩
  obtain ⟨n, r', v₃, hr₃, hp₃, hm₃, hn, hy₃⟩ := Run.answers_again hd hy₂ (by rw [hm₂, hc₁])
    (by rw [hm₂, hc₁]; exact hr)
  have hphase : (v₃.producers p).phase = .signalling r q := by rw [hp₃, hp₂, hp₁]
  obtain ⟨v₄, hr₄, hy₄, hc₄, -⟩ := Run.produce (d := d) hsolo hphase .signalled
  obtain ⟨v₅, hr₅, -, hm₅, hy₅, -⟩ := Run.wakes d (v := v₄) (by rw [hc₄]) (by rw [hy₄, hy₃]; rfl)
  obtain ⟨k, -, v₆, hr₆, -, -, -, -⟩ := Run.answers_again hd hy₅ (by rw [hm₅, hc₄, hm₃])
    (by rw [hm₅, hc₄, hm₃]; exact hn)
  have hrun := ((((hr₁.trans (hmono hr₂)).trans (hmono hr₃)).trans hr₄).trans (hmono hr₅)).trans
    (hmono hr₆)
  refine ⟨_, v₆, hrun, by simp [NoPost], ?_⟩
  simp [dispatches, answers, hm₂, hc₁, hr, hm₅, hc₄, hm₃, hn, Except.toOption]

/-- What a request that was given up for the length of its data leaves to be read. -/
def LeftBehind (g : List Event) (k : Request) : Prop :=
  ∃ e r, .admitted e r ∈ g ∧ lengthLimit ≤ r.data.length ∧ k = r.blank

theorem LeftBehind.append {k : Request} (h : LeftBehind g k) (es : List Event) :
    LeftBehind (g ++ es) k := by
  obtain ⟨e, r, ha, hl, hk⟩ := h
  exact ⟨e, r, List.mem_append_left _ ha, hl, hk⟩

namespace ProducerPhase

/-- The phases of a producer that is admitted with `r` and has not written it yet. -/
def Brings (r : Request) : ProducerPhase → Prop
  | .numbering r' | .acquiring r' _ | .discarding r' _ | .writing r' _ => r' = r
  | _ => False

theorem Brings.holdsInFlight {x : ProducerPhase} (h : x.Brings r) : x.holdsInFlight = true := by
  cases x with
  | numbering | acquiring | discarding | writing => rfl
  | _ => exact h.elim

theorem Step.brings {ch ch' : Channel} {x y : ProducerPhase} (hs : Step p ch x es y ch')
    (hy : y.Brings r) : es = [.admitted p r] ∨ x.Brings r := by
  cases hs with
  | admitted =>
    cases hy
    exact .inl rfl
  | numbered | locked | discarded => exact .inr hy
  | _ => exact hy.elim

end ProducerPhase

/-- What a producer brings, the history shows to be admitted. -/
def Producer.Admitted (g : List Event) (e : Nat) (x : Producer) : Prop :=
  ∀ r, x.phase.Brings r → .admitted e r ∈ g

theorem Producer.Admitted.step {w : Machine σ} (hi : ∀ e, (v.producers e).Admitted g e)
    (hs : v.Step d a es w) (e : Nat) : (w.producers e).Admitted (g ++ es) e := by
  have hold (e : Nat) : (v.producers e).Admitted (g ++ es) e :=
    fun r hb => List.mem_append_left _ (hi e r hb)
  cases hs with
  | called | expired =>
    exact Machine.forall_withProducer (P := Admitted _) (fun _ => False.elim) (fun e _ => hold e) e
  | produced hx hs =>
    refine Machine.forall_withProducer (P := Admitted _) (fun r hb => ?_) (fun e _ => hold e) e
    rcases hs.brings hb with rfl | hb
    · exact List.mem_append_right _ (List.mem_singleton_self _)
    · exact hold _ r (hx ▸ hb)
  | _ => exact hold e

/-- Since the post of `r` nothing was dispatched but `r` or what another request left behind, and
until the first answer nothing else can be read. -/
structure Dispatched (r : Request) (g : List Event) (v : Machine σ) : Prop where
  own : ∀ k ∈ dispatches g, k = r ∨ LeftBehind g k
  unanswered : answers g = [] →
    ∀ k, Request.decode v.channel.mailbox.region = .ok k → k = r ∨ LeftBehind g k

theorem Dispatched.keep (hi : Dispatched r g v) {w : Machine σ} (ha : answers es = [])
    (hregion : ∀ k, Request.decode w.channel.mailbox.region = .ok k →
      Request.decode v.channel.mailbox.region = .ok k ∨ LeftBehind g k) :
    Dispatched r (g ++ es) w := by
  have hnone : dispatches (g ++ es) = dispatches g := by
    rw [dispatches_append, dispatches_eq_nil ha, List.append_nil]
  refine ⟨fun k hk => ?_, fun h k hk => ?_⟩
  · exact (hi.own k (hnone ▸ hk)).imp_right (·.append es)
  · rcases hregion k hk with hk | hk
    · exact (hi.unanswered (by simpa [ha] using h) k hk).imp_right (·.append es)
    · exact .inr (hk.append es)

theorem Dispatched.step (hi : Dispatched r g v) (hadm : ∀ e, (v.producers e).Admitted g e)
    {w : Machine σ} (hs : v.Step d a es w) (hn : NoPost es)
    (hone : (answers (g ++ es)).length ≤ 1) : Dispatched r (g ++ es) w := by
  cases hs with
  | produced hx hs =>
    cases hs with
    | posted => exact absurd (List.mem_singleton_self _) (hn _ _ _ _)
    | @rejected r' q e m hm =>
      obtain ⟨-, rfl, hlong⟩ := Region.refused_of_post hm
      refine hi.keep rfl fun k hk => .inr ?_
      obtain ⟨hfit, hk⟩ := Request.blank_of_decode_refused hk
      have hbring : ProducerPhase.Brings r' (.writing r' q) := rfl
      exact ⟨_, r', hadm _ r' (hx ▸ hbring), hlong.resolve_left (Nat.not_lt.mpr hfit), hk⟩
    | _ => exact hi.keep rfl fun _ => .inl
  | @consumed c _ y ch hs =>
    cases hs with
    | served hx hn =>
      have hnone : answers g = [] := by
        rw [answers_append, List.length_append] at hone
        exact List.length_eq_zero_iff.mp (Nat.le_zero.mp (Nat.le_of_succ_le_succ hone))
      refine ⟨fun k hk => ?_, fun h => by simp [answers] at h⟩
      rw [dispatches_append, dispatches_eq_nil hnone, List.nil_append, mem_dispatches_served] at hk
      exact (hi.unanswered hnone k hk).imp_right (·.append _)
    | _ => exact hi.keep rfl fun _ => .inl
  | _ => exact hi.keep rfl fun _ => .inl

theorem Run.dispatched (hm : Request.decode m = .ok r) (hu : u.channel.mailbox.region = m)
    (hbring : ∀ e k, ¬ (u.producers e).phase.Brings k)
    (hone : ∀ {g v}, Run d Action.Solo u g v → NoPost g → (answers g).length ≤ 1)
    (hr : Run d Action.Solo u g v) (hn : NoPost g) :
    Dispatched r g v ∧ ∀ e, (v.producers e).Admitted g e := by
  induction hr with
  | start =>
    refine ⟨⟨nofun, fun _ k hk => .inl ?_⟩, fun e k hk => absurd hk (hbring e k)⟩
    rw [hu, hm] at hk
    exact (Except.ok.inj hk).symm
  | next hr ha hstep ih =>
    have hfirst : NoPost _ := fun p r q m hm => hn p r q m (List.mem_append_left _ hm)
    obtain ⟨hi, hadm⟩ := ih hfirst
    have hstep' := Machine.step_inv hstep
    exact ⟨hi.step hadm hstep' (fun p r q m hm => hn p r q m (List.mem_append_right _ hm))
      (hone (hr.next ha hstep) hn), Producer.Admitted.step hadm hstep'⟩

theorem Machine.after_post (hu : t.step d (.produce p) = some u)
    (hpost : t.events d (.produce p) = [.posted p r q m]) :
    (t.producers p).phase = .writing r q ∧ (u.producers p).phase = .releasing r q ∧
      u.channel.mailbox.region = m ∧ u.channel.messageReady = t.channel.messageReady ∧
      u.consumers = t.consumers := by
  have hstep := step_inv hu
  rw [hpost] at hstep
  cases hstep with
  | produced hx hstep =>
    cases hstep with
    | posted => exact ⟨hx, by simp, rfl, rfl, rfl⟩

theorem ConsumerPhase.hasToken_of_not_holdsMailbox {y : ConsumerPhase}
    (hm : y.holdsMailbox = false) (hw : y ≠ .woken) : y.hasToken = false := by
  cases y with
  | woken => exact absurd rfl hw
  | answering => cases hm
  | _ => rfl

theorem ConsumerPhase.atRest_of_not_holdsMailbox {y : ConsumerPhase} (hm : y.holdsMailbox = false)
    (hw : y ≠ .woken) (hp : y ≠ .panicked) : y.atRest = true := by
  cases y with
  | checking | waiting | stopped => rfl
  | woken => exact absurd rfl hw
  | panicked => exact absurd rfl hp
  | _ => cases hm

/-- Exactly if a post finds no stale token, none set and none taken by a consumer that is yet to
lock the mailbox, at most one request is dispatched before the next post, the posted one or what one
that was given up after it left behind, and the round trip returns with the one answer to its own. -/
theorem Run.dispatched_once_iff (hs : s.Fresh) (hd : d.Calm) (hr : Run d Action.Solo s h t)
    (hu : t.step d (.produce p) = some u)
    (hpost : t.events d (.produce p) = [.posted p r q m]) :
    (∀ g v, Run d Action.Solo u g v → NoPost g →
      (dispatches g).length ≤ 1 ∧ (∀ k ∈ dispatches g, k = r ∨ LeftBehind g k) ∧
      ∀ past x future, g = past ++ .returned p (.ok x) :: future →
        ∃ n, answers past = [(m, n)] ∧ d.AnswersOnce r m n ∧ x.1 = n.status ∧
          Response.decode r.function n = .ok x.2) ↔
    t.channel.messageReady.isSet = false ∧ (t.consumers 0).phase ≠ .woken := by
  have hru : Run d Action.Solo s (h ++ [.posted p r q m]) u := hpost ▸ hr.next trivial hu
  obtain ⟨-, hl, -, rfl⟩ := hru.sound hs (e := .posted p r q m) (by simp)
  have hdecode : Request.decode (.posted r q s.channel.mailbox.capacity) = .ok r :=
    Request.decode_posted hl
  obtain ⟨hx, hp, hregion, hmessage, hcons⟩ := Machine.after_post hu hpost
  -- The producer holds the mailbox, so the consumer does not.
  have hno := (hr.exclusive hs).consumer_of_producer 0 (p := p) (by rw [hx]; rfl)
  constructor
  · intro hall
    by_contra hstale
    have hcalm := (hr.handshake hs hd).calm
    obtain ⟨g, v, hg, hn, htwice⟩ := Run.dispatched_again hd hp (by rw [hregion, hdecode]) (by
      rw [hmessage, hcons]
      by_cases hw : (t.consumers 0).phase = .woken
      · exact .inr hw
      · refine .inl ⟨?_, ConsumerPhase.atRest_of_not_holdsMailbox hno hw hcalm⟩
        simpa [hw] using hstale)
    exact absurd (hall g v hg hn).1 (Nat.not_le.mpr htwice)
  · rintro ⟨hclean, hw⟩ g v hg hn
    have htokens : u.tokens = 0 := by
      simp [Machine.tokens, Channel.tokens, hmessage, hcons, hclean,
        ConsumerPhase.hasToken_of_not_holdsMailbox hno hw]
    have hspent : Spent [] u := ⟨by simp [answers, htokens], fun _ _ => by simp [answers, htokens]⟩
    have hone {g v} (hg : Run d Action.Solo u g v) (hn : NoPost g) : (answers g).length ≤ 1 :=
      Nat.le_of_add_right_le (Run.spent (fun hg => (hru.trans hg).exclusive hs) hspent hg hn).total
    have hbring (e : Nat) (k : Request) : ¬ (u.producers e).phase.Brings k := by
      intro hk
      have hin : (u.producers p).phase.holdsInFlight = true := by rw [hp]; rfl
      obtain rfl := (hru.exclusive hs).inFlight_unique hk.holdsInFlight hin
      rw [hp] at hk
      exact hk
    refine ⟨Nat.le_trans (length_dispatches_le g) (hone hg hn),
      (Run.dispatched hdecode hregion hbring hone hg hn).1.own, fun past x future hpast => ?_⟩
    have hrg := hru.trans hg
    rw [List.append_assoc, List.singleton_append] at hrg
    obtain ⟨n, hlone, ha, hx⟩ := hrg.returned_single_answer hs hn (hone hg hn) hpast
    exact ⟨n, hlone, ha.once hdecode, ha.shown hl hs.spacious hx⟩

/-- The first post of all finds no token. -/
theorem Run.dispatched_once_iff_sample : ∃ t u : Machine Unit,
    t.step (.adding 0) (.produce 0) = some u ∧
    (t.channel.messageReady.isSet = false ∧ (t.consumers 0).phase ≠ .woken) ∧
    ∀ g v, Run (.adding 0) Action.Solo u g v → NoPost g →
      (dispatches g).length ≤ 1 ∧
      (∀ k ∈ dispatches g, k = .enumerateHandlers ∨ LeftBehind g k) ∧
      ∀ past x future, g = past ++ .returned 0 (.ok x) :: future →
        ∃ n, answers past = [(.posted .enumerateHandlers 1 32, n)] ∧
          (Dispatcher.adding 0).AnswersOnce .enumerateHandlers (.posted .enumerateHandlers 1 32) n ∧
          x.1 = n.status ∧ Response.decode .enumerateHandlers n = .ok x.2 := by
  obtain ⟨⟨h, t⟩, hplay, ⟨u, hu⟩, hpost, hm, hy⟩ : ∃ x : List Event × Machine Unit,
      (Machine.initial .smallest ()).play (.adding 0)
        ((Action.roundTrip 0 .enumerateHandlers none).take 6) = some x ∧
      (∃ u, x.2.step (.adding 0) (.produce 0) = some u) ∧
      x.2.events (.adding 0) (.produce 0) =
        [.posted 0 .enumerateHandlers 1 (.posted .enumerateHandlers 1 32)] ∧
      x.2.channel.messageReady.isSet = false ∧ (x.2.consumers 0).phase = .checking :=
    ⟨_, rfl, ⟨_, rfl⟩, rfl, rfl, rfl⟩
  have hr : Run (.adding 0) Action.Solo (.initial .smallest ()) h t :=
    .of_play (by simp [Action.roundTrip, Action.Solo]) hplay
  have hclean : t.channel.messageReady.isSet = false ∧ (t.consumers 0).phase ≠ .woken := by
    refine ⟨hm, fun hw => ?_⟩
    cases hy.symm.trans hw
  exact ⟨t, u, hu, hclean, (Run.dispatched_once_iff (Machine.fresh_smallest ())
    (Dispatcher.calm_adding 0) hr hu hpost).mpr hclean⟩

/-- A request times out before the consumer wakes to its token, and the consumer answers the next
one for it before and for its own token after that one is signalled. -/
def Action.overtaken (r k : Request) : List Action :=
  .call 0 r (some 1) :: List.replicate 8 (Action.produce 0) ++
    [.expire 0, .produce 0, .call 1 k none] ++ List.replicate 7 (Action.produce 1) ++
    List.replicate 6 (Action.consume 0) ++ [.produce 1] ++
    List.replicate 6 (Action.consume 0) ++ List.replicate 4 (Action.produce 1)

/-- The second request is dispatched twice, the second time as the first answer left it, and it is
this answer that its caller gets. -/
theorem Run.dispatched_twice : ∃ before g t,
    Run (.adding 1) Action.Solo (.initial .smallest ()) (before ++
      .posted 1 (.invokeHandler default [0]) 2 (.posted (.invokeHandler default [0]) 2 32) :: g) t ∧
    NoPost g ∧
    dispatches g = [.invokeHandler default [0], .invokeHandler default [1]] ∧
    .returned 1 (.ok (.success, .invoke .success [2])) ∈ g := by
  let r (n : UInt8) : Request := .invokeHandler default [n]
  let n := (Region.posted (r 1) 2 32).markAnswered
  let k := (Region.posted (r 2) 2 32).markAnswered
  let before : List Event := [.admitted 0 (r 9), .posted 0 (r 9) 1 (.posted (r 9) 1 32),
    .signalled 0 (r 9) 1, .returned 0 (.error .timeout), .admitted 1 (r 0)]
  let g : List Event := [.served 0 (.posted (r 0) 2 32) n, .signalled 1 (r 0) 2, .served 0 n k,
    .woke 1, .collected 1 (r 0) 2 k, .returned 1 (.ok (.success, .invoke .success [2]))]
  obtain ⟨t, hr⟩ : ∃ t, Run (.adding 1) Action.Solo (.initial .smallest ())
      (before ++ .posted 1 (r 0) 2 (.posted (r 0) 2 32) :: g) t :=
    exists_of_play (l := Action.overtaken (r 9) (r 0)) (by simp [Action.overtaken, Action.Solo])
      (by decide +kernel)
  have hg : dispatches g = [r 0, r 1] := by decide +kernel
  exact ⟨before, g, t, hr, by simp [NoPost, g], hg, by simp [g]⟩

end FirmwareHost
