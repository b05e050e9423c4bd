import FirmwareHost.Proofs.Wakeups

/-! Round trips in series. With one consumer and no bounded wait, what happens is what would happen
if each round trip ran from its beginning to its end before the next one began. -/

namespace FirmwareHost

variable {σ : Type}

/-- A whole round trip: the region `m` is posted, and the region `n` is its answer. -/
def Event.round (p : Nat) (r : Request) (q : UInt64) (m n : Region) (w : Response) : List Event :=
  [.admitted p r, .posted p r q m, .signalled p r q, .served 0 m n, .woke p, .collected p r q n,
    .returned p (.ok (n.status, w))]

/-- Histories in which each round trip runs by itself, with the dispatcher's state before and after.
Every posted request reads as itself, gets one answer, for which it is handed to the dispatcher once
and nothing else is, and returns the status and the response that this answer left. A request is
refused before its post only where its data outgrow the length word. -/
inductive Serial (d : Dispatcher σ) (capacity : Nat) (y : σ) : List Event → σ → Prop
  | nil : Serial d capacity y [] y
  | refused {h z p r} (hs : Serial d capacity y h z) (hl : lengthLimit ≤ r.data.length) :
      Serial d capacity y (h ++ [.admitted p r, .returned p (.error .badBufferSize)]) z
  | answered {h z p r q n z' w} (hs : Serial d capacity y h z)
      (hr : Request.decode (.posted r q capacity) = .ok r)
      (hn : d.answer (.posted r q capacity) z = (some n, z'))
      (hc : ∀ calls, d.recording.answer (.posted r q capacity) (z, calls) =
        (some n, z', calls ++ [r]))
      (hw : Response.decode r.function n = .ok w) :
      Serial d capacity y (h ++ Event.round p r q (.posted r q capacity) n w) z'

/-- No token is set, and the consumer is between requests with its dispatcher in state `z`. -/
structure Channel.Quiet (ch : Channel) (y : Consumer σ) (z : σ) : Prop where
  message : ch.messageReady.isSet = false
  response : ch.responseReady.isSet = false
  rest : y.phase.atRest = true
  dispatcher : y.dispatcher = z

/-- How far a round trip that began with the dispatcher in state `z` has come: its events, and what
they say of its producer, of the channel and of the consumer. -/
inductive Underway (d : Dispatcher σ) (capacity : Nat) (z : σ) (p : Nat) (r : Request) :
    List Event → ProducerPhase → Channel → Consumer σ → Prop
  | preparing {x ch y} (hx : x = .numbering r ∨ ∃ q, x = .acquiring r q ∨ x = .discarding r q ∨
        x = .writing r q) (hf : r.encodedLength ≤ capacity) (hq : ch.Quiet y z) :
      Underway d capacity z p r [.admitted p r] x ch y
  | refused {ch y} (hl : lengthLimit ≤ r.data.length) (hq : ch.Quiet y z) :
      Underway d capacity z p r [.admitted p r] (.leaving (.error .badBufferSize)) ch y
  | posted {x q ch y} (hx : x = .releasing r q ∨ x = .signalling r q)
      (hl : r.data.length < lengthLimit) (hm : ch.mailbox.region = .posted r q capacity)
      (hq : ch.Quiet y z) :
      Underway d capacity z p r [.admitted p r, .posted p r q (.posted r q capacity)] x ch y
  | signalled {q ch y} (hl : r.data.length < lengthLimit)
      (hm : ch.mailbox.region = .posted r q capacity) (hr : ch.responseReady.isSet = false)
      (ht : ch.messageReady.isSet = true ∧ y.phase.atRest = true ∨
        ch.messageReady.isSet = false ∧ y.phase.hasToken = true) (hz : y.dispatcher = z) :
      Underway d capacity z p r
        [.admitted p r, .posted p r q (.posted r q capacity), .signalled p r q] (.waiting r q) ch y
  | served {q n z' ch y} (hl : r.data.length < lengthLimit)
      (hn : d.answer (.posted r q capacity) z = (some n, z')) (hm : ch.mailbox.region = n)
      (ht : ch.messageReady.isSet = false)
      (hr : ch.responseReady.isSet = false ∧ y.phase = .signalling ∨
        ch.responseReady.isSet = true ∧ (y.phase = .releasing ∨ y.phase.atRest = true))
      (hz : y.dispatcher = z') :
      Underway d capacity z p r [.admitted p r, .posted p r q (.posted r q capacity),
        .signalled p r q, .served 0 (.posted r q capacity) n] (.waiting r q) ch y
  | woke {x q n z' ch y} (hl : r.data.length < lengthLimit)
      (hn : d.answer (.posted r q capacity) z = (some n, z')) (hm : ch.mailbox.region = n)
      (ht : ch.messageReady.isSet = false) (hr : ch.responseReady.isSet = false)
      (hx : x = .woken r q ∧ (y.phase = .releasing ∨ y.phase.atRest = true) ∨
        x = .reading r q ∧ y.phase.atRest = true) (hz : y.dispatcher = z') :
      Underway d capacity z p r [.admitted p r, .posted p r q (.posted r q capacity),
        .signalled p r q, .served 0 (.posted r q capacity) n, .woke p] x ch y
  | collected {q n z' w ch y} (hl : r.data.length < lengthLimit)
      (hn : d.answer (.posted r q capacity) z = (some n, z'))
      (hw : Response.decode r.function n = .ok w) (hq : ch.Quiet y z') :
      Underway d capacity z p r [.admitted p r, .posted p r q (.posted r q capacity),
        .signalled p r q, .served 0 (.posted r q capacity) n, .woke p, .collected p r q n]
        (.leaving (.ok (n.status, w))) ch y

/-- A history is serial up to the round trip that is under way, if there is one. -/
inductive InSeries (d : Dispatcher σ) (capacity : Nat) (y : σ) : List Event → Machine σ → Prop
  | between {h t z} (hs : Serial d capacity y h z) (hfree : t.channel.inFlight = .free)
      (hq : t.channel.Quiet (t.consumers 0) z) : InSeries d capacity y h t
  | within {h g t z p r} (hs : Serial d capacity y h z)
      (hu : Underway d capacity z p r g (t.producers p).phase t.channel (t.consumers 0)) :
      InSeries d capacity y (h ++ g) t

variable {d : Dispatcher σ} {s t u : Machine σ} {a : Action} {h g es : List Event} {capacity : Nat}
  {y z : σ} {p : Nat} {r : Request} {x x' : ProducerPhase} {ch ch' : Channel} {c c' : Consumer σ}

theorem Serial.append_round {q : UInt64} {n : Region} {z' : σ} {w : Response}
    (hs : Serial d capacity y h z) (hl : r.data.length < lengthLimit)
    (hn : d.answer (.posted r q capacity) z = (some n, z'))
    (hw : Response.decode r.function n = .ok w) :
    Serial d capacity y (h ++ Event.round p r q (.posted r q capacity) n w) z' :=
  have hr := Request.decode_posted hl
  .answered hs hr hn (Dispatcher.calls_of_answer hr hn) hw

theorem Underway.holdsInFlight (hu : Underway d capacity z p r g x ch c) :
    x.holdsInFlight = true := by
  cases hu with
  | preparing hx => rcases hx with rfl | ⟨q, rfl | rfl | rfl⟩ <;> rfl
  | posted hx => rcases hx with rfl | rfl <;> rfl
  | woke _ _ _ _ _ hx => rcases hx with ⟨rfl, -⟩ | ⟨rfl, -⟩ <;> rfl
  | _ => rfl

theorem Channel.Quiet.consumed (hq : ch.Quiet c z) (hs : Consumer.Step d 0 ch c es c' ch') :
    es = [] ∧ ch' = ch ∧ ch.Quiet c' z := by
  cases hs with
  | polled _ hy => exact ⟨rfl, rfl, hq.message, hq.response, hy, hq.dispatcher⟩
  | took _ hm => simp [hq.message] at hm
  | locked hx | shutOut hx | served hx | panicked hx | signalled hx | released hx =>
    have := hq.rest
    simp [hx, ConsumerPhase.atRest] at this

theorem Consumer.Step.ne_panicked {e : Nat} (hs : Consumer.Step d e ch c es c' ch')
    (hd : d.Calm) : c'.phase ≠ .panicked := by
  cases hs with
  | polled _ hy =>
    rintro rfl
    cases hy
  | panicked _ hn => exact absurd hn hd.answer_ne_none
  | _ => nofun

/-- The consumer's part in a round trip. -/
theorem Underway.consumed (hu : Underway d capacity z p r g x ch c) (hd : c'.phase ≠ .panicked)
    (hopen : ch.mailbox.lock ≠ .poisoned) (hs : Consumer.Step d 0 ch c es c' ch') :
    Underway d capacity z p r (g ++ es) x ch' c' := by
  cases hu with
  | preparing hx hf hq =>
    obtain ⟨rfl, rfl, hq⟩ := hq.consumed hs
    exact .preparing hx hf hq
  | refused hl hq =>
    obtain ⟨rfl, rfl, hq⟩ := hq.consumed hs
    exact .refused hl hq
  | posted hx hl hm hq =>
    obtain ⟨rfl, rfl, hq⟩ := hq.consumed hs
    exact .posted hx hl hm hq
  | collected hl hn hw hq =>
    obtain ⟨rfl, rfl, hq⟩ := hq.consumed hs
    exact .collected hl hn hw hq
  | signalled hl hm hr ht hz =>
    cases hs with
    | polled hx hy =>
      have ht := ht.resolve_right (by simp [hx, ConsumerPhase.hasToken])
      exact .signalled hl hm hr (.inl ⟨ht.1, hy⟩) hz
    | took => exact .signalled hl hm hr (.inr ⟨rfl, rfl⟩) hz
    | locked hx =>
      have ht := ht.resolve_left (by simp [hx, ConsumerPhase.atRest])
      exact .signalled hl hm hr (.inr ⟨ht.1, rfl⟩) hz
    | shutOut _ hl => exact absurd hl hopen
    | served hx hn =>
      have ht := ht.resolve_left (by simp [hx, ConsumerPhase.atRest])
      rw [hm, hz] at hn
      rw [hm]
      exact .served hl hn rfl ht.1 (.inl ⟨hr, rfl⟩) rfl
    | panicked => exact absurd rfl hd
    | signalled hx | released hx =>
      rcases ht with ht | ht <;> simp [hx, ConsumerPhase.atRest, ConsumerPhase.hasToken] at ht
  | served hl hn hm ht hr hz =>
    cases hs with
    | polled hx hy =>
      have hr := hr.resolve_left (by simp [hx])
      exact .served hl hn hm ht (.inr ⟨hr.1, .inr hy⟩) hz
    | took _ hm' => simp [ht] at hm'
    | locked hx | shutOut hx | served hx | panicked hx =>
      rcases hr with ⟨-, hy⟩ | ⟨-, hy | hy⟩ <;> simp [hx, ConsumerPhase.atRest] at hy
    | signalled => exact .served hl hn hm ht (.inr ⟨rfl, .inl rfl⟩) hz
    | released hx =>
      have hr := hr.resolve_left (by simp [hx])
      exact .served hl hn hm ht (.inr ⟨hr.1, .inr rfl⟩) hz
  | woke hl hn hm ht hr hx hz =>
    cases hs with
    | polled _ hy =>
      refine .woke hl hn hm ht hr ?_ hz
      exact hx.imp (.imp_right fun _ => .inr hy) (.imp_right fun _ => hy)
    | took _ hm' => simp [ht] at hm'
    | locked hy | shutOut hy | served hy | panicked hy | signalled hy =>
      rcases hx with ⟨-, hx | hx⟩ | ⟨-, hx⟩ <;> simp [hy, ConsumerPhase.atRest] at hx
    | released =>
      refine .woke hl hn hm ht hr ?_ hz
      exact hx.imp (.imp_right fun _ => .inr rfl) (.imp_right fun _ => rfl)

theorem Channel.Quiet.moved (hq : ch.Quiet c z) (hm : ch'.messageReady = ch.messageReady)
    (hr : ch'.responseReady = ch.responseReady) : ch'.Quiet c z :=
  ⟨hm ▸ hq.message, hr ▸ hq.response, hq.rest, hq.dispatcher⟩

theorem Channel.Quiet.turned (hq : ch.Quiet c z) (hc' : c'.phase.atRest = true)
    (hd : c'.dispatcher = c.dispatcher) : ch.Quiet c' z :=
  ⟨hq.message, hq.response, hc', hd.trans hq.dispatcher⟩

theorem Underway.turned (hu : Underway d capacity z p r g x ch c) (hc : c.phase.atRest = true)
    (hc' : c'.phase.atRest = true) (hd : c'.dispatcher = c.dispatcher) :
    Underway d capacity z p r g x ch c' := by
  cases hu with
  | preparing hx hf hq => exact .preparing hx hf (hq.turned hc' hd)
  | refused hl hq => exact .refused hl (hq.turned hc' hd)
  | posted hx hl hm hq => exact .posted hx hl hm (hq.turned hc' hd)
  | signalled hl hm hr ht hz =>
    have hm' := ht.resolve_right (by simp [ConsumerPhase.hasToken_of_atRest hc])
    exact .signalled hl hm hr (.inl ⟨hm'.1, hc'⟩) (hd.trans hz)
  | served hl hn hm ht hr hz =>
    have hr' := hr.resolve_left fun ⟨_, hy⟩ => by simp [hy, ConsumerPhase.atRest] at hc
    exact .served hl hn hm ht (.inr ⟨hr'.1, .inr hc'⟩) (hd.trans hz)
  | woke hl hn hm ht hr hx hz =>
    exact .woke hl hn hm ht hr (hx.imp (.imp_right fun _ => .inr hc') (.imp_right fun _ => hc'))
      (hd.trans hz)
  | collected hl hn hw hq => exact .collected hl hn hw (hq.turned hc' hd)

/-- The producer's part in a round trip: a step further, or the return that completes it. -/
theorem Underway.produced (hu : Underway d capacity z p r g x ch c)
    (hopen : ch.mailbox.lock ≠ .poisoned)
    (hlock : ch.mailbox.lock = .free → c.phase ≠ .releasing)
    (hcap : ch.mailbox.capacity = capacity) (hbig : debugInfoHeaderSize ≤ capacity)
    (hs : ProducerPhase.Step p ch x es x' ch') :
    Underway d capacity z p r (g ++ es) x' ch' c ∨
      ∃ z', ch'.inFlight = .free ∧ ch'.Quiet c z' ∧
        ∀ {y h}, Serial d capacity y h z → Serial d capacity y (h ++ (g ++ es)) z' := by
  cases hu with
  | preparing hx hf hq =>
    rcases hx with rfl | ⟨q, rfl | rfl | rfl⟩
    · cases hs
      exact .inl (.preparing (.inr ⟨_, .inl rfl⟩) hf (hq.moved rfl rfl))
    · cases hs with
      | locked => exact .inl (.preparing (.inr ⟨q, .inr (.inl rfl)⟩) hf (hq.moved rfl rfl))
      | shutOut hl => exact absurd hl hopen
    · cases hs
      exact .inl (.preparing (.inr ⟨q, .inr (.inr rfl)⟩) hf
        ⟨hq.message, rfl, hq.rest, hq.dispatcher⟩)
    · cases hs with
      | posted hm =>
        obtain ⟨hl, -, rfl⟩ := Region.posted_of_post hm
        subst hcap
        exact .inl (.posted (.inl rfl) hl rfl (hq.moved rfl rfl))
      | rejected hm =>
        obtain ⟨rfl, -, hc⟩ := Region.refused_of_post hm
        have hl := hc.resolve_left fun hlt => by
          simp only [Mailbox.capacity] at hcap
          omega
        exact .inl (.refused hl (hq.moved rfl rfl))
  | refused hl hq =>
    cases hs
    exact .inr ⟨z, rfl, hq.moved rfl rfl, fun hs => .refused hs hl⟩
  | posted hx hl hm hq =>
    rcases hx with rfl | rfl
    · cases hs
      exact .inl (.posted (.inr rfl) hl hm (hq.moved rfl rfl))
    · cases hs
      exact .inl (.signalled hl hm hq.response (.inl ⟨rfl, hq.rest⟩) hq.dispatcher)
  | signalled hl hm hr ht hz =>
    cases hs with
    | woke h => simp [hr] at h
  | served hl hn hm ht hr hz =>
    cases hs with
    | woke h =>
      have hr := hr.resolve_left (by simp [h])
      exact .inl (.woke hl hn hm ht rfl (.inl ⟨rfl, hr.2⟩) hz)
  | woke hl hn hm ht hr hx hz =>
    rcases hx with ⟨rfl, hy⟩ | ⟨rfl, hy⟩
    · cases hs with
      | relocked h =>
        exact .inl (.woke hl hn hm ht hr (.inr ⟨rfl, hy.resolve_left (hlock h)⟩) hz)
      | reshutOut h => exact absurd h hopen
    · cases hs with
      | collected =>
        obtain ⟨w, hw⟩ := Dispatcher.readable_of_answer hl hbig hn
        have hc : ch.mailbox.region.collect r.function = .ok (ch.mailbox.region.status, w) := by
          simp [Region.collect, hm, hw]
        rw [hc, hm]
        exact .inl (.collected hl hn hw ⟨ht, hr, hy, hz⟩)
      | skipped ha =>
        rw [hm, (Dispatcher.header_of_answer hn).2.2] at ha
        exact absurd rfl ha
  | collected hl hn hw hq =>
    cases hs
    exact .inr ⟨_, rfl, hq.moved rfl rfl, fun hs => hs.append_round hl hn hw⟩

/-- Between round trips a producer can only begin one, or turn away before it has. -/
theorem ProducerPhase.Step.admission (hs : Step p ch x es x' ch') (hx : x.holdsInFlight = false)
    (hfree : ch.inFlight = .free) :
    (es = [] ∧ ch' = ch) ∨ ∃ r, x = .queueing r ∧ es = [.admitted p r] ∧ x' = .numbering r ∧
      ch' = { ch with inFlight := .held (.producer p) } := by
  cases hs with
  | oversized | sized => exact .inl ⟨rfl, rfl⟩
  | admitted => exact .inr ⟨_, rfl, rfl, rfl, rfl⟩
  | turnedAway h => simp [hfree] at h
  | _ => cases hx

theorem InSeries.step (hi : InSeries d capacity y h t) (hex : t.Exclusive) (hand : Handshake t)
    (hd : d.Calm) (hcap : t.channel.mailbox.capacity = capacity)
    (hbig : debugInfoHeaderSize ≤ capacity)
    (hfit : ∀ p r, (t.producers p).phase = .queueing r → r.encodedLength ≤ capacity)
    (hlim : ∀ p, (t.producers p).phase = .idle ∨ (t.producers p).limit = none) (ha : a.Solo)
    (hs : t.Step d a es u) :
    InSeries d capacity y (h ++ es) u := by
  cases hi with
  | between hser hfree hq =>
    cases hs with
    | called | shutdown =>
      rw [List.append_nil]
      exact .between hser hfree hq
    | @produced p x _ x' ch hx hs =>
      have hout : x.holdsInFlight = false := by
        have hp := hex.inFlight p
        rw [hx, hfree] at hp
        simpa using hp
      rcases hs.admission hout hfree with ⟨rfl, rfl⟩ | ⟨r, rfl, rfl, rfl, rfl⟩
      · rw [List.append_nil]
        exact .between hser hfree hq
      · refine .within (p := p) (r := r) hser ?_
        rw [Machine.withProducer_self]
        exact .preparing (.inl rfl) (hfit p r hx) (hq.moved rfl rfl)
    | @expired e r' q' limit hx hl =>
      have := hlim e
      simp [hx, hl] at this
    | @consumed c _ y' ch hs =>
      obtain rfl : c = 0 := ha
      obtain ⟨rfl, rfl, hq⟩ := hq.consumed hs
      rw [List.append_nil]
      exact .between hser hfree (by rwa [Machine.withConsumer_self])
    | @turned a c y' hc hx hy hd' =>
      obtain rfl := ha.turned hc
      rw [List.append_nil]
      exact .between hser hfree (by rw [Machine.withConsumer_self]; exact hq.turned hy hd')
    | strayMessage | strayResponse => exact ha.elim
  | @within h g _ z p r hser hu =>
    rw [List.append_assoc]
    cases hs with
    | @called e r' limit he =>
      have hne : p ≠ e := by
        rintro rfl
        simp [hu.holdsInFlight] at he
      refine .within hser (p := p) (r := r) ?_
      rw [Machine.withProducer_ne _ _ hne, List.append_nil]
      exact hu
    | @produced e x _ x' ch hx hs =>
      by_cases he : p = e
      · subst he
        have hlock : t.channel.mailbox.lock = .free → (t.consumers 0).phase ≠ .releasing := by
          intro hl hy
          have hc := hex.consumer 0
          simp [hl, hy, ConsumerPhase.holdsMailbox] at hc
        rw [hx] at hu
        rcases hu.produced hand.unpoisoned hlock hcap hbig hs with hu | ⟨z', hfree, hq, hser'⟩
        · exact .within hser (p := p) (r := r) (by rwa [Machine.withProducer_self])
        · exact .between (hser' hser) hfree hq
      · obtain ⟨rfl, rfl⟩ := hex.still_of_inFlight hu.holdsInFlight he (hx ▸ hs)
        refine .within hser (p := p) (r := r) ?_
        rw [Machine.withProducer_ne _ _ he, List.append_nil]
        exact hu
    | @expired e r' q' limit hx hl =>
      have := hlim e
      simp [hx, hl] at this
    | @consumed c _ y' ch hs =>
      obtain rfl : c = 0 := ha
      refine .within hser (p := p) (r := r) ?_
      rw [Machine.withConsumer_self]
      exact hu.consumed (hs.ne_panicked hd) hand.unpoisoned hs
    | @turned a c y' hc hx hy hd' =>
      obtain rfl := ha.turned hc
      refine .within hser (p := p) (r := r) ?_
      rw [Machine.withConsumer_self, List.append_nil]
      exact hu.turned hx hy hd'
    | shutdown =>
      rw [List.append_nil]
      exact .within hser hu
    | strayMessage | strayResponse => exact ha.elim

theorem InSeries.completes (hi : InSeries d capacity y h t) (hd : d.Calm)
    (hbig : debugInfoHeaderSize ≤ capacity) :
    ∃ full z, Serial d capacity y full z ∧ h <+: full := by
  cases hi with
  | between hser => exact ⟨_, _, hser, List.prefix_rfl⟩
  | @within h g _ z p r hser hu =>
    have hround {q n z'} (hl : r.data.length < lengthLimit)
        (hn : d.answer (.posted r q capacity) z = (some n, z')) : ∃ w,
        Serial d capacity y (h ++ Event.round p r q (.posted r q capacity) n w) z' := by
      obtain ⟨w, hw⟩ := Dispatcher.readable_of_answer hl hbig hn
      exact ⟨w, hser.append_round hl hn hw⟩
    have hextend {k} (hk : g <+: k) : h ++ g <+: h ++ k := (List.prefix_append_right_inj h).mpr hk
    generalize (t.producers p).phase = x at hu
    cases hu with
    | preparing =>
      by_cases hl : r.data.length < lengthLimit
      · obtain ⟨n, z', hn⟩ := hd.answers (.posted r 1 capacity) z
        obtain ⟨w, hfull⟩ := hround hl hn
        exact ⟨_, _, hfull, hextend ⟨_, rfl⟩⟩
      · exact ⟨_, _, .refused hser (Nat.not_lt.mp hl), hextend ⟨_, rfl⟩⟩
    | refused hl => exact ⟨_, _, .refused hser hl, hextend ⟨_, rfl⟩⟩
    | posted _ hl | signalled hl =>
      obtain ⟨n, z', hn⟩ := hd.answers (.posted r _ capacity) z
      obtain ⟨w, hfull⟩ := hround hl hn
      exact ⟨_, _, hfull, hextend ⟨_, rfl⟩⟩
    | served hl hn | woke hl hn =>
      obtain ⟨w, hfull⟩ := hround hl hn
      exact ⟨_, _, hfull, hextend ⟨_, rfl⟩⟩
    | collected hl hn hw =>
      exact ⟨_, _, hser.append_round hl hn hw, hextend ⟨_, rfl⟩⟩

/-- A producer that queues for a round trip has a request that fits. -/
theorem Machine.Step.fits (hs : t.Step d a es u)
    (hi : ∀ p r, (t.producers p).phase = .queueing r → r.encodedLength ≤ t.channel.mailbox.capacity)
    (p : Nat) (r : Request) (hp : (u.producers p).phase = .queueing r) :
    r.encodedLength ≤ u.channel.mailbox.capacity := by
  rw [hs.capacity]
  cases hs with
  | @called e | @expired e =>
    by_cases he : p = e
    · subst he
      simp at hp
    · rw [Machine.withProducer_ne _ _ he] at hp
      exact hi p r hp
  | @produced e x _ x' ch hx hs =>
    by_cases he : p = e
    · subst he
      rw [Machine.withProducer_self] at hp
      subst hp
      cases hs
      assumption
    · rw [Machine.withProducer_ne _ _ he] at hp
      exact hi p r hp
  | _ => exact hi p r hp

/-- Where every call waits without a bound, nobody who has called has one. -/
theorem Machine.Step.unbounded (hs : t.Step d a es u) (ha : a.Patient)
    (hi : ∀ p, (t.producers p).phase = .idle ∨ (t.producers p).limit = none) (p : Nat) :
    (u.producers p).phase = .idle ∨ (u.producers p).limit = none := by
  cases hs with
  | @called e r limit =>
    by_cases he : p = e
    · subst he
      rw [Machine.withProducer_self]
      exact .inr ha
    · rw [Machine.withProducer_ne _ _ he]
      exact hi p
  | @produced e x _ x' ch hx hs =>
    by_cases he : p = e
    · subst he
      rw [Machine.withProducer_self]
      refine .inr ((hi p).resolve_left fun hidle => ?_)
      obtain rfl := hx.symm.trans hidle
      cases hs
    · rw [Machine.withProducer_ne _ _ he]
      exact hi p
  | @expired e r q limit hx hl =>
    have := hi e
    simp [hx, hl] at this
  | _ => exact hi p

theorem InSeries.serial_of_free (hi : InSeries d capacity y h t) (hex : t.Exclusive)
    (hfree : t.channel.inFlight = .free) : Serial d capacity y h (t.consumers 0).dispatcher := by
  cases hi with
  | between hser _ hq => exact hq.dispatcher.symm ▸ hser
  | @within _ _ _ _ p _ _ hu =>
    have hheld := (hex.inFlight p).mp hu.holdsInFlight
    rw [hfree] at hheld
    cases hheld

/-- Without bounded waits, every history is the beginning of a serial one: the posted requests are
handed to the dispatcher in the order in which their producers were admitted, each once and before
its producer returns, and what is returned is read from that answer. While nobody is admitted the
history is a serial one itself, and has left the dispatcher in its state. -/
theorem Run.serial (hs : s.Fresh) (hd : d.Calm)
    (hr : Run d (fun a => a.Solo ∧ a.Patient) s h t) :
    (∃ full z, Serial d s.channel.mailbox.capacity (s.consumers 0).dispatcher full z ∧
      h <+: full) ∧
    (t.channel.inFlight = .free → Serial d s.channel.mailbox.capacity (s.consumers 0).dispatcher h
      (t.consumers 0).dispatcher) := by
  suffices hi : InSeries d s.channel.mailbox.capacity (s.consumers 0).dispatcher h t ∧
      (∀ p r, (t.producers p).phase = .queueing r → r.encodedLength ≤ t.channel.mailbox.capacity) ∧
      ∀ p, (t.producers p).phase = .idle ∨ (t.producers p).limit = none from
    ⟨hi.1.completes hd hs.spacious, hi.1.serial_of_free (hr.exclusive hs)⟩
  induction hr with
  | start =>
    obtain ⟨capacity, -, hch⟩ := hs.channel_eq
    refine ⟨.between .nil ?_ ⟨?_, ?_, ?_, rfl⟩, fun p r hp => ?_, fun p => .inl (hs.idle p)⟩
    · rw [hch]
    · rw [hch]; rfl
    · rw [hch]; rfl
    · rw [hs.checking 0]; rfl
    · simp [hs.idle p] at hp
  | @next h t a u hr ha hstep ih =>
    obtain ⟨hi, hfit, hlim⟩ := ih
    have hstep := Machine.step_inv hstep
    have hsolo := hr.mono fun _ ha => ha.1
    exact ⟨hi.step (hr.exclusive hs) (hsolo.handshake hs hd) hd hr.capacity hs.spacious
      (hr.capacity ▸ hfit) hlim ha.1 hstep, hstep.fits hfit, hstep.unbounded ha.2 hlim⟩

/-- A lone round trip, with a dispatcher that notes the one call it gets. -/
theorem Run.serial_sample :
    (∃ full z, Serial (Dispatcher.adding 0).recording 32 ((), []) full z ∧
      Event.sample <+: full) ∧
    Serial (Dispatcher.adding 0).recording 32 ((), []) Event.sample ((), [.enumerateHandlers]) := by
  let d := (Dispatcher.adding 0).recording
  let s := Machine.initial Channel.smallest ((), ([] : List Request))
  obtain ⟨⟨h, t⟩, hplay, rfl, hfree, hz⟩ : ∃ x : List Event × Machine (Unit × List Request),
      s.play d (Action.roundTrip 0 .enumerateHandlers none) = some x ∧ x.1 = Event.sample ∧
      x.2.channel.inFlight = .free ∧ (x.2.consumers 0).dispatcher = ((), [.enumerateHandlers]) :=
    ⟨_, rfl, rfl, rfl, rfl⟩
  have hr : Run d (fun a => a.Solo ∧ a.Patient) s Event.sample t :=
    .of_play (by simp [Action.roundTrip, Action.Solo, Action.Patient]) hplay
  obtain ⟨hfull, hrest⟩ := Run.serial (Machine.fresh_smallest _)
    (Dispatcher.calm_adding 0).recording hr
  exact ⟨hfull, hz ▸ hrest hfree⟩

end FirmwareHost
