import FirmwareHost.Proofs.Outcomes
import FirmwareHost.Proofs.SerialRounds
import FirmwareHost.Service

/-! Calls of the service one after another, each answered before the next one comes. Whatever the
order of steps during a call, its reply is the one that the dispatcher decides. -/

namespace FirmwareHost

variable {σ : Type}

/-- During a call the caller and the one consumer take their steps, and no wait runs out. -/
def Action.Attends (p : Nat) : Action → Prop
  | .produce e => e = p
  | .consume c | .idle c | .restart c | .serve c => c = 0
  | .setShutdown _ => True
  | .call .. | .expire _ | .strayMessage | .strayResponse => False

theorem Action.Attends.turned {a : Action} {p c : Nat} (ha : a.Attends p)
    (hc : a = .idle c ∨ a = .restart c ∨ a = .serve c) : c = 0 := by
  rcases hc with rfl | rfl | rfl <;> exact ha

/-- A call that is made while nobody else uses the channel, with its reply. -/
inductive Exchange (d : Dispatcher σ) (s : Machine σ) (c : Call) : Reply → Machine σ → Prop
  | refused {e} (hc : c.request = .error e) : Exchange d s c (c.fail e) s
  | returned {r p limit v h t result} (hc : c.request = .ok r)
      (hs : s.step d (.call p r limit) = some v) (hr : Run d (Action.Attends p) v h t)
      (ht : (t.producers p).phase = .done result) : Exchange d s c (c.reply result) t

inductive Conversation (d : Dispatcher σ) : Machine σ → List Call → List Reply → Machine σ → Prop
  | nil {s} : Conversation d s [] [] s
  | cons {s c x t cs xs u} (he : Exchange d s c x t) (hc : Conversation d t cs xs u) :
      Conversation d s (c :: cs) (x :: xs) u

/-- The reply that the dispatcher decides, and the dispatcher after it. -/
def Call.settle (d : Dispatcher σ) (capacity : Nat) (c : Call) (y : σ) : Option (Reply × σ) :=
  match c.request with
  | .error e => some (c.fail e, y)
  | .ok r =>
    match d.outcome capacity r y with
    | (none, _) => none
    | (some result, z) => some (c.reply result, z)

def Call.settleAll (d : Dispatcher σ) (capacity : Nat) : List Call → σ → Option (List Reply × σ)
  | [], y => some ([], y)
  | c :: cs, y =>
    match c.settle d capacity y with
    | none => none
    | some (x, z) => (settleAll d capacity cs z).map fun (xs, w) => (x :: xs, w)

/-- Between calls every producer is at rest, no lock is held and no token is set. -/
structure Machine.Resting (capacity : Nat) (s : Machine σ) (y : σ) : Prop where
  exclusive : s.Exclusive
  sized : s.channel.mailbox.capacity = capacity
  rest : ∀ p, (s.producers p).phase = .idle ∨ ∃ x, (s.producers p).phase = .done x
  free : s.channel.inFlight = .free
  unlocked : s.channel.mailbox.lock = .free
  quiet : s.channel.Quiet (s.consumers 0) y

/-- How far a call of producer `p` has come. -/
inductive InCall (d : Dispatcher σ) (capacity : Nat) (y : σ) (p : Nat) (r : Request)
    (v : Machine σ) : Prop
  | sizing (hx : (v.producers p).phase = .sizing r) (hfree : v.channel.inFlight = .free)
      (hq : v.channel.Quiet (v.consumers 0) y)
  | queueing (hx : (v.producers p).phase = .queueing r) (hfit : r.encodedLength ≤ capacity)
      (hfree : v.channel.inFlight = .free) (hq : v.channel.Quiet (v.consumers 0) y)
  | underway {g} (hfit : r.encodedLength ≤ capacity)
      (hu : Underway d capacity y p r g (v.producers p).phase v.channel (v.consumers 0))
  | done {result z} (hx : (v.producers p).phase = .done result)
      (hz : d.outcome capacity r y = (some result, z)) (hfree : v.channel.inFlight = .free)
      (hq : v.channel.Quiet (v.consumers 0) z)

/-- The dispatcher has panicked, and the caller waits for an answer that does not come. -/
structure Machine.Stuck (p : Nat) (v : Machine σ) : Prop where
  caller : ∃ r q, (v.producers p).phase = .waiting r q
  consumer : (v.consumers 0).phase = .panicked
  response : v.channel.responseReady.isSet = false

variable {d : Dispatcher σ} {s t u v : Machine σ} {a : Action} {h g es : List Event} {capacity : Nat}
  {y z : σ} {p : Nat} {r : Request} {x x' : ProducerPhase} {ch ch' : Channel} {c c' : Consumer σ}

/-- During a call of `p` nobody but it and the consumer has the mailbox in hand. -/
def Lock.Attended (p : Nat) (l : Lock) : Prop :=
  l = .free ∨ l = .held (.producer p) ∨ l = .held (.consumer 0)

theorem Lock.Attended.ne_poisoned {l : Lock} (hl : l.Attended p) : l ≠ .poisoned := by
  rcases hl with rfl | rfl | rfl <;> nofun

theorem ProducerPhase.Step.attended (hs : Step p ch x es x' ch')
    (hl : ch.mailbox.lock.Attended p) : ch'.mailbox.lock.Attended p := by
  cases hs with
  | locked | relocked => exact .inr (.inl rfl)
  | rejected | released | collected | skipped => exact .inl rfl
  | _ => exact hl

theorem Consumer.Step.attended (hs : Consumer.Step d 0 ch c es c' ch')
    (hp : c'.phase ≠ .panicked) (hl : ch.mailbox.lock.Attended p) :
    ch'.mailbox.lock.Attended p := by
  cases hs with
  | locked => exact .inr (.inr rfl)
  | released => exact .inl rfl
  | panicked => exact absurd rfl hp
  | _ => exact hl

/-- The in-flight lock is given up with the return and not before. -/
theorem ProducerPhase.Step.keeps_inFlight (hs : Step p ch x es x' ch')
    (hx : x.holdsInFlight = true) :
    ch'.inFlight = ch.inFlight ∨ ∃ result, x = .leaving result ∧ x' = .done result ∧
      ch' = { ch with inFlight := .free } := by
  cases hs with
  | oversized | sized | admitted | turnedAway => cases hx
  | returned => exact .inr ⟨_, rfl, rfl, rfl⟩
  | _ => exact .inl rfl

theorem Underway.leaving {result : Outcome Exchanged} (hfit : r.encodedLength ≤ capacity)
    (hbig : debugInfoHeaderSize ≤ capacity)
    (hu : Underway d capacity y p r g (.leaving result) ch c) :
    ∃ z, ch.Quiet c z ∧ d.outcome capacity r y = (some result, z) := by
  cases hu with
  | refused hl hq =>
    exact ⟨y, hq, Dispatcher.outcome_of_not_fits (Request.not_fits.mpr (.inr hl))⟩
  | @collected q n z w _ _ hl hn hw hq =>
    obtain ⟨hz, hx⟩ := d.answer_posted (q := q) (y := y) ⟨hfit, hl⟩ hbig
    rw [hn] at hz hx
    rw [Option.map_some, Region.collect_of_decode hw] at hx
    exact ⟨z, hq, Prod.ext hx.symm hz.symm⟩
  | preparing hx => rcases hx with hx | ⟨q, hx | hx | hx⟩ <;> cases hx
  | posted hx => rcases hx with hx | hx <;> cases hx
  | woke _ _ _ _ _ hx => rcases hx with ⟨hx, -⟩ | ⟨hx, -⟩ <;> cases hx

/-- A dispatcher can only panic while its answer is awaited. -/
theorem Underway.panicked (hu : Underway d capacity y p r g x ch c)
    (hs : Consumer.Step d 0 ch c es c' ch') (hp : c'.phase = .panicked) :
    (∃ q, x = .waiting r q) ∧ ch'.responseReady.isSet = false := by
  cases hs with
  | panicked hc hn =>
    cases hu with
    | preparing _ _ hq | refused _ hq | posted _ _ _ hq | collected _ _ _ hq =>
      have := hq.rest
      simp [hc, ConsumerPhase.atRest] at this
    | signalled hl hm hr => exact ⟨⟨_, rfl⟩, hr⟩
    | served _ _ _ _ hr =>
      rcases hr with ⟨-, hy⟩ | ⟨-, hy | hy⟩ <;> simp [hc, ConsumerPhase.atRest] at hy
    | woke _ _ _ _ _ hx =>
      rcases hx with ⟨-, hx | hx⟩ | ⟨-, hx⟩ <;> simp [hc, ConsumerPhase.atRest] at hx
  | @polled y' _ hy =>
    obtain rfl : y' = .panicked := hp
    cases hy
  | _ => cases hp

theorem InCall.produced (hi : InCall d capacity y p r v) (hex : v.Exclusive)
    (hcap : v.channel.mailbox.capacity = capacity) (hbig : debugInfoHeaderSize ≤ capacity)
    (hl : v.channel.mailbox.lock.Attended p) (hx : (v.producers p).phase = x)
    (hs : ProducerPhase.Step p v.channel x es x' ch) :
    InCall d capacity y p r
      { v.withProducer p ⟨(v.producers p).limit, x'⟩ with channel := ch } := by
  cases hi with
  | sizing hx' hfree hq =>
    obtain rfl := hx.symm.trans hx'
    cases hs with
    | oversized h =>
      have hf : ¬ r.Fits capacity := Request.not_fits.mpr (.inl (hcap ▸ h))
      exact .done (by simp) (Dispatcher.outcome_of_not_fits hf) hfree hq
    | sized h => exact .queueing (by simp) (hcap ▸ h) hfree hq
  | queueing hx' hfit hfree hq =>
    obtain rfl := hx.symm.trans hx'
    cases hs with
    | admitted =>
      refine .underway (g := [.admitted p r]) hfit ?_
      rw [Machine.withProducer_self]
      exact .preparing (.inl rfl) hfit (hq.moved rfl rfl)
    | turnedAway h => simp [hfree] at h
  | underway hfit hu =>
    rw [hx] at hu
    have hheld : v.channel.inFlight = .held (.producer p) :=
      (hex.inFlight p).mp (by rw [hx]; exact hu.holdsInFlight)
    rcases hs.keeps_inFlight hu.holdsInFlight with hkeep | ⟨result, rfl, rfl, rfl⟩
    · have hlock : v.channel.mailbox.lock = .free → (v.consumers 0).phase ≠ .releasing := by
        intro hl hy
        have hc := hex.consumer 0
        simp [hl, hy, ConsumerPhase.holdsMailbox] at hc
      -- a step that ends the round trip would have freed the in-flight lock
      rcases hu.produced hl.ne_poisoned hlock hcap hbig hs with hu | ⟨z, hfree, -, -⟩
      · exact .underway hfit (by rwa [Machine.withProducer_self])
      · simp [hkeep, hheld] at hfree
    · obtain ⟨z, hq, hz⟩ := hu.leaving hfit hbig
      exact .done (by simp) hz rfl (hq.moved rfl rfl)
  | done hx' =>
    obtain rfl := hx.symm.trans hx'
    cases hs

theorem InCall.consumed (hi : InCall d capacity y p r v) (hp : c'.phase ≠ .panicked)
    (hl : v.channel.mailbox.lock.Attended p)
    (hs : Consumer.Step d 0 v.channel (v.consumers 0) es c' ch) :
    InCall d capacity y p r { v.withConsumer 0 c' with channel := ch } := by
  cases hi with
  | sizing hx hfree hq =>
    obtain ⟨-, rfl, hq⟩ := hq.consumed hs
    exact .sizing hx hfree (by rwa [Machine.withConsumer_self])
  | queueing hx hfit hfree hq =>
    obtain ⟨-, rfl, hq⟩ := hq.consumed hs
    exact .queueing hx hfit hfree (by rwa [Machine.withConsumer_self])
  | @underway g hfit hu =>
    refine .underway (g := g ++ es) hfit ?_
    rw [Machine.withConsumer_self]
    exact hu.consumed hp hl.ne_poisoned hs
  | done hx hz hfree hq =>
    obtain ⟨-, rfl, hq⟩ := hq.consumed hs
    exact .done hx hz hfree (by rwa [Machine.withConsumer_self])

theorem InCall.turned (hi : InCall d capacity y p r v) (hc : (v.consumers 0).phase.atRest = true)
    (hc' : c'.phase.atRest = true) (hd : c'.dispatcher = (v.consumers 0).dispatcher) :
    InCall d capacity y p r (v.withConsumer 0 c') := by
  cases hi with
  | sizing hx hfree hq =>
    exact .sizing hx hfree (by rw [Machine.withConsumer_self]; exact hq.turned hc' hd)
  | queueing hx hfit hfree hq =>
    exact .queueing hx hfit hfree (by rw [Machine.withConsumer_self]; exact hq.turned hc' hd)
  | underway hfit hu =>
    exact .underway hfit (by rw [Machine.withConsumer_self]; exact hu.turned hc hc' hd)
  | done hx hz hfree hq =>
    exact .done hx hz hfree (by rw [Machine.withConsumer_self]; exact hq.turned hc' hd)

theorem InCall.panicked (hi : InCall d capacity y p r v) (hp : c'.phase = .panicked)
    (hs : Consumer.Step d 0 v.channel (v.consumers 0) es c' ch) :
    Machine.Stuck p { v.withConsumer 0 c' with channel := ch } := by
  have hquiet {z : σ} (hq : v.channel.Quiet (v.consumers 0) z) : c'.phase ≠ .panicked := by
    intro hp
    have hrest := (hq.consumed hs).2.2.rest
    rw [hp] at hrest
    cases hrest
  cases hi with
  | sizing _ _ hq | queueing _ _ _ hq | done _ _ _ hq => exact absurd hp (hquiet hq)
  | underway hfit hu =>
    obtain ⟨⟨q, hx⟩, hr⟩ := hu.panicked hs hp
    exact ⟨⟨r, q, hx⟩, by simp [hp], hr⟩

theorem Machine.Stuck.step (hi : v.Stuck p) (ha : a.Attends p) (hs : v.Step d a es u) :
    u.Stuck p := by
  obtain ⟨r, q, hx⟩ := hi.caller
  cases hs with
  | called | expired | strayMessage | strayResponse => exact ha.elim
  | produced hx' hs =>
    obtain rfl : _ = p := ha
    obtain rfl := hx'.symm.trans hx
    cases hs with
    | woke h => simp [hi.response] at h
  | consumed hs =>
    obtain rfl : _ = 0 := ha
    have hc := hi.consumer
    cases hs with
    | polled hy | took hy | locked hy | shutOut hy | served hy | panicked hy | signalled hy
    | released hy => simp [hc] at hy
  | turned hc hy =>
    obtain rfl := ha.turned hc
    rw [hi.consumer] at hy
    cases hy
  | shutdown => exact ⟨⟨r, q, hx⟩, hi.consumer, hi.response⟩

structure Machine.Attended (d : Dispatcher σ) (capacity : Nat) (y : σ) (p : Nat) (r : Request)
    (v : Machine σ) : Prop where
  exclusive : v.Exclusive
  sized : v.channel.mailbox.capacity = capacity
  others : ∀ e, e ≠ p → (v.producers e).phase = .idle ∨ ∃ x, (v.producers e).phase = .done x
  progress : v.Stuck p ∨ v.channel.mailbox.lock.Attended p ∧ InCall d capacity y p r v

theorem Machine.Step.others (hs : v.Step d a es u) (ha : a.Attends p) {e : Nat} (he : e ≠ p) :
    u.producers e = v.producers e := by
  cases hs with
  | called | expired | strayMessage | strayResponse => exact ha.elim
  | produced =>
    obtain rfl : _ = p := ha
    exact withProducer_ne v _ he
  | _ => rfl

theorem InCall.step (hi : InCall d capacity y p r v) (hex : v.Exclusive)
    (hcap : v.channel.mailbox.capacity = capacity) (hbig : debugInfoHeaderSize ≤ capacity)
    (hl : v.channel.mailbox.lock.Attended p) (ha : a.Attends p) (hs : v.Step d a es u) :
    u.Stuck p ∨ u.channel.mailbox.lock.Attended p ∧ InCall d capacity y p r u := by
  cases hs with
  | called | expired | strayMessage | strayResponse => exact ha.elim
  | produced hx hs =>
    obtain rfl : _ = p := ha
    exact .inr ⟨hs.attended hl, hi.produced hex hcap hbig hl hx hs⟩
  | @consumed _ _ c' _ hs =>
    obtain rfl : _ = 0 := ha
    by_cases hp : c'.phase = .panicked
    · exact .inl (hi.panicked hp hs)
    · exact .inr ⟨hs.attended hp hl, hi.consumed hp hl hs⟩
  | turned hc hy hy' hd =>
    obtain rfl := ha.turned hc
    exact .inr ⟨hl, hi.turned hy hy' hd⟩
  | shutdown =>
    refine .inr ⟨hl, ?_⟩
    cases hi with
    | sizing hx hfree hq => exact .sizing hx hfree hq
    | queueing hx hfit hfree hq => exact .queueing hx hfit hfree hq
    | underway hfit hu => exact .underway hfit hu
    | done hx hz hfree hq => exact .done hx hz hfree hq

theorem Machine.Attended.step (hi : v.Attended d capacity y p r)
    (hbig : debugInfoHeaderSize ≤ capacity) (ha : a.Attends p) (hs : v.Step d a es u) :
    u.Attended d capacity y p r where
  exclusive := hi.exclusive.step hs
  sized := hs.capacity.trans hi.sized
  others e he := by
    rw [hs.others ha he]
    exact hi.others e he
  progress := by
    rcases hi.progress with hstuck | ⟨hl, hc⟩
    · exact .inl (hstuck.step ha hs)
    · exact hc.step hi.exclusive hi.sized hbig hl ha hs

/-- Once the caller is done, the machine rests as before the call. -/
theorem Machine.Attended.resting (hi : v.Attended d capacity y p r) {result : Outcome Exchanged}
    (hx : (v.producers p).phase = .done result) :
    ∃ z, d.outcome capacity r y = (some result, z) ∧ v.Resting capacity z := by
  rcases hi.progress with hstuck | ⟨hl, hc⟩
  · obtain ⟨r', q, hw⟩ := hstuck.caller
    simp [hx] at hw
  · cases hc with
    | sizing hx' | queueing hx' => simp [hx] at hx'
    | underway hfit hu =>
      have := hu.holdsInFlight
      simp [hx, ProducerPhase.holdsInFlight] at this
    | @done result' z hx' hz hfree hq =>
      obtain rfl : result = result' := by
        rw [hx] at hx'
        cases hx'
        rfl
      refine ⟨z, hz, hi.exclusive, hi.sized, fun e => ?_, hfree, ?_, hq⟩
      · by_cases he : e = p
        · exact .inr ⟨result, he ▸ hx⟩
        · exact hi.others e he
      · rcases hl with hl | hl | hl
        · exact hl
        · have := (hi.exclusive.producer p).mpr hl
          simp [hx, ProducerPhase.holdsMailbox] at this
        · have := (hi.exclusive.consumer 0).mpr hl
          simp [ConsumerPhase.holdsMailbox_of_atRest hq.rest] at this

theorem Machine.Resting.attended (hs : s.Resting capacity y) {limit : Option Nat}
    (hcall : s.step d (.call p r limit) = some v) : v.Attended d capacity y p r := by
  have hstep := step_inv hcall
  have hex := hs.exclusive.step hstep
  cases hstep with
  | called =>
    have hi : InCall d capacity y p r (s.withProducer p ⟨limit, .sizing r⟩) :=
      .sizing (by simp) hs.free hs.quiet
    refine ⟨hex, hs.sized, fun e he => ?_, .inr ⟨.inl hs.unlocked, hi⟩⟩
    rw [withProducer_ne _ _ he]
    exact hs.rest e
  | turned hc => rcases hc with hc | hc | hc <;> cases hc

theorem Exchange.settles {c : Call} {x : Reply} (hs : s.Resting capacity y)
    (hbig : debugInfoHeaderSize ≤ capacity) (he : Exchange d s c x t) :
    ∃ z, c.settle d capacity y = some (x, z) ∧ t.Resting capacity z := by
  cases he with
  | refused hc => exact ⟨y, by simp [Call.settle, hc], hs⟩
  | @returned r p limit v h _ result hc hcall hr ht =>
    have hi : t.Attended d capacity y p r :=
      hr.preserves (I := fun _ t => t.Attended d capacity y p r) (hs.attended hcall)
        fun hi ha hstep => hi.step hbig ha hstep
    obtain ⟨z, hz, hrest⟩ := hi.resting ht
    exact ⟨z, by simp only [Call.settle, hc, hz], hrest⟩

theorem Conversation.settles {cs : List Call} {xs : List Reply} (hc : Conversation d s cs xs t)
    (hbig : debugInfoHeaderSize ≤ capacity) (hs : s.Resting capacity y) :
    ∃ z, Call.settleAll d capacity cs y = some (xs, z) ∧ t.Resting capacity z := by
  induction hc generalizing y with
  | nil => exact ⟨y, rfl, hs⟩
  | cons he hc ih =>
    obtain ⟨z, hz, ht⟩ := Exchange.settles hs hbig he
    obtain ⟨w, hw, hu⟩ := ih ht
    exact ⟨w, by simp [Call.settleAll, hz, hw], hu⟩

theorem Machine.Fresh.resting (hs : s.Fresh) :
    s.Resting s.channel.mailbox.capacity (s.consumers 0).dispatcher := by
  obtain ⟨capacity, -, hch⟩ := hs.channel_eq
  refine ⟨hs.exclusive, rfl, fun p => .inl (hs.idle p), ?_, ?_, ?_, ?_, ?_, rfl⟩
  · rw [hch]
  · rw [hch]
  · rw [hch]
    rfl
  · rw [hch]
    rfl
  · rw [hs.checking 0]
    rfl

end FirmwareHost
