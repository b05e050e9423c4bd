import FirmwareHost.Proofs.Outcomes
import FirmwareHost.Proofs.StaleTokens

/-! Request numbers. The number of a request is the number of requests admitted so far, except that
the counter wraps and 0 becomes 1. So numbers are never 0, and two requests that are less than a
turn of the counter apart have different numbers, but for the two at the wrap, which both have 1. -/

namespace FirmwareHost

variable {σ : Type} {d : Dispatcher σ} {s t u : Machine σ} {a : Action} {h es : List Event}
  {p n : Nat} {r : Request} {q : UInt64}

def Event.isAdmitted : Event → Bool
  | .admitted .. => true
  | _ => false

def admissions (h : List Event) : Nat := h.countP Event.isAdmitted

@[simp] theorem admissions_append (h g : List Event) :
    admissions (h ++ g) = admissions h + admissions g :=
  List.countP_append

theorem admissions_cons (e : Event) (h : List Event) :
    admissions (e :: h) = admissions h + if e.isAdmitted then 1 else 0 :=
  List.countP_cons

/-- The number of the request that is admitted as the `n`th. -/
def requestNumber (n : Nat) : UInt64 := max (.ofNat n) 1

theorem requestNumber_ne_zero (n : Nat) : requestNumber n ≠ 0 := max_one_ne_zero _

theorem toNat_requestNumber (n : Nat) : (requestNumber n).toNat = max (n % 2 ^ 64) 1 := by
  have hle : UInt64.ofNat n ≤ 1 ↔ n % 2 ^ 64 ≤ 1 := .rfl
  change (if UInt64.ofNat n ≤ 1 then 1 else UInt64.ofNat n).toNat = _
  simp only [hle]
  split <;> simp <;> omega

theorem requestNumber_eq_iff {k : Nat} (hk : 0 < k) (hclose : k < 2 ^ 64 - 1) :
    requestNumber n = requestNumber (n + k) ↔ k = 1 ∧ 2 ^ 64 ∣ n := by
  rw [← UInt64.toNat_inj, toNat_requestNumber, toNat_requestNumber]
  omega

theorem Channel.nextSequence_eq (ch : Channel) : ch.nextSequence =
    (requestNumber (ch.sequence.toNat + 1), { ch with sequence := ch.sequence + 1 }) := by
  have hn : UInt64.ofNat (ch.sequence.toNat + 1) = ch.sequence + 1 := by
    rw [UInt64.ofNat_add, UInt64.ofNat_toNat]
    rfl
  rw [requestNumber, hn]
  rfl

theorem Channel.nextSequence_repeats_iff (ch : Channel) :
    ch.nextSequence.2.nextSequence.1 = ch.nextSequence.1 ↔ ch.sequence.toNat + 1 = 2 ^ 64 := by
  have hlt := ch.sequence.toNat_lt
  have hn : (ch.sequence + 1).toNat = (ch.sequence.toNat + 1) % 2 ^ 64 := by simp
  simp only [nextSequence_eq, ← UInt64.toNat_inj, toNat_requestNumber, hn]
  omega

namespace ProducerPhase

def preparing : ProducerPhase → Bool
  | .numbering _ | .acquiring .. | .discarding .. | .writing .. => true
  | _ => false

/-- Where the counter stands when `k` requests have been admitted, the last of them this one. -/
def Draws (k : Nat) (counter : UInt64) : ProducerPhase → Prop
  | .idle | .sizing _ | .queueing _ | .done _ => True
  | .numbering _ => counter + 1 = .ofNat k
  | .acquiring _ q | .discarding _ q | .writing _ q => counter = .ofNat k ∧ q = requestNumber k
  | _ => counter = .ofNat k

theorem draws_of_not_holdsInFlight {k : Nat} {counter : UInt64} {x : ProducerPhase}
    (h : x.holdsInFlight = false) : x.Draws k counter := by
  cases x with
  | idle | sizing | queueing | done => trivial
  | _ => cases h

theorem holdsInFlight_of_preparing {x : ProducerPhase} (h : x.preparing = true) :
    x.holdsInFlight = true := by
  cases x with
  | numbering | acquiring | discarding | writing => rfl
  | _ => cases h

variable {ch ch' : Channel} {x y : ProducerPhase} {k : Nat}

theorem Step.draws (hs : Step p ch x es y ch') (hx : x.Draws k ch.sequence)
    (hfree : ch.inFlight = .free → ch.sequence = .ofNat k) :
    y.Draws (k + admissions es) ch'.sequence := by
  cases hs with
  | oversized | sized | turnedAway | returned => trivial
  | admitted hf =>
    have hk := hfree hf
    simp [Draws, admissions, Event.isAdmitted, hk, UInt64.ofNat_add]
  | numbered => exact ⟨hx, congrArg (max · 1) hx⟩
  | shutOut | rejected | posted => exact hx.1
  | _ => exact hx

theorem Step.keeps_count (hs : Step p ch x es y ch') (hx : x.Draws k ch.sequence)
    (hheld : x.holdsInFlight = true → ch.inFlight ≠ .free)
    (hfree : ch.inFlight = .free → ch.sequence = .ofNat k) :
    ch'.inFlight = .free → ch'.sequence = .ofNat (k + admissions es) := by
  cases hs with
  | admitted => nofun
  | numbered => exact fun hf => absurd hf (hheld rfl)
  | returned => exact fun _ => hx
  | _ => exact hfree

theorem Step.preparing (hs : Step p ch x es y ch') (hy : y.preparing = true) :
    (∃ r, es = [.admitted p r]) ∨ (es = [] ∧ x.preparing = true) := by
  cases hs with
  | admitted => exact .inl ⟨_, rfl⟩
  | numbered | locked | discarded => exact .inr ⟨rfl, rfl⟩
  | _ => cases hy

end ProducerPhase

/-- What the counter and the history tell of the numbers to come. -/
structure Counted (h : List Event) (t : Machine σ) : Prop where
  between : t.channel.inFlight = .free → t.channel.sequence = .ofNat (admissions h)
  draws : ∀ p, (t.producers p).phase.Draws (admissions h) t.channel.sequence
  begun : ∀ p, (t.producers p).phase.preparing = true →
    ∃ before e r since, h = before ++ .admitted e r :: since ∧ NoPost since

theorem Counted.produced (hi : Counted h t) (hex : t.Exclusive) {x y : ProducerPhase}
    {ch : Channel} (hx : (t.producers p).phase = x)
    (hs : ProducerPhase.Step p t.channel x es y ch) :
    Counted (h ++ es) { t.withProducer p ⟨(t.producers p).limit, y⟩ with channel := ch } where
  between := by
    rw [admissions_append]
    refine hs.keeps_count (hx ▸ hi.draws p) (fun hin => ?_) hi.between
    rw [(hex.inFlight p).mp (hx ▸ hin)]
    nofun
  draws e := by
    rw [admissions_append]
    by_cases he : e = p
    · subst he
      rw [Machine.withProducer_self]
      exact hs.draws (hx ▸ hi.draws e) hi.between
    · rw [Machine.withProducer_ne _ _ he]
      -- the counter moves under the lock of the round trip, and only one producer holds that
      cases hin : (t.producers e).phase.holdsInFlight with
      | false => exact ProducerPhase.draws_of_not_holdsInFlight hin
      | true =>
        obtain ⟨rfl, rfl⟩ := hex.still_of_inFlight hin he (hx ▸ hs)
        exact hi.draws e
  begun e hprep := by
    by_cases he : e = p
    · subst he
      rw [Machine.withProducer_self] at hprep
      rcases hs.preparing hprep with ⟨r, rfl⟩ | ⟨rfl, hx'⟩
      · exact ⟨h, e, r, [], rfl, by simp [NoPost]⟩
      · rw [List.append_nil]
        exact hi.begun e (hx ▸ hx')
    · rw [Machine.withProducer_ne _ _ he] at hprep
      obtain ⟨rfl, -⟩ := hex.still_of_inFlight
        (ProducerPhase.holdsInFlight_of_preparing hprep) he (hx ▸ hs)
      rw [List.append_nil]
      exact hi.begun e hprep

theorem Counted.withProducer (hi : Counted h t) {x : Producer}
    (hx : x.phase.Draws (admissions h) t.channel.sequence) (hno : x.phase.preparing = false) :
    Counted h (t.withProducer p x) where
  between := hi.between
  draws e := by
    by_cases he : e = p
    · subst he
      rwa [Machine.withProducer_self]
    · rw [Machine.withProducer_ne _ _ he]
      exact hi.draws e
  begun e hprep := by
    by_cases he : e = p
    · subst he
      rw [Machine.withProducer_self, hno] at hprep
      cases hprep
    · rw [Machine.withProducer_ne _ _ he] at hprep
      exact hi.begun e hprep

/-- What is no producer's doing neither admits nor posts, and keeps the count. -/
theorem Counted.unmoved (hi : Counted h t) (hes : admissions es = 0 ∧ NoPost es)
    (hprod : u.producers = t.producers) (hin : u.channel.inFlight = t.channel.inFlight)
    (hseq : u.channel.sequence = t.channel.sequence) : Counted (h ++ es) u where
  between := by
    rw [admissions_append, hes.1, hin, hseq]
    exact hi.between
  draws p := by
    rw [admissions_append, hes.1, hseq, hprod]
    exact hi.draws p
  begun p hprep := by
    rw [hprod] at hprep
    obtain ⟨before, e, r, since, rfl, hno⟩ := hi.begun p hprep
    refine ⟨before, e, r, since ++ es, by simp, fun f r q m hm => ?_⟩
    exact (List.mem_append.mp hm).elim (hno f r q m) (hes.2 f r q m)

theorem Counted.step (hi : Counted h t) (hex : t.Exclusive) (hs : t.Step d a es u) :
    Counted (h ++ es) u := by
  have hnone : admissions [] = 0 ∧ NoPost [] := ⟨rfl, by simp [NoPost]⟩
  cases hs with
  | called =>
    rw [List.append_nil]
    exact hi.withProducer trivial rfl
  | produced hx hs => exact hi.produced hex hx hs
  | @expired e r q limit hx =>
    have hw := hi.draws e
    rw [hx] at hw
    rw [List.append_nil]
    exact hi.withProducer hw rfl
  | consumed hs =>
    have hes : admissions es = 0 ∧ NoPost es := by
      cases hs <;> exact ⟨rfl, by simp [NoPost]⟩
    exact hi.unmoved hes rfl hs.inFlight (by cases hs <;> rfl)
  | turned | shutdown | strayMessage | strayResponse => exact hi.unmoved hnone rfl rfl rfl

theorem Machine.Fresh.counted (hs : s.Fresh) : Counted [] s := by
  obtain ⟨capacity, -, hch⟩ := hs.channel_eq
  refine ⟨fun _ => by rw [hch]; rfl, fun p => ?_, fun p hp => ?_⟩
  · rw [hs.idle p]
    trivial
  · rw [hs.idle p] at hp
    cases hp

theorem Run.counted {allowed : Action → Prop} (hs : s.Fresh) (hr : Run d allowed s h t) :
    Counted h t := by
  induction hr with
  | start => exact hs.counted
  | next hr _ hstep ih => exact ih.step (hr.exclusive hs) (Machine.step_inv hstep)

/-- A posted request has the number of its admission, and nothing was posted since then. -/
theorem Run.posted_number {allowed : Action → Prop} (hs : s.Fresh) (hr : Run d allowed s h t)
    {before since : List Event} {m : Region} (hh : h = before ++ .posted p r q m :: since) :
    q = requestNumber (admissions before) ∧
      ∃ b e r g, before = b ++ .admitted e r :: g ∧ NoPost g := by
  refine hr.forall_event (P := fun before e => ∀ p r q m, e = .posted p r q m →
    q = requestNumber (admissions before) ∧ ∃ b e r g, before = b ++ .admitted e r :: g ∧ NoPost g)
    ?_ hh p r q m rfl
  rintro h t a e u hr - hstep p r q m rfl
  have hi := hr.counted hs
  cases hstep with
  | produced hx hstep =>
    cases hstep
    have hw := hi.draws p
    rw [hx] at hw
    exact ⟨hw.2, hi.begun p (by rw [hx]; rfl)⟩
  | consumed hstep => cases hstep

theorem admissions_pos {e : Nat} {before since : List Event} :
    0 < admissions (before ++ .admitted e r :: since) := by
  simp only [admissions_append, admissions_cons, Event.isAdmitted, if_true]
  omega

/-- Between two posts the second request is admitted. -/
theorem admissions_between {before mid b g : List Event} {e : Nat} {r' : Request} {m : Region}
    (hh : before ++ .posted p r q m :: mid = b ++ .admitted e r' :: g) (hno : NoPost g) :
    0 < admissions mid := by
  -- the last admission stands after the first post, since no post stands after it
  rcases List.append_eq_append_iff.mp hh with ⟨as, -, hmid⟩ | ⟨bs, -, hg⟩
  · cases as with
    | nil => cases hmid
    | cons x as =>
      obtain ⟨-, rfl⟩ := List.cons.inj hmid
      exact admissions_pos
  · cases bs with
    | nil => cases hg
    | cons x bs =>
      obtain ⟨-, rfl⟩ := List.cons.inj hg
      exact absurd (by simp) (hno p r q m)

/-- No round trip is under way, and `n` requests have been numbered. -/
structure Machine.Rested (n : Nat) (t : Machine σ) : Prop where
  rest : (t.producers 0).phase = .idle ∨ ∃ x, (t.producers 0).phase = .done x
  inFlight : t.channel.inFlight = .free
  unlocked : t.channel.mailbox.lock = .free
  capacity : t.channel.mailbox.capacity = 32
  counter : t.channel.sequence = .ofNat n

def Event.abandoned (q : UInt64) : List Event :=
  let r := .enumerateHandlers
  [.admitted 0 r, .posted 0 r q (.posted r q 32), .signalled 0 r q, .returned 0 (.error .timeout)]

theorem Run.posts_next (d : Dispatcher σ) (hi : t.Rested n) :
    let r := .enumerateHandlers
    let q := requestNumber (n + 1)
    ∃ u, Run d Action.Solo t [.admitted 0 r, .posted 0 r q (.posted r q 32), .signalled 0 r q] u ∧
      u.producers 0 = ⟨some 1, .waiting r q⟩ ∧ u.channel.responseReady.isSet = false ∧
      u.channel.mailbox.lock = .free ∧ u.channel.mailbox.capacity = 32 ∧
      u.channel.sequence = .ofNat (n + 1) := by
  intro r q
  have hfit : r.Fits t.channel.mailbox.capacity := by
    rw [hi.capacity]
    decide
  have hcall : t.step d (.call 0 r (some 1)) = some (t.withProducer 0 ⟨some 1, .sizing r⟩) := by
    rcases hi.rest with hx | ⟨x, hx⟩ <;> simp [Machine.step, hx]
  have hr₀ := Run.start.next (show Action.Solo (.call 0 r (some 1)) from trivial) hcall
  have hp₀ : (t.withProducer 0 ⟨some 1, .sizing r⟩).producers 0 = ⟨some 1, .sizing r⟩ :=
    Machine.withProducer_self ..
  have ha : Action.Solo (.produce 0) := trivial
  obtain ⟨v₁, hr₁, -, hc₁, hp₁⟩ := Run.produce_limited (d := d) ha hp₀ (.sized hfit.1)
  obtain ⟨v₂, hr₂, -, hc₂, hp₂⟩ :=
    Run.produce_limited (d := d) ha hp₁ (.admitted (by rw [hc₁]; exact hi.inFlight))
  have hn : v₂.channel.sequence + 1 = .ofNat (n + 1) := by
    rw [hc₂, hc₁, UInt64.ofNat_add, ← hi.counter]
    rfl
  obtain ⟨v₃, hr₃, -, hc₃, hp₃⟩ := Run.produce_limited (d := d) ha hp₂ .numbered
  rw [show max (v₂.channel.sequence + 1) 1 = q by rw [hn]; rfl] at hp₃
  obtain ⟨v₄, hr₄, -, hc₄, hp₄⟩ := Run.produce_limited (d := d) ha hp₃
    (.locked (by rw [hc₃, hc₂, hc₁]; exact hi.unlocked))
  obtain ⟨v₅, hr₅, -, hc₅, hp₅⟩ := Run.produce_limited (d := d) ha hp₄ .discarded
  have hpost : v₅.channel.mailbox.region.post r q = (.ok (), .posted r q 32) := by
    have hm : v₅.channel.mailbox.region = t.channel.mailbox.region := by
      rw [hc₅, hc₄, hc₃, hc₂, hc₁]
      rfl
    have hlen : t.channel.mailbox.region.payload.length = 32 := hi.capacity
    rw [hm, Region.post_of_fits hfit, hlen]
  obtain ⟨v₆, hr₆, -, hc₆, hp₆⟩ := Run.produce_limited (d := d) ha hp₅ (.posted hpost)
  obtain ⟨v₇, hr₇, -, hc₇, hp₇⟩ := Run.produce_limited (d := d) ha hp₆ .released
  obtain ⟨u, hr₈, -, hc₈, hp₈⟩ := Run.produce_limited (d := d) ha hp₇ .signalled
  refine ⟨u, (((((((hr₀.trans hr₁).trans hr₂).trans hr₃).trans hr₄).trans hr₅).trans hr₆).trans
    hr₇).trans hr₈, hp₈, ?_, ?_, ?_, ?_⟩
  · rw [hc₈, hc₇, hc₆, hc₅]
  · rw [hc₈, hc₇]
  · rw [hc₈, hc₇, hc₆]
    exact Region.length_posted (by decide)
  · rw [hc₈, hc₇, hc₆, hc₅, hc₄, hc₃]
    exact hn

theorem Run.gives_up (d : Dispatcher σ) {limit : Nat} (hp : t.producers p = ⟨some limit, .waiting r q⟩)
    (hsilent : t.channel.responseReady.isSet = false) :
    ∃ u, Run d Action.Solo t [.returned p (.error .timeout)] u ∧
      (u.producers p).phase = .done (.error .timeout) ∧
      u.channel = { t.channel with inFlight := .free } := by
  let v := t.withProducer p ⟨some limit, .leaving (.error .timeout)⟩
  have hexpire : t.step d (.expire p) = some v := by
    simp [Machine.step, hp, ProducerPhase.expire, hsilent, v]
  have hr := Run.start.next (show Action.Solo (.expire p) from trivial) hexpire
  have hv : (v.producers p).phase = .leaving (.error .timeout) := by simp [v]
  obtain ⟨u, hu, -, hc, hx⟩ :=
    Run.produce (d := d) (show Action.Solo (.produce p) from trivial) hv .returned
  exact ⟨u, hr.trans hu, hx, hc⟩

theorem Run.abandons (d : Dispatcher σ) (hi : t.Rested n) :
    ∃ u, Run d Action.Solo t (Event.abandoned (requestNumber (n + 1))) u ∧ u.Rested (n + 1) := by
  obtain ⟨v, hv, hp, hsilent, hl, hcap, hn⟩ := Run.posts_next d hi
  obtain ⟨u, hu, hx, hc⟩ := Run.gives_up d hp hsilent
  exact ⟨u, hv.trans hu, .inr ⟨_, hx⟩, by rw [hc], by rw [hc, hl], by rw [hc, hcap], by rw [hc, hn]⟩

theorem Run.abandons_all (n : Nat) : ∃ h t, Run (.adding 0) Action.Solo (.initial .smallest ()) h t ∧
    t.Rested n := by
  induction n with
  | zero => exact ⟨[], _, .start, .inl rfl, rfl, rfl, rfl, rfl⟩
  | succ n ih =>
    obtain ⟨h, t, hr, hi⟩ := ih
    obtain ⟨u, hu, hi⟩ := Run.abandons (.adding 0) hi
    exact ⟨_, u, hr.trans hu, hi⟩

/-- No number is 0, and numbers that are less than a turn of the counter apart differ, except for
the two in a row at its wrap. -/
theorem Run.number_repeats_iff {allowed : Action → Prop} (hs : s.Fresh)
    (hr : Run d allowed s h t) {before mid since : List Event} {p' : Nat} {r' : Request}
    {q' : UInt64} {m m' : Region}
    (hh : h = before ++ .posted p r q m :: (mid ++ .posted p' r' q' m' :: since)) :
    (∀ ch : Channel, ch.nextSequence.1 ≠ 0 ∧
      (ch.nextSequence.2.nextSequence.1 = ch.nextSequence.1 ↔ ch.sequence.toNat + 1 = 2 ^ 64)) ∧
    q ≠ 0 ∧ q' ≠ 0 ∧
    (admissions mid < 2 ^ 64 - 1 → (q = q' ↔ admissions mid = 1 ∧ 2 ^ 64 ∣ admissions before)) := by
  obtain ⟨rfl, -⟩ := hr.posted_number hs hh
  have hh' : h = (before ++ .posted p r (requestNumber (admissions before)) m :: mid) ++
      .posted p' r' q' m' :: since := by simpa using hh
  obtain ⟨hq', b, e, r₀, g, hb, hno⟩ := hr.posted_number hs hh'
  have hmid := admissions_between hb hno
  have hcount : admissions (before ++ .posted p r (requestNumber (admissions before)) m :: mid) =
      admissions before + admissions mid := by
    simp [admissions_cons, Event.isAdmitted]
  rw [hcount] at hq'
  subst hq'
  refine ⟨fun ch => ⟨?_, ch.nextSequence_repeats_iff⟩, requestNumber_ne_zero _,
    requestNumber_ne_zero _, requestNumber_eq_iff hmid⟩
  rw [ch.nextSequence_eq]
  exact requestNumber_ne_zero _

theorem Run.number_repeats_iff_sample : ∃ t,
    Run (.adding 0) Action.Solo (.initial .smallest ()) (Event.abandoned 1 ++ Event.abandoned 2) t ∧
      (1 : UInt64) ≠ 0 ∧ (2 : UInt64) ≠ 0 ∧ ((1 : UInt64) = 2 ↔ 1 = 1 ∧ 2 ^ 64 ∣ 1) := by
  let r := Request.enumerateHandlers
  have hi : Machine.Rested 0 (.initial .smallest ()) := ⟨.inl rfl, rfl, rfl, rfl, rfl⟩
  obtain ⟨u, hu, hi⟩ := Run.abandons (.adding 0) hi
  obtain ⟨v, hv, -⟩ := Run.abandons (.adding 0) hi
  have hr : Run (.adding 0) Action.Solo (.initial .smallest ())
    (Event.abandoned 1 ++ Event.abandoned 2) v := hu.trans hv
  let mid : List Event := [.signalled 0 r 1, .returned 0 (.error .timeout), .admitted 0 r]
  let since : List Event := [.signalled 0 r 2, .returned 0 (.error .timeout)]
  have hh : Event.abandoned 1 ++ Event.abandoned 2 = [Event.admitted 0 r] ++
    Event.posted 0 r 1 (.posted r 1 32) :: (mid ++ Event.posted 0 r 2 (.posted r 2 32) :: since) := rfl
  obtain ⟨-, h1, h2, hiff⟩ := Run.number_repeats_iff (Machine.fresh_smallest ()) hr hh
  exact ⟨v, hr, h1, h2, hiff (by decide)⟩

/-- After a turn of the counter a request has the number of the one abandoned just before it. -/
theorem Run.number_repeated :
    (∃ ch : Channel, ch.nextSequence.2.nextSequence.1 = ch.nextSequence.1) ∧
    ∃ h t, Run (.adding 0) Action.Solo (.initial .smallest ())
      (h ++ (Event.abandoned 1 ++ Event.abandoned 1)) t := by
  obtain ⟨h, t, hr, hi⟩ := Run.abandons_all (2 ^ 64 - 1)
  obtain ⟨u, hu, hi⟩ := Run.abandons (.adding 0) hi
  obtain ⟨v, hv, -⟩ := Run.abandons (.adding 0) hi
  exact ⟨⟨{ Channel.smallest with sequence := .ofNat (2 ^ 64 - 1) }, rfl⟩, h, v,
    hr.trans (hu.trans hv)⟩

end FirmwareHost
