import FirmwareHost.Proofs.Pending

/-! No residue. What a post leaves in the mailbox depends on the request, its number and the size of
the mailbox, and so does all that comes of it, the dispatcher apart: nothing that was in the channel
before is there to be found. -/

namespace FirmwareHost

variable {σ : Type}

/-- Whether an action writes to the mailbox. -/
def Machine.writes (t : Machine σ) : Action → Bool
  | .produce p =>
    match (t.producers p).phase with
    | .writing .. => true
    | _ => false
  | .consume c =>
    match (t.consumers c).phase with
    | .answering => true
    | _ => false
  | _ => false

/-- Nobody writes to the mailbox on the way from `t`. -/
inductive Machine.Unwritten (d : Dispatcher σ) (t : Machine σ) : Machine σ → Prop
  | start : Unwritten d t t
  | next {u a v} (hu : Unwritten d t u) (hw : u.writes a = false) (hs : u.step d a = some v) :
      Unwritten d t v

variable {d : Dispatcher σ} {s t u v w : Machine σ} {a : Action} {h g es : List Event}
  {p : Nat} {r : Request} {q : UInt64} {m : Region}

/-- No call is under way and no lock is held. Whatever else the channel holds was left by earlier
traffic. -/
structure Machine.Uncalled (s : Machine σ) : Prop where
  producer : ∀ p, (s.producers p).phase.Rests
  consumer : ∀ c, (s.consumers c).phase.atRest = true
  inFlight : ∀ a, s.channel.inFlight ≠ .held a
  unlocked : ∀ a, s.channel.mailbox.lock ≠ .held a

theorem Machine.Uncalled.not_holdsInFlight (hs : s.Uncalled) (p : Nat) :
    (s.producers p).phase.holdsInFlight = false := by
  rcases hs.producer p with hp | ⟨x, hp⟩ <;> rw [hp] <;> rfl

theorem Machine.Uncalled.exclusive (hs : s.Uncalled) : s.Exclusive where
  inFlight p := by simp [hs.not_holdsInFlight p, hs.inFlight]
  producer p := by
    have hno := ProducerPhase.holdsMailbox_of_not_holdsInFlight (hs.not_holdsInFlight p)
    simp [hno, hs.unlocked]
  consumer c := by
    have hno := ConsumerPhase.holdsMailbox_of_atRest (hs.consumer c)
    simp [hno, hs.unlocked]
  insider := hs.unlocked _

theorem Machine.Step.keeps_numbered (hs : t.Step d a es u)
    (hi : ∀ p, (t.producers p).phase.Numbered) : ∀ p, (u.producers p).phase.Numbered := by
  cases hs with
  | called | expired =>
    exact forall_withProducer (P := fun _ x => x.phase.Numbered) trivial fun q _ => hi q
  | produced hx hs =>
    exact forall_withProducer (P := fun _ x => x.phase.Numbered) (hs.keeps_numbered (hx ▸ hi _))
      fun q _ => hi q
  | _ => exact hi

theorem Run.ordered {allowed : Action → Prop} (hs : s.Uncalled) (hr : Run d allowed s h t) :
    t.Exclusive ∧ ∀ p, (t.producers p).phase.Numbered := by
  refine hr.preserves (I := fun _ t => t.Exclusive ∧ ∀ p, (t.producers p).phase.Numbered)
    ⟨hs.exclusive, fun p => ?_⟩ fun hi _ hstep => ⟨hi.1.step hstep, hstep.keeps_numbered hi.2⟩
  rcases hs.producer p with hp | ⟨x, hp⟩ <;> rw [hp] <;> trivial

theorem Machine.Step.region_of_not_writes (hs : t.Step d a es u) (hw : t.writes a = false) :
    u.channel.mailbox.region = t.channel.mailbox.region := by
  cases hs with
  | produced hx hs =>
    cases hs with
    | posted | rejected => simp [writes, hx] at hw
    | _ => rfl
  | consumed hs =>
    cases hs with
    | served hx => simp [writes, hx] at hw
    | _ => rfl
  | _ => rfl

theorem Machine.Unwritten.region (hu : t.Unwritten d u) :
    u.channel.mailbox.region = t.channel.mailbox.region := by
  induction hu with
  | start => rfl
  | next _ hw hs ih => exact ((step_inv hs).region_of_not_writes hw).trans ih

/-- After any traffic at all producer `p` posts `r` under the number `q`. -/
def Machine.Posts (d : Dispatcher σ) (p : Nat) (r : Request) (q : UInt64) (t : Machine σ) : Prop :=
  ∃ s₀ h s m, Uncalled s₀ ∧ Run d (fun _ => True) s₀ h s ∧ s.Step d (.produce p) [.posted p r q m] t

/-- Neither an answer nor the return of `p`. -/
def Event.Before (p : Nat) : Event → Prop
  | .served .. => False
  | .returned e _ => e ≠ p
  | _ => True

def Machine.Stays (d : Dispatcher σ) (p : Nat) (t u : Machine σ) : Prop :=
  ∃ g, Run d (fun _ => True) t g u ∧ ∀ e ∈ g, e.Before p

/-- The wait for an answer runs out, or the mailbox is found poisoned. -/
def Outcome.CutShort (x : Outcome Exchanged) : Prop := x = .error .timeout ∨ x = .error .aborted

/-- The request that `p` has posted in `t` is answered once, by a dispatcher that goes from `y` to
`z`. The answer is there in `v`, and `p` has returned with `x` in `w`. -/
structure Machine.AnsweredOnce (d : Dispatcher σ) (p : Nat) (t : Machine σ) (y z : σ)
    (v : Machine σ) (x : Outcome Exchanged) (w : Machine σ) : Prop where
  served : ∃ u c k n, t.Stays d p u ∧ u.Step d (.consume c) [.served c k n] v ∧
    (u.consumers c).dispatcher = y ∧ (v.consumers c).dispatcher = z
  returned : ∃ u, v.Stays d p u ∧ u.Step d (.produce p) [.returned p x] w
  answered : ¬Outcome.CutShort x

/-- A producer that has the answer to its post ahead of it, or an outcome of it to return. -/
def ProducerPhase.Awaits (r : Request) (q : UInt64) (out : Outcome Exchanged → Prop)
    (x : ProducerPhase) : Prop :=
  x.Carries r q ∨ ∃ result, x = .leaving result ∧ out result

theorem ProducerPhase.Awaits.holdsInFlight {out : Outcome Exchanged → Prop} {x : ProducerPhase}
    (h : x.Awaits r q out) : x.holdsInFlight = true :=
  HasPosted.holdsInFlight (h.imp_right fun ⟨result, hl, _⟩ => ⟨result, hl⟩)

/-- While a posted request awaits its answer, the mailbox stays as it is, and its producer comes to
return only what it finds there, or that it was cut short. -/
structure Undisturbed (m : Region) (p : Nat) (r : Request) (q : UInt64)
    (out : Outcome Exchanged → Prop) (t : Machine σ) : Prop where
  exclusive : t.Exclusive
  region : t.channel.mailbox.region = m
  awaits : (t.producers p).phase.Awaits r q out

variable {out : Outcome Exchanged → Prop}

theorem ProducerPhase.Step.awaits {ch ch' : Channel} {x y : ProducerPhase}
    (hs : Step p ch x es y ch') (hx : x.Awaits r q out) (hes : ∀ e ∈ es, e.Before p)
    (hcut : ∀ x, Outcome.CutShort x → out x)
    (hcollect : ch.mailbox.region.header.answeredSequence = q →
      out (ch.mailbox.region.collect r.function)) :
    y.Awaits r q out ∧ ch'.mailbox.region = ch.mailbox.region := by
  cases hs with
  | released | signalled | woke | relocked | skipped =>
    rcases hx with hc | ⟨result, hl, -⟩
    · exact ⟨.inl hc, rfl⟩
    · cases hl
  | reshutOut => exact ⟨.inr ⟨_, rfl, hcut _ (.inr rfl)⟩, rfl⟩
  | collected ha =>
    rcases hx with ⟨rfl, rfl⟩ | ⟨result, hl, -⟩
    · exact ⟨.inr ⟨_, rfl, hcollect ha⟩, rfl⟩
    · cases hl
  | returned => exact absurd rfl (hes _ (List.mem_singleton_self _))
  | _ =>
    rcases hx with hc | ⟨result, hl, -⟩
    · exact hc.elim
    · cases hl

theorem Undisturbed.step (hi : Undisturbed m p r q out t) (hs : t.Step d a es u)
    (hes : ∀ e ∈ es, e.Before p) (hcut : ∀ x, Outcome.CutShort x → out x)
    (hcollect : m.header.answeredSequence = q → out (m.collect r.function)) :
    Undisturbed m p r q out u := by
  have hex := hi.exclusive.step hs
  have hin := hi.awaits.holdsInFlight
  cases hs with
  | @called e r' limit he =>
    have hne : p ≠ e := by
      rintro rfl
      rw [hin] at he
      cases he
    exact ⟨hex, hi.region, by rw [Machine.withProducer_ne _ _ hne]; exact hi.awaits⟩
  | @expired e =>
    refine ⟨hex, hi.region, ?_⟩
    by_cases he : p = e
    · subst he
      rw [Machine.withProducer_self]
      exact .inr ⟨_, rfl, hcut _ (.inl rfl)⟩
    · rw [Machine.withProducer_ne _ _ he]
      exact hi.awaits
  | @produced e x es y ch hx hs =>
    by_cases he : p = e
    · subst he
      obtain ⟨hy, hregion⟩ := hs.awaits (hx ▸ hi.awaits) hes hcut (by rwa [hi.region])
      exact ⟨hex, hregion.trans hi.region, by rwa [Machine.withProducer_self]⟩
    · obtain ⟨-, rfl⟩ := hi.exclusive.still_of_inFlight hin he (hx ▸ hs)
      exact ⟨hex, hi.region, by rw [Machine.withProducer_ne _ _ he]; exact hi.awaits⟩
  | consumed hs =>
    refine ⟨hex, ?_, hi.awaits⟩
    cases hs with
    | served => exact (hes _ (List.mem_singleton_self _)).elim
    | _ => exact hi.region
  | _ => exact ⟨hex, hi.region, hi.awaits⟩

theorem Undisturbed.stays (hi : Undisturbed m p r q out t) (hu : t.Stays d p u)
    (hcut : ∀ x, Outcome.CutShort x → out x)
    (hcollect : m.header.answeredSequence = q → out (m.collect r.function)) :
    Undisturbed m p r q out u := by
  obtain ⟨g, hr, hg⟩ := hu
  induction hr with
  | start => exact hi
  | next _ _ hs ih =>
    have hi := ih fun e he => hg e (List.mem_append_left _ he)
    exact hi.step (Machine.step_inv hs) (fun e he => hg e (List.mem_append_right _ he)) hcut hcollect

theorem Machine.Posts.undisturbed (hp : t.Posts d p r q) : q ≠ 0 ∧
    (t.producers p).phase.holdsMailbox = true ∧
      Undisturbed (.posted r q t.channel.mailbox.capacity) p r q Outcome.CutShort t := by
  obtain ⟨s₀, h, s, m, hs₀, hr, hs⟩ := hp
  obtain ⟨hex, hnum⟩ := hr.ordered hs₀
  have hex' := hex.step hs
  cases hs with
  | produced hx hs =>
    cases hs with
    | posted hm =>
      obtain ⟨-, hfit, rfl⟩ := Region.posted_of_post hm
      have hcap : (Region.posted r q s.channel.mailbox.capacity).payload.length =
          s.channel.mailbox.capacity := Region.length_posted hfit
      have hq := hnum p
      rw [hx] at hq
      refine ⟨hq, by rw [withProducer_self]; rfl, hex', congrArg (Region.posted r q) hcap.symm, ?_⟩
      rw [withProducer_self]
      exact .inl ⟨rfl, rfl⟩

theorem Machine.Posts.decode (hp : t.Posts d p r q) :
    Request.decode t.channel.mailbox.region = .ok r := by
  obtain ⟨s₀, h, s, m, -, -, hs⟩ := hp
  cases hs with
  | produced hx hs =>
    cases hs with
    | posted hm =>
      obtain ⟨hl, -, rfl⟩ := Region.posted_of_post hm
      exact Request.decode_posted hl

theorem Machine.Step.serves {c : Nat} {k n : Region} (hs : t.Step d (.consume c) [.served c k n] u) :
    k = t.channel.mailbox.region ∧ u.channel.mailbox.region = n ∧ u.producers = t.producers ∧
      d.answer k (t.consumers c).dispatcher = (some n, (u.consumers c).dispatcher) := by
  cases hs with
  | consumed hs =>
    cases hs with
    | served _ hn =>
      refine ⟨rfl, rfl, rfl, ?_⟩
      rw [Machine.withConsumer_self]
      exact hn

theorem Machine.Step.returns {x : Outcome Exchanged}
    (hs : t.Step d (.produce p) [.returned p x] u) :
    (t.producers p).phase = .leaving x ∧ u.channel.mailbox = t.channel.mailbox := by
  cases hs with
  | produced hx hs =>
    cases hs
    exact ⟨hx, rfl⟩

/-- What the answer to a post leaves and what its producer returns are read off the post and the
dispatcher. -/
theorem Machine.AnsweredOnce.determined {y z : σ} {x : Outcome Exchanged}
    (hp : t.Posts d p r q) (ha : t.AnsweredOnce d p y z v x w) :
    ∃ n, d.answer (.posted r q t.channel.mailbox.capacity) y = (some n, z) ∧
      v.channel.mailbox.region = n ∧ x = n.collect r.function ∧
      w.channel.mailbox.region = n := by
  obtain ⟨hq, -, hi⟩ := hp.undisturbed
  obtain ⟨u, c, k, n, hu, hserve, rfl, rfl⟩ := ha.served
  obtain ⟨u', hu', hreturn⟩ := ha.returned
  -- before the answer the mailbox answers no number but 0, so nobody collects
  have hu := hi.stays hu (fun _ => id) fun h0 => absurd h0.symm hq
  obtain ⟨rfl, hn, hprod, hanswer⟩ := hserve.serves
  rw [hu.region] at hanswer
  let out (x : Outcome Exchanged) : Prop := Outcome.CutShort x ∨ x = n.collect r.function
  have hv : Undisturbed n p r q out v := by
    refine ⟨hu.exclusive.step hserve, hn, ?_⟩
    rw [hprod]
    refine hu.awaits.imp_right ?_
    rintro ⟨result, hl, hcut⟩
    exact ⟨result, hl, .inl hcut⟩
  have hw := hv.stays hu' (fun _ => .inl) fun _ => .inr rfl
  obtain ⟨hl, hmailbox⟩ := hreturn.returns
  have hout : out x := by
    rcases hw.awaits with hc | ⟨result, hl', hout⟩
    · rw [hl] at hc
      exact hc.elim
    · rw [hl] at hl'
      cases hl'
      exact hout
  exact ⟨n, hanswer, hn, hout.resolve_left ha.answered, by rw [hmailbox, hw.region]⟩

/-- Whatever traffic there was before, a post leaves its code, its number, its layout and zeros,
which read as the request. Nobody else has the mailbox in hand then, and that is what is found there
until somebody writes. Two posts of a request under one number cannot be told apart, nor what one
answer makes of each. -/
theorem Machine.Posts.no_residue {p₁ p₂ : Nat} {t₁ t₂ : Machine σ} (h₁ : t₁.Posts d p₁ r q)
    (h₂ : t₂.Posts d p₂ r q) (hc : t₁.channel.mailbox.capacity = t₂.channel.mailbox.capacity) :
    (∀ c, (t₁.consumers c).phase.holdsMailbox = false) ∧
    (∀ u₁, t₁.Unwritten d u₁ → u₁.channel.mailbox.region = ⟨⟨r.function.code, 0, q, 0⟩,
      r.layout ++ List.replicate (t₁.channel.mailbox.capacity - r.encodedLength) 0⟩) ∧
    Request.decode t₁.channel.mailbox.region = .ok r ∧
    t₁.channel.mailbox.region = t₂.channel.mailbox.region ∧
    ∀ {y z₁ z₂ v₁ v₂ x₁ x₂ w₁ w₂}, t₁.AnsweredOnce d p₁ y z₁ v₁ x₁ w₁ →
      t₂.AnsweredOnce d p₂ y z₂ v₂ x₂ w₂ →
        v₁.channel.mailbox.region = v₂.channel.mailbox.region ∧ z₁ = z₂ ∧ x₁ = x₂ ∧
          w₁.channel.mailbox.region = w₂.channel.mailbox.region := by
  obtain ⟨-, hhold, hi₁⟩ := h₁.undisturbed
  obtain ⟨-, -, hi₂⟩ := h₂.undisturbed
  refine ⟨fun c => hi₁.exclusive.consumer_of_producer c hhold, fun u₁ hu => ?_, h₁.decode, ?_, ?_⟩
  · exact hu.region.trans hi₁.region
  · rw [hi₁.region, hi₂.region, hc]
  · intro y z₁ z₂ v₁ v₂ x₁ x₂ w₁ w₂ ha₁ ha₂
    obtain ⟨n₁, hn₁, hv₁, hx₁, hw₁⟩ := ha₁.determined h₁
    obtain ⟨n₂, hn₂, hv₂, hx₂, hw₂⟩ := ha₂.determined h₂
    rw [hc, hn₂] at hn₁
    obtain ⟨hn, rfl⟩ := Prod.mk.inj hn₁
    obtain rfl := Option.some.inj hn
    exact ⟨hv₁.trans hv₂.symm, rfl, hx₁.trans hx₂.symm, hw₁.trans hw₂.symm⟩

/-- A mailbox and a flag that earlier traffic has left its traces in. -/
def Channel.littered : Channel :=
  ⟨⟨⟨⟨3, 4, 9, 9⟩, List.replicate 32 0xEE⟩, .free, 7⟩, .initial, ⟨true⟩, .free, 0⟩

def Request.sample : Request := .invokeHandler .zero [9]

theorem Machine.exists_answeredOnce {ch : Channel} (hch : ch = .smallest ∨ ch = .littered) :
    ∃ t v w : Machine Unit, t.Posts (.adding 1) 0 .sample 1 ∧ t.channel.mailbox.capacity = 32 ∧
      t.AnsweredOnce (.adding 1) 0 () () v (.ok (.success, .invoke .success [10])) w := by
  let d := Dispatcher.adding 1
  let m := Region.posted .sample 1 32
  let n := (d.answer m ()).1.getD m
  let result : Outcome Exchanged := .ok (.success, .invoke .success [10])
  let first : List Action := .call 0 .sample none :: List.replicate 5 (.produce 0)
  let second : List Action := List.replicate 2 (.produce 0) ++ List.replicate 3 (.consume 0)
  let third : List Action := List.replicate 2 (.consume 0) ++ List.replicate 3 (.produce 0)
  have hplay : ∃ s t u v w z,
      (Machine.initial ch ()).play d first = some ([.admitted 0 .sample], s) ∧
      s.step d (.produce 0) = some t ∧ s.events d (.produce 0) = [.posted 0 .sample 1 m] ∧
      t.channel.mailbox.capacity = 32 ∧
      t.play d second = some ([.signalled 0 .sample 1], u) ∧
      u.step d (.consume 0) = some v ∧ u.events d (.consume 0) = [.served 0 m n] ∧
      v.play d third = some ([.woke 0, .collected 0 .sample 1 n], w) ∧
      w.step d (.produce 0) = some z ∧ w.events d (.produce 0) = [.returned 0 result] := by
    rcases hch with rfl | rfl <;>
      exact ⟨_, _, _, _, _, _, rfl, rfl, rfl, rfl, rfl, rfl, rfl, rfl, rfl, rfl⟩
  obtain ⟨s, t, u, v, w, z, hs, ht, hpost, hcap, hu, hv, hserve, hw, hz, hreturn⟩ := hplay
  have huncalled : (Machine.initial ch ()).Uncalled := by
    rcases hch with rfl | rfl <;> exact ⟨fun _ => .inl rfl, fun _ => rfl, nofun, nofun⟩
  have ht := Machine.step_inv ht
  have hv := Machine.step_inv hv
  have hz := Machine.step_inv hz
  rw [hpost] at ht
  rw [hserve] at hv
  rw [hreturn] at hz
  have hposts : t.Posts d 0 .sample 1 :=
    ⟨_, _, s, m, huncalled, .of_play (fun _ _ => trivial) hs, ht⟩
  have hwait : t.Stays d 0 u := ⟨_, .of_play (fun _ _ => trivial) hu, by simp [Event.Before]⟩
  have hfetch : v.Stays d 0 w := ⟨_, .of_play (fun _ _ => trivial) hw, by simp [Event.Before]⟩
  exact ⟨t, v, z, hposts, hcap, {
    served := ⟨u, 0, m, n, hwait, hv, rfl, rfl⟩
    returned := ⟨w, hfetch, hz⟩
    answered := by simp [Outcome.CutShort] }⟩

theorem Machine.Posts.no_residue_sample : ∃ t₁ t₂ v₁ v₂ : Machine Unit,
    t₁.Posts (.adding 1) 0 .sample 1 ∧ t₂.Posts (.adding 1) 0 .sample 1 ∧
      Request.decode t₁.channel.mailbox.region = .ok .sample ∧
      t₁.channel.mailbox.region = t₂.channel.mailbox.region ∧
      v₁.channel.mailbox.region = v₂.channel.mailbox.region := by
  obtain ⟨t₁, v₁, w₁, h₁, hc₁, ha₁⟩ := exists_answeredOnce (.inl rfl)
  obtain ⟨t₂, v₂, w₂, h₂, hc₂, ha₂⟩ := exists_answeredOnce (.inr rfl)
  obtain ⟨-, -, hread, hregion, hanswers⟩ := Machine.Posts.no_residue h₁ h₂ (hc₁.trans hc₂.symm)
  obtain ⟨hv, -⟩ := hanswers ha₁ ha₂
  exact ⟨t₁, t₂, v₁, v₂, h₁, h₂, hread, hregion, hv⟩

end FirmwareHost
