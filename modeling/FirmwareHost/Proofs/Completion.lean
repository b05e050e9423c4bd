import FirmwareHost.Proofs.Conversation
import FirmwareHost.Proofs.Serving

/-! Calls come to their end. From rest the caller's own steps and those of the consumer carry a call
through, unless the dispatcher panics. -/

namespace FirmwareHost

variable {σ : Type} {d : Dispatcher σ} {s v : Machine σ} {capacity : Nat} {y z : σ} {p : Nat}
  {r : Request} {q : UInt64}

theorem Action.Consumes.attends {a : Action} (ha : a.Consumes) : a.Attends p := by
  rcases ha with rfl | rfl <;> rfl

theorem Run.prepares (d : Dispatcher σ) (hx : (v.producers p).phase = .sizing r)
    (hfit : r.encodedLength ≤ v.channel.mailbox.capacity) (hfree : v.channel.inFlight = .free)
    (hl : v.channel.mailbox.lock = .free) :
    ∃ h u q, Run d (Action.Attends p) v h u ∧ (u.producers p).phase = .writing r q ∧
      u.consumers = v.consumers ∧ u.channel.mailbox.capacity = v.channel.mailbox.capacity := by
  have hp : Action.Attends p (.produce p) := rfl
  obtain ⟨v₁, hr₁, hy₁, hc₁, hx₁⟩ := Run.produce (d := d) hp hx (.sized hfit)
  obtain ⟨v₂, hr₂, hy₂, hc₂, hx₂⟩ := Run.produce (d := d) hp hx₁ (.admitted (by rw [hc₁, hfree]))
  obtain ⟨v₃, hr₃, hy₃, hc₃, hx₃⟩ := Run.produce (d := d) hp hx₂ .numbered
  obtain ⟨v₄, hr₄, hy₄, hc₄, hx₄⟩ :=
    Run.produce (d := d) hp hx₃ (.locked (by rw [hc₃, hc₂, hc₁, hl]))
  obtain ⟨v₅, hr₅, hy₅, hc₅, hx₅⟩ := Run.produce (d := d) hp hx₄ .discarded
  have hrun := (((hr₁.trans hr₂).trans hr₃).trans hr₄).trans hr₅
  refine ⟨_, v₅, _, hrun, hx₅, by rw [hy₅, hy₄, hy₃, hy₂, hy₁], ?_⟩
  rw [hc₅, hc₄, hc₃, hc₂, hc₁]
  rfl

theorem Run.posts (d : Dispatcher σ) {q : UInt64} (hx : (v.producers p).phase = .writing r q)
    (hf : r.Fits v.channel.mailbox.capacity) :
    ∃ h u, Run d (Action.Attends p) v h u ∧ (u.producers p).phase = .waiting r q ∧
      u.consumers = v.consumers ∧ u.channel.messageReady = ⟨true⟩ ∧
      u.channel.mailbox.lock = .free ∧
      u.channel.mailbox.region = .posted r q v.channel.mailbox.capacity := by
  have hp : Action.Attends p (.produce p) := rfl
  obtain ⟨v₁, hr₁, hy₁, hc₁, hx₁⟩ := Run.produce (d := d) hp hx (.posted (Region.post_of_fits hf))
  obtain ⟨v₂, hr₂, hy₂, hc₂, hx₂⟩ := Run.produce (d := d) hp hx₁ .released
  obtain ⟨v₃, hr₃, hy₃, hc₃, hx₃⟩ := Run.produce (d := d) hp hx₂ .signalled
  refine ⟨_, v₃, (hr₁.trans hr₂).trans hr₃, hx₃, by rw [hy₃, hy₂, hy₁], by rw [hc₃], ?_, ?_⟩
  · rw [hc₃, hc₂]
  · rw [hc₃, hc₂, hc₁]
    rfl

theorem Run.fetches (d : Dispatcher σ) {q : UInt64} (hx : (v.producers p).phase = .waiting r q)
    (hready : v.channel.responseReady.isSet = true) (hl : v.channel.mailbox.lock = .free)
    (hq : v.channel.mailbox.region.header.answeredSequence = q) :
    ∃ h u result, Run d (Action.Attends p) v h u ∧ (u.producers p).phase = .done result := by
  have hp : Action.Attends p (.produce p) := rfl
  obtain ⟨v₁, hr₁, -, hc₁, hx₁⟩ := Run.produce (d := d) hp hx (.woke hready)
  obtain ⟨v₂, hr₂, -, hc₂, hx₂⟩ := Run.produce (d := d) hp hx₁ (.relocked (by rw [hc₁, hl]))
  obtain ⟨v₃, hr₃, -, -, hx₃⟩ := Run.produce (d := d) hp hx₂ (.collected (by rw [hc₂, hc₁, hq]))
  obtain ⟨v₄, hr₄, -, -, hx₄⟩ := Run.produce (d := d) hp hx₃ .returned
  exact ⟨_, v₄, _, ((hr₁.trans hr₂).trans hr₃).trans hr₄, hx₄⟩

/-- A posted request is served and its answer fetched. -/
theorem Run.answers (hx : (v.producers p).phase = .waiting r q)
    (hm : v.channel.messageReady.isSet = true) (hl : v.channel.mailbox.lock = .free)
    (hreg : v.channel.mailbox.region = .posted r q capacity)
    (hat : (v.consumers 0).phase.atRest = true) (hf : r.Fits capacity)
    (hbig : debugInfoHeaderSize ≤ capacity)
    (ho : (d.outcome capacity r (v.consumers 0).dispatcher).1 ≠ none) :
    ∃ h u result, Run d (Action.Attends p) v h u ∧ (u.producers p).phase = .done result := by
  obtain ⟨v₁, hr₁, hp₁, hc₁, hw₁, hd₁⟩ := Run.wakes d hm hat
  obtain ⟨n, z, hn⟩ := Dispatcher.answers_of_outcome (q := q) hf hbig ho
  obtain ⟨v₂, hr₂, hp₂, hc₂, -⟩ := Run.serves (d := d) (n := n) (z := z) hw₁ (by rw [hc₁]; exact hl)
    (by rw [hc₁, hd₁, hreg]; exact hn)
  have hseq := (Dispatcher.header_of_answer hn).2.2
  obtain ⟨h, u, result, hr, hu⟩ := Run.fetches d (v := v₂) (r := r) (q := q)
    (by rw [hp₂, hp₁, hx]) (by rw [hc₂]) (by rw [hc₂]) (by rw [hc₂]; exact hseq)
  have hserve := (hr₁.trans hr₂).mono fun _ ha => Action.Consumes.attends (p := p) ha
  exact ⟨_, u, result, hserve.trans hr, hu⟩

/-- A call can be carried through unless the dispatcher panics. -/
theorem Run.concludes (hx : (v.producers p).phase = .sizing r) (hfree : v.channel.inFlight = .free)
    (hl : v.channel.mailbox.lock = .free) (hq : v.channel.Quiet (v.consumers 0) y)
    (hcap : v.channel.mailbox.capacity = capacity) (hbig : debugInfoHeaderSize ≤ capacity)
    (ho : (d.outcome capacity r y).1 ≠ none) :
    ∃ h u result, Run d (Action.Attends p) v h u ∧ (u.producers p).phase = .done result := by
  have hp : Action.Attends p (.produce p) := rfl
  subst hcap
  by_cases hfit : r.encodedLength ≤ v.channel.mailbox.capacity
  · obtain ⟨h, w, q, hr, hw, hy, hcap⟩ := Run.prepares d hx hfit hfree hl
    by_cases hlim : r.data.length < lengthLimit
    · obtain ⟨g, w₁, hr₁, hx₁, hy₁, hm₁, hl₁, hreg⟩ :=
        Run.posts d hw (by rw [hcap]; exact ⟨hfit, hlim⟩)
      have hcons : w₁.consumers 0 = v.consumers 0 := by rw [hy₁, hy]
      obtain ⟨k, u, result, hr₂, hu⟩ := Run.answers (d := d) hx₁ (by rw [hm₁]) hl₁
        (by rw [hreg, hcap]) (by rw [hcons]; exact hq.rest) ⟨hfit, hlim⟩ hbig
        (by rw [hcons, hq.dispatcher]; exact ho)
      exact ⟨_, u, result, (hr.trans hr₁).trans hr₂, hu⟩
    · have hpost := Region.post_of_not_fits (q := q) (m := w.channel.mailbox.region)
        (Request.not_fits.mpr (.inr (Nat.not_lt.mp hlim)))
      obtain ⟨w₁, hr₁, -, -, hx₁⟩ := Run.produce (d := d) hp hw (.rejected hpost)
      obtain ⟨w₂, hr₂, -, -, hx₂⟩ := Run.produce (d := d) hp hx₁ .returned
      exact ⟨_, w₂, _, (hr.trans hr₁).trans hr₂, hx₂⟩
  · obtain ⟨w, hr, -, -, hw⟩ := Run.produce (d := d) hp hx (.oversized (Nat.not_le.mp hfit))
    exact ⟨_, w, _, hr, hw⟩

theorem Machine.Resting.exchanges {c : Call} {x : Reply} (hs : s.Resting capacity y)
    (hbig : debugInfoHeaderSize ≤ capacity) (hc : c.settle d capacity y = some (x, z)) :
    ∃ t, Exchange d s c x t := by
  cases hreq : c.request with
  | error e =>
    simp only [Call.settle, hreq] at hc
    obtain ⟨rfl, rfl⟩ := Prod.mk.inj (Option.some.inj hc)
    exact ⟨s, .refused hreq⟩
  | ok r =>
    have ho : (d.outcome capacity r y).1 ≠ none := by
      intro hnone
      simp only [Call.settle, hreq] at hc
      cases hd : d.outcome capacity r y with
      | mk result w =>
        obtain rfl : result = none := by rw [hd] at hnone; exact hnone
        rw [hd] at hc
        cases hc
    have hcall : s.step d (.call 0 r none) = some (s.withProducer 0 ⟨none, .sizing r⟩) := by
      rcases hs.rest 0 with hp | ⟨w, hp⟩ <;> simp [Machine.step, hp]
    have hx : ((s.withProducer 0 ⟨none, .sizing r⟩).producers 0).phase = .sizing r := by simp
    obtain ⟨h, t, result, hr, ht⟩ :=
      Run.concludes hx hs.free hs.unlocked hs.quiet hs.sized hbig ho
    have he : Exchange d s c (c.reply result) t := .returned hreq hcall hr ht
    -- the run was not chosen for its reply, but every run has the decided one
    obtain ⟨w, hw, -⟩ := Exchange.settles hs hbig he
    rw [hc] at hw
    obtain ⟨rfl, -⟩ := Prod.mk.inj (Option.some.inj hw)
    exact ⟨t, he⟩

end FirmwareHost
