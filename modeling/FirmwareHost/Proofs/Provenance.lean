import FirmwareHost.Proofs.Pending

/-! Provenance. What a round trip brings back was read from a region that began as its own post and
that nothing but answers to that post has changed. -/

namespace FirmwareHost

variable {σ : Type} {d : Dispatcher σ} {s t u : Machine σ} {a : Action} {h es : List Event}
  {allowed : Action → Prop}

theorem ProducerPhase.Step.capacity {p : Nat} {ch ch' : Channel} {x y : ProducerPhase}
    (hs : Step p ch x es y ch') : ch'.mailbox.capacity = ch.mailbox.capacity := by
  cases hs with
  | posted h =>
    obtain ⟨-, hr, rfl⟩ := Region.posted_of_post h
    exact Region.length_posted hr
  | rejected h =>
    obtain ⟨-, rfl, -⟩ := Region.refused_of_post h
    exact Region.length_refused _ _
  | _ => rfl

theorem Consumer.Step.capacity {c : Nat} {ch ch' : Channel} {x y : Consumer σ}
    (hs : Step d c ch x es y ch') : ch'.mailbox.capacity = ch.mailbox.capacity := by
  cases hs with
  | served _ h => exact Dispatcher.length_of_answer h
  | _ => rfl

theorem Machine.Step.capacity (hs : s.Step d a es t) :
    t.channel.mailbox.capacity = s.channel.mailbox.capacity := by
  cases hs with
  | produced _ hs => exact hs.capacity
  | consumed hs => exact hs.capacity
  | _ => rfl

theorem Run.capacity (hr : Run d allowed s h t) :
    t.channel.mailbox.capacity = s.channel.mailbox.capacity :=
  hr.preserves (I := fun _ t => t.channel.mailbox.capacity = s.channel.mailbox.capacity) rfl
    fun hi _ hs => hs.capacity.trans hi

/-- The dispatcher can answer the region `m` with the region `n`. -/
def Dispatcher.Answers (d : Dispatcher σ) (m n : Region) : Prop :=
  ∃ y z, d.answer m y = (some n, z)

/-- What is in a history was written there by the code: a post is the layout of its request under
its number, an answer is the dispatcher's, and a producer collects under its own number. -/
def Event.Sound (d : Dispatcher σ) (capacity : Nat) : Event → Prop
  | .posted _ r q m => q ≠ 0 ∧ r.data.length < lengthLimit ∧ r.encodedLength ≤ capacity ∧
      m = .posted r q capacity
  | .served _ m n => d.Answers m n
  | .collected _ _ q m => m.header.answeredSequence = q
  | _ => True

theorem ProducerPhase.Step.sound {p : Nat} {ch ch' : Channel} {x y : ProducerPhase} {e : Event}
    (hs : Step p ch x [e] y ch') (hx : x.Numbered) : e.Sound d ch.mailbox.capacity := by
  cases hs with
  | posted h =>
    obtain ⟨hl, hr, rfl⟩ := Region.posted_of_post h
    exact ⟨hx, hl, hr, rfl⟩
  | collected h => exact h
  | _ => trivial

theorem Run.sound (hs : s.Fresh) (hr : Run d allowed s h t) {e : Event} (he : e ∈ h) :
    e.Sound d s.channel.mailbox.capacity := by
  obtain ⟨before, since, hh⟩ := List.append_of_mem he
  refine hr.forall_event (P := fun _ e => e.Sound d s.channel.mailbox.capacity) ?_ hh
  intro g t a e u hr _ hstep
  rw [← hr.capacity]
  cases hstep with
  | produced hx hp => exact hp.sound (hx ▸ (hr.pending hs).numbered _)
  | consumed hc =>
    cases hc with
    | served _ hn => exact ⟨_, _, hn⟩

theorem Leads.header {m n : Region} {l : List (Region × Region)} (hl : Leads m l n)
    (ha : ∀ x ∈ l, d.Answers x.1 x.2) :
    n.header.requestSequence = m.header.requestSequence ∧
      (l ≠ [] → n.header.answeredSequence = m.header.requestSequence) ∧
      ∀ x ∈ l, x.1.header.requestSequence = m.header.requestSequence := by
  induction l generalizing m with
  | nil =>
    obtain rfl : m = n := hl
    simp
  | cons x rest ih =>
    obtain ⟨a, b⟩ := x
    obtain ⟨rfl, hl⟩ := hl
    obtain ⟨y, z, hb⟩ := ha _ (List.mem_cons_self ..)
    obtain ⟨-, hq, hans⟩ := Dispatcher.header_of_answer hb
    obtain ⟨hn, hne, hrest⟩ := ih hl fun x hx => ha x (List.mem_cons_of_mem _ hx)
    rw [hq] at hn hne hrest
    refine ⟨hn, fun _ => ?_, by simpa using hrest⟩
    cases rest with
    | nil =>
      obtain rfl : b = n := hl
      exact hans
    | cons => exact hne nofun

theorem mem_answers {h : List Event} {x : Region × Region} (hx : x ∈ answers h) :
    ∃ c, .served c x.1 x.2 ∈ h := by
  obtain ⟨e, he, hex⟩ := List.mem_filterMap.mp hx
  cases e with
  | served c m n =>
    obtain rfl := Option.some.inj hex
    exact ⟨c, he⟩
  | _ => cases hex

theorem Run.requestSequence_of_open (hs : s.Fresh) (hr : Run d allowed s h t)
    {before since : List Event} {p : Nat} {r : Request} {q : UInt64} {m : Region}
    (hh : h = before ++ .posted p r q m :: since) (hopen : ∀ x, .returned p x ∉ since) :
    t.channel.mailbox.region.header.requestSequence = q := by
  obtain ⟨-, -, hl⟩ := (hr.pending hs).kept hh hopen
  have hm := hr.sound hs (e := .posted p r q m) (by simp [hh])
  have ha : ∀ x ∈ answers since, d.Answers x.1 x.2 := by
    intro x hx
    obtain ⟨c, hc⟩ := mem_answers hx
    exact hr.sound hs (e := .served c x.1 x.2) (by simp [hh, hc])
  rw [(hl.header ha).1, hm.2.2.2]
  rfl

theorem Run.requestSequence (hs : s.Fresh) (hr : Run d allowed s h t) {p : Nat} {r : Request}
    {q : UInt64} (hp : (t.producers p).phase.Carries r q) :
    t.channel.mailbox.region.header.requestSequence = q := by
  obtain ⟨before, m, since, hh, hopen⟩ := (hr.pending hs).begun hp
  exact hr.requestSequence_of_open hs hh hopen

/-- An outcome to be returned was collected, and nobody has begun a round trip since. -/
def Collected (h : List Event) (t : Machine σ) : Prop :=
  ∀ p x, (t.producers p).phase = .leaving (.ok x) → ∃ before r q m after,
    h = before ++ .collected p r q m :: after ∧ (∀ e ∈ after, e.Quiet) ∧
      m.collect r.function = .ok x

theorem Collected.append (hi : Collected h t) {p : Nat} {x : Exchanged}
    (hp : (t.producers p).phase = .leaving (.ok x)) (hes : ∀ e ∈ es, e.Quiet) :
    ∃ before r q m after, h ++ es = before ++ .collected p r q m :: after ∧
      (∀ e ∈ after, e.Quiet) ∧ m.collect r.function = .ok x := by
  obtain ⟨before, r, q, m, after, rfl, hq, hm⟩ := hi p x hp
  refine ⟨before, r, q, m, after ++ es, by simp, fun e he => ?_, hm⟩
  exact (List.mem_append.mp he).elim (hq e) (hes e)

theorem ProducerPhase.Step.collects {p : Nat} {ch ch' : Channel} {x : ProducerPhase}
    {v : Exchanged} (hs : Step p ch x es (.leaving (.ok v)) ch') :
    ∃ r q m, es = [.collected p r q m] ∧ m.collect r.function = .ok v := by
  generalize hy : ProducerPhase.leaving (.ok v) = y at hs
  cases hs with
  | collected => exact ⟨_, _, _, rfl, (ProducerPhase.leaving.inj hy).symm⟩
  | _ => cases hy

theorem Collected.step (hi : Collected h t) (hex : t.Exclusive) (hs : t.Step d a es u) :
    Collected (h ++ es) u := by
  intro p x hp
  cases hs with
  | @produced e y _ _ _ hy hs =>
    by_cases he : p = e
    · subst he
      obtain rfl : _ = ProducerPhase.leaving (.ok x) := by simpa using hp
      obtain ⟨r, q, m, rfl, hm⟩ := hs.collects
      exact ⟨h, r, q, m, [], rfl, by simp, hm⟩
    · rw [Machine.withProducer_ne _ _ he] at hp
      obtain ⟨rfl, -⟩ := hex.still_of_inFlight (p := e) (by rw [hp]; rfl) he (hy ▸ hs)
      exact hi.append hp (by simp)
  | @called e | @expired e =>
    by_cases hpe : p = e
    · subst hpe
      simp at hp
    · rw [Machine.withProducer_ne _ _ hpe] at hp
      exact hi.append hp (by simp)
  | consumed hs => exact hi.append hp (by cases hs <;> simp [Event.Quiet])
  | turned | shutdown | strayMessage | strayResponse => exact hi.append hp (by simp)

theorem Run.collected (hs : s.Fresh) (hr : Run d allowed s h t) : Collected h t := by
  have hi := hr.preserves (I := fun h t => Pending h t ∧ Collected h t) ?_ ?_
  · exact hi.2
  · exact ⟨hs.pending, fun p x hp => by simp [hs.idle p] at hp⟩
  · exact fun ⟨hp, hc⟩ _ hstep => ⟨hp.step hstep, hc.step hp.exclusive hstep⟩

theorem Run.collected_from_post (hs : s.Fresh) (hr : Run d allowed s h t)
    {before since : List Event} {p : Nat} {r : Request} {q : UInt64} {m : Region}
    (hh : h = before ++ .collected p r q m :: since) :
    ∃ earlier n between, before = earlier ++ .posted p r q n :: between ∧
      (∀ e ∈ between, e.Quiet) ∧ Leads n (answers between) m := by
  refine hr.forall_event (P := fun h e => ∀ {p r q m}, e = .collected p r q m →
    ∃ earlier n between, h = earlier ++ .posted p r q n :: between ∧
      (∀ e ∈ between, e.Quiet) ∧ Leads n (answers between) m) ?_ hh rfl
  rintro g t a _ u hr - hstep p r q m rfl
  have hi := hr.pending hs
  cases hstep with
  | produced hx hp =>
    cases hp with
    | collected =>
      have hc : (t.producers p).phase.Carries r q := by rw [hx]; exact ⟨rfl, rfl⟩
      obtain ⟨earlier, n, between, hg, hopen⟩ := hi.begun hc
      obtain ⟨-, hq, hl⟩ := hi.kept hg hopen
      exact ⟨earlier, n, between, hg, hq, hl⟩
  | consumed hc => cases hc

theorem Run.returned_from_collected (hs : s.Fresh) (hr : Run d allowed s h t)
    {past future : List Event} {p : Nat} {x : Exchanged}
    (hh : h = past ++ .returned p (.ok x) :: future) : ∃ before r q m after,
      past = before ++ .collected p r q m :: after ∧ (∀ e ∈ after, e.Quiet) ∧
        m.collect r.function = .ok x := by
  refine hr.forall_event (P := fun h e => ∀ {p x}, e = .returned p (.ok x) →
    ∃ before r q m after, h = before ++ .collected p r q m :: after ∧ (∀ e ∈ after, e.Quiet) ∧
      m.collect r.function = .ok x) ?_ hh rfl
  rintro g t a _ u hr - hstep p x rfl
  have hi := hr.collected hs
  cases hstep with
  | produced hx hp =>
    cases hp with
    | returned => exact hi p x hx
  | consumed hc => cases hc

/-- What is collected is the status and the response that the region shows. -/
theorem Region.shown_of_collect {f : FunctionCode} {m : Region} {x : Exchanged}
    (h : m.collect f = .ok x) : x.1 = m.status ∧ (Response.decode f m = .ok x.2 ∨
      m.status.isError = true ∧ x.2 = .empty ∧ ∃ e, Response.decode f m = .error e) := by
  unfold collect at h
  split at h
  · next w hw =>
    cases h
    exact ⟨rfl, .inl hw⟩
  · next e he =>
    split at h
    · next hs =>
      cases h
      exact ⟨rfl, .inr ⟨hs, rfl, e, he⟩⟩
    · cases h

/-- A round trip that returns with an answer reads its status and its response, or none beside an
error, from a region that carries the request's own number twice, as its number and as the number
answered. The region was posted by that round trip
and changed since by answers alone, at least one, each given while the mailbox carried this number;
nobody else posted, began or ended a round trip meanwhile. -/
theorem Run.returned_own_answer (hs : s.Fresh) (hr : Run d (fun _ => True) s h t)
    {past future : List Event} {p : Nat} {x : Exchanged}
    (hh : h = past ++ .returned p (.ok x) :: future) :
    ∃ before r q between m after,
      past = before ++ .posted p r q (.posted r q s.channel.mailbox.capacity) ::
        (between ++ .collected p r q m :: after) ∧
      (∀ e ∈ between ++ after, e.Quiet) ∧
      q ≠ 0 ∧ m.header.requestSequence = q ∧ m.header.answeredSequence = q ∧
      m.collect r.function = .ok x ∧
      x.1 = m.status ∧ (Response.decode r.function m = .ok x.2 ∨
        m.status.isError = true ∧ x.2 = .empty ∧ ∃ e, Response.decode r.function m = .error e) ∧
      answers between ≠ [] ∧
      Leads (.posted r q s.channel.mailbox.capacity) (answers between) m ∧
      ∀ y ∈ answers between, y.1.header.requestSequence = q ∧ d.Answers y.1 y.2 := by
  obtain ⟨front, r, q, m, after, rfl, hafter, hx⟩ := hr.returned_from_collected hs hh
  obtain ⟨before, n, between, rfl, hbetween, hl⟩ :=
    hr.collected_from_post hs (hh.trans (List.append_assoc ..))
  have hpost := hr.sound hs (e := .posted p r q n) (by simp [hh])
  have hcollect := hr.sound hs (e := .collected p r q m) (by simp [hh])
  obtain ⟨hq, -, -, rfl⟩ := hpost
  obtain rfl : m.header.answeredSequence = q := hcollect
  have ha : ∀ y ∈ answers between, d.Answers y.1 y.2 := by
    intro y hy
    obtain ⟨c, hc⟩ := mem_answers hy
    exact hr.sound hs (e := .served c y.1 y.2) (by simp [hh, hc])
  obtain ⟨hm, -, hnum⟩ := hl.header ha
  obtain ⟨hstatus, hresponse⟩ := Region.shown_of_collect hx
  refine ⟨before, r, _, between, m, after, by simp, fun e he => ?_, hq, hm, rfl, hx, hstatus,
    hresponse, ?_, hl, fun y hy => ⟨hnum y hy, ha y hy⟩⟩
  · exact (List.mem_append.mp he).elim (hbetween e) (hafter e)
  · -- A post marks nothing as answered.
    intro he
    rw [he] at hl
    exact hq (congrArg (·.header.answeredSequence) hl).symm

theorem Run.returned_own_answer_sample : ∃ before r q between m after,
    Event.sample.dropLast = before ++ .posted 0 r q (.posted r q 32) ::
      (between ++ .collected 0 r q m :: after) ∧
    (∀ e ∈ between ++ after, e.Quiet) ∧
    q ≠ 0 ∧ m.header.requestSequence = q ∧ m.header.answeredSequence = q ∧
    m.collect r.function = .ok (.success, .empty) ∧
    m.status = .success ∧ Response.decode r.function m = .ok .empty ∧
    answers between ≠ [] ∧ Leads (.posted r q 32) (answers between) m ∧
    ∀ y ∈ answers between, y.1.header.requestSequence = q ∧
      (Dispatcher.adding 0).Answers y.1 y.2 := by
  obtain ⟨t, hr⟩ : ∃ t, Run (.adding 0) (fun _ => True) (.initial .smallest ()) Event.sample t :=
    Run.sample fun _ _ => trivial
  have hh : Event.sample = Event.sample.dropLast ++ [.returned 0 (.ok (.success, .empty))] := rfl
  obtain ⟨before, r, q, between, m, after, hpast, hquiet, hq, hm, ha, hc, hstatus, hw, hrest⟩ :=
    Run.returned_own_answer (Machine.fresh_smallest ()) hr hh
  have hok : ¬ m.status.isError = true := by
    rw [← hstatus]
    decide
  exact ⟨before, r, q, between, m, after, hpast, hquiet, hq, hm, ha, hc, hstatus.symm,
    hw.resolve_right fun he => hok he.1, hrest⟩

end FirmwareHost
