import FirmwareHost.Proofs.Answering
import FirmwareHost.Proofs.Exclusion

/-! Pending requests. From its post until its producer returns, a request has the mailbox to
itself: nobody else posts, and the answers lead from the posted region to the present one. -/

namespace FirmwareHost

/-- Neither a post nor the beginning or end of a round trip. -/
def Event.Quiet : Event → Prop
  | .admitted .. | .posted .. | .returned .. => False
  | _ => True

/-- The answers in a history: the region that each finds and the region that it leaves. -/
def answers (h : List Event) : List (Region × Region) :=
  h.filterMap fun
    | .served _ m n => some (m, n)
    | _ => none

/-- Answers that lead from one region to another, each beginning where the last one ended. -/
def Leads (m : Region) : List (Region × Region) → Region → Prop
  | [], n => m = n
  | (a, b) :: rest, n => a = m ∧ Leads b rest n

namespace ProducerPhase

def Carries (r : Request) (q : UInt64) : ProducerPhase → Prop
  | .releasing r' q' | .signalling r' q' | .waiting r' q' | .woken r' q' | .reading r' q' =>
    r' = r ∧ q' = q
  | _ => False

/-- The phases of a producer between its post and its return. -/
def HasPosted (r : Request) (q : UInt64) (x : ProducerPhase) : Prop :=
  x.Carries r q ∨ ∃ result, x = .leaving result

/-- No request is numbered 0, which is what an unanswered mailbox holds. -/
def Numbered : ProducerPhase → Prop
  | .acquiring _ q | .discarding _ q | .writing _ q => q ≠ 0
  | _ => True

theorem HasPosted.holdsInFlight {r : Request} {q : UInt64} {x : ProducerPhase}
    (h : x.HasPosted r q) : x.holdsInFlight = true := by
  rcases h with h | ⟨result, rfl⟩
  · cases x with
    | releasing | signalling | waiting | woken | reading => rfl
    | _ => exact absurd h id
  · rfl

end ProducerPhase

@[simp] theorem answers_append (h g : List Event) : answers (h ++ g) = answers h ++ answers g :=
  List.filterMap_append

theorem Leads.append {m n k : Region} {l : List (Region × Region)} (h : Leads m l n) :
    Leads m (l ++ [(n, k)]) k := by
  induction l generalizing m with
  | nil => exact ⟨h.symm, rfl⟩
  | cons x rest ih => exact ⟨h.1, ih h.2⟩

variable {σ : Type} {d : Dispatcher σ} {s t u : Machine σ} {a : Action} {h es : List Event}

/-- What ties the history to the machine while requests are pending. -/
structure Pending (h : List Event) (t : Machine σ) : Prop where
  exclusive : t.Exclusive
  numbered : ∀ p, (t.producers p).phase.Numbered
  begun : ∀ {p r q}, (t.producers p).phase.Carries r q →
    ∃ before m since, h = before ++ .posted p r q m :: since ∧ ∀ x, .returned p x ∉ since
  kept : ∀ {before p r q m since}, h = before ++ .posted p r q m :: since →
    (∀ x, .returned p x ∉ since) → (t.producers p).phase.HasPosted r q ∧
      (∀ e ∈ since, e.Quiet) ∧ Leads m (answers since) t.channel.mailbox.region

theorem max_one_ne_zero (n : UInt64) : max n 1 ≠ 0 := by
  rw [show max n 1 = if n ≤ 1 then 1 else n from rfl]
  split
  · decide
  · next hn =>
    rintro rfl
    exact hn (by decide)

theorem Pending.keep (hi : Pending h t) (hes : es = [] ∨ ∃ x, es = [x])
    (hkeep : ∀ {p r q}, (t.producers p).phase.HasPosted r q → (∀ x, .returned p x ∉ es) →
      (u.producers p).phase.HasPosted r q ∧ (∀ e ∈ es, e.Quiet) ∧
        ∀ {m l}, Leads m l t.channel.mailbox.region →
          Leads m (l ++ answers es) u.channel.mailbox.region)
    (hpost : ∀ {p r q m}, es = [.posted p r q m] →
      (u.producers p).phase = .releasing r q ∧ u.channel.mailbox.region = m)
    {before since : List Event} {p : Nat} {r : Request} {q : UInt64} {m : Region}
    (hh : h ++ es = before ++ .posted p r q m :: since) (hopen : ∀ x, .returned p x ∉ since) :
    (u.producers p).phase.HasPosted r q ∧ (∀ e ∈ since, e.Quiet) ∧
      Leads m (answers since) u.channel.mailbox.region := by
  rcases split_append hes hh with ⟨rest, hrest, rfl⟩ | ⟨rfl, rfl, rfl⟩
  · simp only [List.mem_append, not_or] at hopen
    obtain ⟨hp, hq, hl⟩ := hi.kept hrest fun x => (hopen x).1
    obtain ⟨hp', hq', hl'⟩ := hkeep hp fun x => (hopen x).2
    refine ⟨hp', ?_, by simpa using hl' hl⟩
    intro e he
    rcases List.mem_append.mp he with he | he
    · exact hq e he
    · exact hq' e he
  · obtain ⟨hp, hm⟩ := hpost rfl
    exact ⟨.inl (by rw [hp]; exact ⟨rfl, rfl⟩), by simp, hm.symm⟩

theorem Pending.begun_append (hi : Pending h t) {p : Nat} {r : Request} {q : UInt64}
    (hp : (t.producers p).phase.Carries r q) (hes : ∀ x, .returned p x ∉ es) :
    ∃ before m since, h ++ es = before ++ .posted p r q m :: since ∧
      ∀ x, .returned p x ∉ since := by
  obtain ⟨before, m, since, rfl, hopen⟩ := hi.begun hp
  refine ⟨before, m, since ++ es, by simp, fun x hx => ?_⟩
  exact (List.mem_append.mp hx).elim (hopen x) (hes x)

namespace ProducerPhase

theorem Step.hasPosted {p : Nat} {ch ch' : Channel} {x y : ProducerPhase} {r : Request}
    {q : UInt64} (hs : Step p ch x es y ch') (hx : x.HasPosted r q)
    (hes : ∀ v, .returned p v ∉ es) :
    y.HasPosted r q ∧ (∀ e ∈ es, e.Quiet) ∧ answers es = [] ∧
      ch'.mailbox.region = ch.mailbox.region := by
  cases hs with
  | released | signalled | woke | relocked | skipped =>
    rcases hx with hc | ⟨v, hv⟩
    · exact ⟨.inl hc, by simp [Event.Quiet], rfl, rfl⟩
    · cases hv
  | reshutOut | collected => exact ⟨.inr ⟨_, rfl⟩, by simp [Event.Quiet], rfl, rfl⟩
  | returned => exact absurd (List.mem_singleton_self _) (hes _)
  | _ => simp [HasPosted, Carries] at hx

theorem Step.carries {p : Nat} {ch ch' : Channel} {x y : ProducerPhase} {r : Request}
    {q : UInt64} (hs : Step p ch x es y ch') (hy : y.Carries r q) :
    (∃ m, es = [.posted p r q m]) ∨ (x.Carries r q ∧ ∀ v, .returned p v ∉ es) := by
  cases hs with
  | posted =>
    obtain ⟨rfl, rfl⟩ := hy
    exact .inl ⟨_, rfl⟩
  | released | signalled | woke | relocked | skipped => exact .inr ⟨hy, by simp⟩
  | _ => exact absurd hy id

theorem Step.keeps_numbered {p : Nat} {ch ch' : Channel} {x y : ProducerPhase}
    (hs : Step p ch x es y ch') (hx : x.Numbered) : y.Numbered := by
  cases hs with
  | numbered => exact max_one_ne_zero _
  | locked | discarded => exact hx
  | _ => trivial

theorem Step.posts {p e : Nat} {ch ch' : Channel} {x y : ProducerPhase} {r : Request}
    {q : UInt64} {m : Region} (hs : Step p ch x es y ch') (he : es = [.posted e r q m]) :
    e = p ∧ y = .releasing r q ∧ ch'.mailbox.region = m := by
  cases hs <;> cases he
  exact ⟨rfl, rfl, rfl⟩

end ProducerPhase

theorem Pending.produced (hi : Pending h t) {p : Nat} {x y : ProducerPhase} {ch : Channel}
    (hx : (t.producers p).phase = x) (hs : ProducerPhase.Step p t.channel x es y ch) :
    Pending (h ++ es) { t.withProducer p ⟨(t.producers p).limit, y⟩ with channel := ch } where
  exclusive := hi.exclusive.produced hx hs
  numbered := Machine.forall_withProducer (P := fun _ x => x.phase.Numbered)
    (hs.keeps_numbered (hx ▸ hi.numbered _)) fun e _ => hi.numbered e
  begun := by
    intro e r q hc
    by_cases he : e = p
    · subst he
      rw [Machine.withProducer_self] at hc
      rcases hs.carries hc with ⟨m, rfl⟩ | ⟨hold, hes⟩
      · exact ⟨h, m, [], rfl, by simp⟩
      · exact hi.begun_append (hx ▸ hold) hes
    · rw [Machine.withProducer_ne _ _ he] at hc
      obtain ⟨rfl, -⟩ := hi.exclusive.still_of_inFlight
        (ProducerPhase.HasPosted.holdsInFlight (.inl hc)) he (hx ▸ hs)
      exact hi.begun_append hc (by simp)
  kept := by
    refine hi.keep hs.events_le_one ?_ ?_
    · intro e r q hp hes
      by_cases he : e = p
      · subst he
        obtain ⟨hy, hq, ha, hm⟩ := hs.hasPosted (hx ▸ hp) hes
        rw [Machine.withProducer_self]
        exact ⟨hy, hq, fun hl => by simpa [ha, hm] using hl⟩
      · obtain ⟨rfl, rfl⟩ := hi.exclusive.still_of_inFlight hp.holdsInFlight he (hx ▸ hs)
        rw [Machine.withProducer_ne _ _ he]
        exact ⟨hp, by simp, fun hl => by simpa [answers] using hl⟩
    · intro e r q m he
      obtain ⟨rfl, hy, hm⟩ := hs.posts he
      rw [Machine.withProducer_self]
      exact ⟨hy, hm⟩

theorem Pending.consumed (hi : Pending h t) {c : Nat} {y : Consumer σ} {ch : Channel}
    (hs : Consumer.Step d c t.channel (t.consumers c) es y ch) :
    Pending (h ++ es) { t.withConsumer c y with channel := ch } where
  exclusive := hi.exclusive.consumed hs
  numbered := hi.numbered
  begun hc := hi.begun_append hc fun v => by cases hs <;> simp
  kept := by
    refine hi.keep hs.events_le_one ?_ ?_
    · intro p r q hp _
      refine ⟨hp, by cases hs <;> simp [Event.Quiet], fun hl => ?_⟩
      cases hs with
      | served => exact hl.append
      | _ => simpa [answers] using hl
    · intro p r q m he
      cases hs <;> cases he

/-- A step that leaves the history and the region alone, and takes no producer into a round
trip's later part or out of it. -/
theorem Pending.still (hi : Pending h t) (hex : u.Exclusive)
    (hm : u.channel.mailbox.region = t.channel.mailbox.region)
    (hp : ∀ p, (u.producers p).phase.Numbered ∧ ∀ r q,
      ((u.producers p).phase.Carries r q → (t.producers p).phase.Carries r q) ∧
      ((t.producers p).phase.HasPosted r q → (u.producers p).phase.HasPosted r q)) :
    Pending (h ++ []) u where
  exclusive := hex
  numbered p := (hp p).1
  begun hc := hi.begun_append (((hp _).2 _ _).1 hc) (by simp)
  kept := by
    refine hi.keep (.inl rfl) ?_ ?_
    · intro p r q hq _
      exact ⟨((hp p).2 r q).2 hq, by simp, fun hl => by simpa [answers, hm] using hl⟩
    · intro p r q m he
      cases he

theorem Pending.step (hi : Pending h t) (hs : t.Step d a es u) : Pending (h ++ es) u := by
  have hex := hi.exclusive.step hs
  cases hs with
  | produced hx hs => exact hi.produced hx hs
  | consumed hs => exact hi.consumed hs
  | @called p r limit hx =>
    refine hi.still hex rfl fun e => ?_
    by_cases he : e = p
    · subst he
      rw [Machine.withProducer_self]
      refine ⟨trivial, fun r q => ⟨False.elim, fun hq => ?_⟩⟩
      simp [hq.holdsInFlight] at hx
    · rw [Machine.withProducer_ne _ _ he]
      exact ⟨hi.numbered e, fun r q => ⟨id, id⟩⟩
  | @expired p r q limit hx =>
    refine hi.still hex rfl fun e => ?_
    by_cases he : e = p
    · subst he
      rw [Machine.withProducer_self]
      exact ⟨trivial, fun r q => ⟨False.elim, fun _ => .inr ⟨_, rfl⟩⟩⟩
    · rw [Machine.withProducer_ne _ _ he]
      exact ⟨hi.numbered e, fun r q => ⟨id, id⟩⟩
  | turned | shutdown | strayMessage | strayResponse =>
    exact hi.still hex rfl fun e => ⟨hi.numbered e, fun r q => ⟨id, id⟩⟩

theorem Machine.Fresh.pending (hs : s.Fresh) : Pending [] s where
  exclusive := hs.exclusive
  numbered p := by simp [hs.idle p, ProducerPhase.Numbered]
  begun {p r q} hc := by simp [hs.idle p, ProducerPhase.Carries] at hc
  kept hh := by simp at hh

theorem Run.pending {allowed : Action → Prop} (hs : s.Fresh) (hr : Run d allowed s h t) :
    Pending h t :=
  hr.preserves hs.pending fun hi _ hstep => hi.step hstep

end FirmwareHost
