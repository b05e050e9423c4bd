import FirmwareHost.Proofs.Posting
import FirmwareHost.Proofs.Step
import Mathlib.Data.List.Induction

/-! Runs: any number of actions, each taken where it can be taken, with the history they leave. -/

namespace FirmwareHost

variable {σ : Type}

/-- Runs from `s` by allowed actions. The history is in order, oldest event first. -/
inductive Run (d : Dispatcher σ) (allowed : Action → Prop) (s : Machine σ) :
    List Event → Machine σ → Prop
  | start : Run d allowed s [] s
  | next {h t a u} (hr : Run d allowed s h t) (ha : allowed a) (hs : t.step d a = some u) :
      Run d allowed s (h ++ t.events d a) u

/-- A new channel, every producer idle and every consumer between requests. -/
structure Machine.Fresh (s : Machine σ) : Prop where
  channel : ∃ size, Channel.ofSize size = .ok s.channel
  idle : ∀ p, (s.producers p).phase = .idle
  checking : ∀ c, (s.consumers c).phase = .checking

theorem Machine.Fresh.channel_eq {s : Machine σ} (h : s.Fresh) : ∃ capacity,
    Mailbox.minSize ≤ capacity + Header.size ∧
      s.channel = ⟨⟨.zero capacity, .free, 0⟩, .initial, .initial, .free, 0⟩ := by
  obtain ⟨size, hsize⟩ := h.channel
  simp only [Channel.ofSize, Mailbox.ofSize] at hsize
  split at hsize
  · cases hsize
  · next hs =>
    refine ⟨size - Header.size, ?_, (Except.ok.inj hsize).symm⟩
    simp only [Mailbox.minSize, Header.size] at hs ⊢
    omega

theorem Machine.Fresh.spacious {s : Machine σ} (hs : s.Fresh) :
    debugInfoHeaderSize ≤ s.channel.mailbox.capacity := by
  obtain ⟨capacity, hc, hch⟩ := hs.channel_eq
  simp only [Mailbox.minSize, Header.size, debugInfoHeaderSize, hch, Mailbox.capacity, Region.zero,
    List.length_replicate] at hc ⊢
  omega

theorem Machine.Fresh.initial {size : Nat} {ch : Channel} (h : Channel.ofSize size = .ok ch)
    (y : σ) : (Machine.initial ch y).Fresh :=
  ⟨⟨size, h⟩, fun _ => rfl, fun _ => rfl⟩

namespace Action

/-- One consumer serves the channel, and nobody but it and the producers uses it. -/
def Solo : Action → Prop
  | .consume c | .idle c | .restart c | .serve c => c = 0
  | .strayMessage | .strayResponse => False
  | _ => True

theorem Solo.turned {a : Action} {c : Nat} (ha : a.Solo)
    (hc : a = .idle c ∨ a = .restart c ∨ a = .serve c) : c = 0 := by
  rcases hc with rfl | rfl | rfl <;> exact ha

/-- No wait for an answer is bounded. -/
def Patient : Action → Prop
  | .call _ _ limit => limit = none
  | _ => True

def roundTrip (p : Nat) (r : Request) (limit : Option Nat) : List Action :=
  .call p r limit :: (List.replicate 8 (.produce p) ++ List.replicate 6 (.consume 0) ++
    List.replicate 4 (.produce p))

end Action

/-- The history and the machine after a list of actions, if each can be taken in its turn. -/
def Machine.play (d : Dispatcher σ) (s : Machine σ) : List Action → Option (List Event × Machine σ)
  | [] => some ([], s)
  | a :: rest =>
    match s.step d a with
    | none => none
    | some t => (t.play d rest).map fun (h, u) => (s.events d a ++ h, u)

namespace Run

variable {d : Dispatcher σ} {allowed : Action → Prop} {s t u : Machine σ} {h g : List Event}

theorem trans (hr : Run d allowed s h t) (hg : Run d allowed t g u) :
    Run d allowed s (h ++ g) u := by
  induction hg with
  | start => simpa using hr
  | next hg ha hs ih => rw [← List.append_assoc]; exact .next ih ha hs

theorem mono {allowed' : Action → Prop} (ha : ∀ a, allowed a → allowed' a)
    (hr : Run d allowed s h t) : Run d allowed' s h t := by
  induction hr with
  | start => exact .start
  | next _ hx hs ih => exact .next ih (ha _ hx) hs

theorem produce_limited {p : Nat} {limit : Option Nat} {x y : ProducerPhase} {ch : Channel}
    {es : List Event} (ha : allowed (.produce p)) (hx : t.producers p = ⟨limit, x⟩)
    (hs : ProducerPhase.Step p t.channel x es y ch) :
    ∃ u, Run d allowed t es u ∧ u.consumers = t.consumers ∧ u.channel = ch ∧
      u.producers p = ⟨limit, y⟩ := by
  obtain ⟨hstep, rfl⟩ := Machine.step_produce (d := d) (congrArg Producer.phase hx) hs
  exact ⟨_, Run.start.next ha hstep, rfl, rfl, by simp [hx]⟩

theorem produce {p : Nat} {x y : ProducerPhase} {ch : Channel} {es : List Event}
    (ha : allowed (.produce p)) (hx : (t.producers p).phase = x)
    (hs : ProducerPhase.Step p t.channel x es y ch) :
    ∃ u, Run d allowed t es u ∧ u.consumers = t.consumers ∧ u.channel = ch ∧
      (u.producers p).phase = y := by
  have hp : t.producers p = ⟨(t.producers p).limit, x⟩ := by rw [← hx]
  obtain ⟨u, hr, hy, hc, hp⟩ := produce_limited (d := d) ha hp hs
  exact ⟨u, hr, hy, hc, by rw [hp]⟩

theorem of_play {l : List Action} (hl : ∀ a ∈ l, allowed a) (hp : s.play d l = some (h, t)) :
    Run d allowed s h t := by
  induction l generalizing s h with
  | nil =>
    cases hp
    exact .start
  | cons a rest ih =>
    simp only [Machine.play] at hp
    split at hp
    · cases hp
    · next v hv =>
      obtain ⟨⟨g, w⟩, hg, he⟩ := Option.map_eq_some_iff.mp hp
      cases he
      have hfirst : Run d allowed s ([] ++ s.events d a) v := .next .start (hl a (by simp)) hv
      exact hfirst.trans (ih (fun b hb => hl b (List.mem_cons_of_mem _ hb)) hg)

theorem exists_of_play {l : List Action} (hl : ∀ a ∈ l, allowed a)
    (hp : (s.play d l).map Prod.fst = some h) : ∃ t, Run d allowed s h t := by
  obtain ⟨⟨g, t⟩, hg, rfl⟩ := Option.map_eq_some_iff.mp hp
  exact ⟨t, .of_play hl hg⟩

theorem preserves {I : List Event → Machine σ → Prop} (hstart : I [] s)
    (hstep : ∀ {h t a es u}, I h t → allowed a → t.Step d a es u → I (h ++ es) u)
    (hr : Run d allowed s h t) : I h t := by
  induction hr with
  | start => exact hstart
  | next _ ha hs ih => exact hstep ih ha (Machine.step_inv hs)

end Run

theorem split_append {h es before since : List Event} {e : Event}
    (hes : es = [] ∨ ∃ x, es = [x]) (hh : h ++ es = before ++ e :: since) :
    (∃ rest, h = before ++ e :: rest ∧ since = rest ++ es) ∨
      (es = [e] ∧ h = before ∧ since = []) := by
  rcases hes with rfl | ⟨x, rfl⟩
  · exact .inl ⟨since, by simpa using hh, by simp⟩
  · cases since using List.reverseRecOn with
    | nil =>
      obtain ⟨hb, he⟩ := List.append_inj' hh rfl
      exact .inr ⟨he, hb, rfl⟩
    | append_singleton rest y =>
      rw [← List.cons_append, ← List.append_assoc] at hh
      obtain ⟨hb, he⟩ := List.append_inj' hh rfl
      exact .inl ⟨rest, hb, by rw [he]⟩

/-- What every event finds behind it when it is added to the history, it finds there for good. -/
theorem Run.forall_event {d : Dispatcher σ} {allowed : Action → Prop} {s t : Machine σ}
    {h before since : List Event} {e : Event} {P : List Event → Event → Prop}
    (hP : ∀ {h t a e u}, Run d allowed s h t → allowed a → t.Step d a [e] u → P h e)
    (hr : Run d allowed s h t) (hh : h = before ++ e :: since) : P before e := by
  induction hr generalizing since with
  | start => simp at hh
  | next hr ha hs ih =>
    have hs := Machine.step_inv hs
    rcases split_append hs.events_le_one hh with ⟨rest, hrest, -⟩ | ⟨hes, rfl, -⟩
    · exact ih hrest
    · exact hP hr ha (hes ▸ hs)

/-- Answers every request with success and adds a number to each parameter. -/
def Dispatcher.adding (n : UInt8) : Dispatcher Unit where
  installPackage _ y := (.returned (.ok ()), y)
  enumerateHandlers y := (.returned (.ok ()), y)
  invokeHandler _ parameters y :=
    (.returned (.ok (.success, ⟨parameters.map (· + n), List.length_map ..⟩)), y)
  uninstallModule _ y := (.returned (.ok ()), y)
  debugInfo _ y := (.returned (.ok ⟨[], ""⟩), y)

def Channel.smallest : Channel := ⟨⟨.zero 32, .free, 0⟩, .initial, .initial, .free, 0⟩

theorem Machine.fresh_smallest (y : σ) : (Machine.initial .smallest y).Fresh :=
  .initial (show Channel.ofSize Mailbox.minSize = .ok .smallest from rfl) y

/-- The history of a lone round trip. -/
def Event.sample : List Event :=
  let r := .enumerateHandlers
  let m := .posted r 1 32
  let n := m.markAnswered
  [.admitted 0 r, .posted 0 r 1 m, .signalled 0 r 1, .served 0 m n, .woke 0, .collected 0 r 1 n,
    .returned 0 (.ok (.success, .empty))]

theorem Run.sample {allowed : Action → Prop}
    (hl : ∀ a ∈ Action.roundTrip 0 .enumerateHandlers none, allowed a) :
    ∃ t, Run (.adding 0) allowed (.initial .smallest ()) Event.sample t :=
  exists_of_play hl rfl

end FirmwareHost
