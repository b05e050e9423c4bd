import FirmwareHost.Proofs.FaultDispatch
import FirmwareHost.Proofs.HostOperations
import FirmwareHost.Scenario.Handler

/-! Scripted handlers run as handlers do. What a script plays inside a call is a run of its bridge,
and a dispatch under a script is a dispatch that returns. -/

namespace FirmwareHost

open Bridge

section

variable {η : Type} {b c d : Bridge η} {f : Snapshot → Snapshot} {es gs : List (BridgeEvent η)}
  {signum code : Int} {address : UInt64} {frame : Frame} {answer : Bool × Frame}

theorem Bridge.Runs.returns (hr : b.Runs f es c)
    (hret : c.Returns signum code address frame answer gs d) : b.Runs f (es ++ gs) d := by
  cases hret with
  | ignored hd => exact hr.ignored hd
  | served hd hn hf => exact hr.nested hd hn hf

variable {p : Process η} {id : Nat} {m : Mounted η}

theorem Process.getElem?_commitTurn {α : Type} (hm : p.bridges[id]? = some m) (t : Turn η α) :
    (p.commitTurn id m t).bridges[id]? = some { m with bridge := t.bridge } := by
  unfold commitTurn
  split
  · rw [bridges_foldl_applyEvent, getElem?_setMounted hm]
  · exact getElem?_setMounted hm _

theorem Process.finish_of_mounted (os : Installer) (hm : p.bridges[id]? = some m)
    {t : Turn η (Bool × Frame)} (hf : m.bridge.finish = some t) :
    let n := { m with bridge := t.bridge, borrowed := m.borrowed - 1 }
    ∃ closing q, p.finish os id = some (t.answer, t.events ++ closing, q) ∧
      (n.borrowed ≠ 0 ∨ n.owned → closing = [] ∧ q.bridges[id]? = some n) := by
  intro n
  have heq : p.finish os id = if n.borrowed = 0 ∧ ¬n.owned then
      some (t.answer, t.events ++ ((p.setMounted id n).close os id).1,
        ((p.setMounted id n).close os id).2)
      else some (t.answer, t.events, p.setMounted id n) := by
    simp only [finish, hm, hf, n]
  rw [heq]
  split
  · next hlast =>
    refine ⟨_, _, rfl, ?_⟩
    rintro (h | h)
    · exact absurd hlast.1 h
    · exact absurd h hlast.2
  · exact ⟨[], p.setMounted id n, by rw [List.append_nil],
      fun _ => ⟨rfl, getElem?_setMounted hm n⟩⟩

end

namespace Scenario.Stage

variable {ι : Type} {s u : Stage ι} {id k depth : Nat} {b : Bridge (Handler ι)}
  {m : Mounted (Handler ι)} {dispatch : Dispatch ι}

def reported (s : Stage ι) : List (BridgeEvent (Handler ι)) :=
  s.notes.filterMap fun
    | .event e => some e
    | .act .. => none

@[simp] theorem reported_advance (s : Stage ι) (es : List (BridgeEvent (Handler ι)))
    (p : Process (Handler ι)) : (s.advance es p).reported = s.reported ++ es := by
  simp [reported, advance, List.filterMap_map]

/-- From `s` to `u` a handler runs on the bridge `b`, while `k` calls of the owner are under way. -/
structure Plays (id k : Nat) (b : Bridge (Handler ι)) (s u : Stage ι) (m : Mounted (Handler ι)) :
    Prop where
  runs : ∃ f es, b.Runs f es m.bridge ∧ u.reported = s.reported ++ es
  mounted : u.process.bridges[id]? = some m
  borrowed : m.borrowed = k

/-- A way to dispatch that keeps to what a running handler can do. -/
def Follows (dispatch : Dispatch ι) : Prop :=
  ∀ {id k b s u m} signum code address frame, 0 < k → Plays id k b s u m →
    ∃ n, Plays id k b s (dispatch id signum code address frame u).2 n

theorem Plays.perform (hd : Follows dispatch) (hk : 0 < k) (h : Plays id k b s u m)
    (step : BridgeStep ι) : ∃ n, Plays id k b s (perform dispatch id step u).2 n := by
  obtain ⟨f, es, hr, hes⟩ := h.runs
  have hm := h.mounted
  have hopen : m.borrowed ≠ 0 := by rw [h.borrowed]; omega
  cases ho : m.owned with
  | false =>
    -- the owner has dropped the bridge, which stays open for its calls
    refine ⟨m, ?_⟩
    cases step with
    | installer | openInstance => exact ⟨h.runs, hm, h.borrowed⟩
    | drop => simpa [Stage.perform, Process.drop, hm, ho] using h
    | _ => simpa [Stage.perform, isOwned, hm, ho] using h
  | true =>
    cases step with
    | installer | openInstance => exact ⟨m, h.runs, hm, h.borrowed⟩
    | drop =>
      refine ⟨{ m with owned := false }, ⟨f, es, hr, ?_⟩, ?_, h.borrowed⟩
      · simpa [Stage.perform, Process.drop, hm, ho, hopen] using hes
      · simp [Stage.perform, Process.drop, hm, ho, hopen, advance, Process.getElem?_setMounted hm]
    | register signal handler =>
      let t := m.bridge.register (Process.installerFor m u.installer) signal handler
      refine ⟨{ m with bridge := t.bridge }, ⟨f, es ++ t.events, hr.register .., ?_⟩, ?_, h.borrowed⟩
      · simp [Stage.perform, isOwned, Process.register, hm, ho, hes, t]
      · simp [Stage.perform, isOwned, Process.register, hm, ho, advance, t,
          Process.getElem?_commitTurn hm]
    | unregister signal =>
      let t := m.bridge.unregister (Process.installerFor m u.installer) signal
      refine ⟨{ m with bridge := t.bridge }, ⟨f, es ++ t.events, hr.unregister .., ?_⟩, ?_, h.borrowed⟩
      · simp [Stage.perform, isOwned, Process.unregister, hm, ho, hes, t]
      · simp [Stage.perform, isOwned, Process.unregister, hm, ho, advance, t,
          Process.getElem?_commitTurn hm]
    | registered | attached => exact ⟨m, by simpa [Stage.perform, isOwned, hm, ho] using h⟩
    | dispatch signum code address frame =>
      simpa [Stage.perform, isOwned, hm, ho] using hd signum code address frame hk h

theorem Plays.play (hd : Follows dispatch) (hk : 0 < k) (h : Plays id k b s u m) (act : Act ι) :
    ∃ n, Plays id k b s (play dispatch id u act) n := by
  cases act with
  | edit e =>
    obtain ⟨f, es, hr, hes⟩ := h.runs
    refine ⟨{ m with bridge := m.bridge.edit e.apply }, ⟨_, es, hr.edit e.apply, hes⟩, ?_, h.borrowed⟩
    simp [Stage.play, Process.edit, h.mounted, Process.getElem?_setMounted h.mounted]
  | step step =>
    obtain ⟨n, hn⟩ := h.perform hd hk step
    obtain ⟨f, es, hr, hes⟩ := hn.runs
    exact ⟨n, ⟨f, es, hr, by simpa [Stage.play, reported] using hes⟩, hn.mounted, hn.borrowed⟩

theorem Plays.foldl (hd : Follows dispatch) (hk : 0 < k) (h : Plays id k b s u m)
    (acts : List (Act ι)) : ∃ n, Plays id k b s (acts.foldl (Stage.play dispatch id) u) n := by
  induction acts generalizing u m with
  | nil => exact ⟨m, h⟩
  | cons act acts ih =>
    obtain ⟨n, hn⟩ := h.play hd hk act
    exact ih hn

/-- The stage after a dispatch has the answer, the events and the bridge of one that returns. If it
was the last call of an owner that dropped the bridge meanwhile, the bridge closes after that. -/
def Answered (id : Nat) (m : Mounted (Handler ι)) (signum code : Int) (address : UInt64)
    (frame : Frame) (u : Stage ι) (v : StepResult × Stage ι) : Prop :=
  ∃ answer es n closing, m.bridge.Returns signum code address frame answer es n.bridge ∧
    n.borrowed = m.borrowed ∧ v.1 = .dispatched answer.1 answer.2 ∧
    v.2.reported = u.reported ++ es ++ closing ∧
    (m.borrowed ≠ 0 ∨ n.owned → closing = [] ∧ v.2.process.bridges[id]? = some n)

theorem dispatchWithin_called {i : Invocation (Handler ι)} {signum code : Int} {address : UInt64}
    {frame : Frame} {w : Stage ι} {answer : Bool × Frame} {gs es : List (BridgeEvent (Handler ι))}
    {c : Bridge (Handler ι)} {q : Process (Handler ι)} (hm : u.process.bridges[id]? = some m)
    (ht : m.bridge.dispatch signum code address frame = ⟨some i, gs, c⟩)
    (hw : i.handler.acts.foldl (Stage.play (dispatchWithin depth) id) (u.advance gs
      (u.process.setMounted id { m with bridge := c, borrowed := m.borrowed + 1 })) = w)
    (hq : w.process.finish w.installer id = some (answer, es, q)) :
    dispatchWithin (depth + 1) id signum code address frame u =
      (.dispatched answer.1 answer.2, w.advance es q) := by
  simp only [dispatchWithin, Process.dispatch, hm, ht, Option.isSome_some, if_true, hw, hq]

theorem Follows.answered (hd : Follows (dispatchWithin depth : Dispatch ι))
    (hm : u.process.bridges[id]? = some m) (signum code : Int) (address : UInt64) (frame : Frame) :
    Answered id m signum code address frame u
      (dispatchWithin (depth + 1) id signum code address frame u) := by
  cases ht : m.bridge.dispatch signum code address frame with | mk o gs c =>
  obtain ⟨rfl, rfl⟩ := dispatch_eq ht
  cases o with
  | none =>
    refine ⟨(false, frame), [], m, [], .ignored ht, rfl, ?_⟩
    simp [dispatchWithin, Process.dispatch, hm, ht, advance, Process.setMounted_self hm]
  | some i =>
    let m₁ : Mounted (Handler ι) :=
      { m with bridge := m.bridge.entered i, borrowed := m.borrowed + 1 }
    let u₁ := u.advance [.call i] (u.process.setMounted id m₁)
    have h₁ : Plays id (m.borrowed + 1) m₁.bridge u₁ u₁ m₁ :=
      ⟨⟨_, [], .idle, by simp⟩, Process.getElem?_setMounted hm m₁, rfl⟩
    obtain ⟨n, hn⟩ := h₁.foldl hd (Nat.succ_pos _) i.handler.acts
    generalize hw : i.handler.acts.foldl (Stage.play (dispatchWithin depth) id) u₁ = w at hn
    obtain ⟨f, es, hr, hes⟩ := hn.runs
    obtain ⟨t, hf⟩ : ∃ t, n.bridge.finish = some t := ⟨_, hr.finish⟩
    have hb : n.borrowed - 1 = m.borrowed := by rw [hn.borrowed]; rfl
    obtain ⟨closing, q, hq, hopen⟩ := Process.finish_of_mounted w.installer hn.mounted hf
    rw [hb] at hopen
    refine ⟨t.answer, _, { n with bridge := t.bridge, borrowed := m.borrowed }, closing,
      .served ht hr hf, rfl, ?_⟩
    rw [dispatchWithin_called hm ht hw hq]
    refine ⟨rfl, ?_, hopen⟩
    simp [hes, u₁]

theorem follows_dispatchWithin (depth : Nat) : Follows (dispatchWithin depth : Dispatch ι) := by
  induction depth with
  | zero => exact fun _ _ _ _ _ h => ⟨_, h⟩
  | succ depth ih =>
    intro id k b s u m signum code address frame hk h
    obtain ⟨f, es, hr, hes⟩ := h.runs
    have hopen : m.borrowed ≠ 0 := by rw [h.borrowed]; omega
    obtain ⟨answer, gs, n, closing, hret, hb, -, hgs, hstays⟩ :=
      Follows.answered ih h.mounted signum code address frame
    obtain ⟨rfl, hn⟩ := hstays (.inl hopen)
    rw [List.append_nil, hes, List.append_assoc] at hgs
    exact ⟨n, ⟨f, es ++ gs, hr.returns hret, hgs⟩, hn, hb.trans h.borrowed⟩

/-- A dispatch with room for a handler is one that returns, whatever the scripts play. -/
theorem dispatchWithin_answered (depth : Nat) (hm : u.process.bridges[id]? = some m)
    (signum code : Int) (address : UInt64) (frame : Frame) :
    Answered id m signum code address frame u
      (dispatchWithin (depth + 1) id signum code address frame u) :=
  Follows.answered (follows_dispatchWithin depth) hm signum code address frame

end Scenario.Stage

end FirmwareHost
