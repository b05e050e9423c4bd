import FirmwareHost.Scenario.Listener
import Mathlib.Data.List.Induction

/-! The calls of a message loop on its bus. The calls made so far decide the phase of the loop, and
the phase decides the next call. So a bus is waited for only when it had nothing queued and the flag
was down, and the loop stops only with the flag up and nothing queued, or at the first failure. -/

namespace FirmwareHost

variable {σ : Type}

inductive BusCall where
  | process (r : Ended Bool)
  | flag (raised : Bool)
  | wait (timeout : Nat) (r : Ended Unit)

namespace BusCall

def isHandled : BusCall → Bool
  | .process (.returned (.ok true)) => true
  | _ => false

def failure? : BusCall → Option Failure
  | .process (.returned (.error e)) | .wait _ (.returned (.error e)) => some e
  | _ => none

end BusCall

/-- The bus that also notes each call it gets. -/
def Bus.recording (b : Bus σ) : Bus (σ × List BusCall) where
  process := fun (x, calls) =>
    let (r, x) := b.process x
    (r, x, calls ++ [.process r])
  raised := fun (x, calls) =>
    let (up, x) := b.raised x
    (up, x, calls ++ [.flag up])
  wait timeout := fun (x, calls) =>
    let (r, x) := b.wait timeout x
    (r, x, calls ++ [.wait timeout r])

namespace LoopPhase

/-- The phase behind a call, when this many requests have been handled. -/
def next (handled : Nat) : BusCall → LoopPhase
  | .process (.returned (.ok true)) => .draining
  | .process (.returned (.ok false)) => .checking
  | .process (.returned (.error e)) => .stopped (.returned (.error e))
  | .process .panicked => .stopped .panicked
  | .flag true => .stopped (.returned (.ok handled))
  | .flag false => .pausing
  | .wait _ (.returned (.ok ())) => .draining
  | .wait _ (.returned (.error e)) => .stopped (.returned (.error e))
  | .wait _ .panicked => .stopped .panicked

def behind (calls : List BusCall) : LoopPhase :=
  calls.getLast?.elim .draining (next (calls.countP BusCall.isHandled))

def Makes (timeout : Nat) : LoopPhase → BusCall → Prop
  | .draining, .process _ => True
  | .checking, .flag _ => True
  | .pausing, .wait t _ => t = timeout
  | _, _ => False

variable {calls before after : List BusCall} {c : BusCall} {timeout : Nat} {e : Failure}

@[simp] theorem behind_append (calls : List BusCall) (c : BusCall) :
    behind (calls ++ [c]) = next ((calls ++ [c]).countP BusCall.isHandled) c := by
  simp [behind]

variable {handled k t : Nat} {p : LoopPhase} {up : Bool} {w : Ended Unit}

theorem next_eq_pausing (h : next handled c = .pausing) : c = .flag false := by
  unfold next at h
  split at h <;> cases h
  rfl

theorem next_eq_checking (h : next handled c = .checking) :
    c = .process (.returned (.ok false)) := by
  unfold next at h
  split at h <;> cases h
  rfl

theorem next_eq_finished (h : next handled c = .stopped (.returned (.ok k))) :
    c = .flag true ∧ k = handled := by
  unfold next at h
  split at h <;> cases h
  exact ⟨rfl, rfl⟩

theorem next_eq_failed_iff :
    next handled c = .stopped (.returned (.error e)) ↔ c.failure? = some e := by
  unfold next BusCall.failure?
  split <;> simp

theorem makes_flag_iff : Makes timeout p (.flag up) ↔ p = .checking := by
  cases p <;> simp [Makes]

theorem makes_wait_iff : Makes timeout p (.wait t w) ↔ p = .pausing ∧ t = timeout := by
  cases p <;> simp [Makes]

theorem Makes.process (h : Makes timeout .draining c) : ∃ r, c = .process r := by
  cases c <;> simp_all [Makes]

theorem exists_last (h : behind calls = p) (hp : p ≠ .draining) :
    ∃ before c, calls = before ++ [c] ∧ next (calls.countP BusCall.isHandled) c = p := by
  cases calls using List.reverseRecOn with
  | nil => exact absurd h.symm hp
  | append_singleton before c => exact ⟨before, c, rfl, by rw [← h, behind_append]⟩

end LoopPhase

namespace MessageLoop

def calls (s : MessageLoop (σ × List BusCall)) : List BusCall := s.bus.2

def plain (s : MessageLoop (σ × List BusCall)) : MessageLoop σ := { s with bus := s.bus.1 }

variable {b : Bus σ} {timeout : Nat} {s : MessageLoop (σ × List BusCall)}

theorem plain_step (b : Bus σ) (timeout : Nat) (s : MessageLoop (σ × List BusCall)) :
    (s.step b.recording timeout).plain = s.plain.step b timeout := by
  obtain ⟨phase, handled, trace, x, calls⟩ := s
  cases phase with
  | draining =>
    cases hp : b.process x with
    | mk r y =>
      rcases r with (e | _ | _) | _ <;> simp [step, plain, Bus.recording, hp, note]
  | checking =>
    cases hp : b.raised x with
    | mk r y => cases r <;> simp [step, plain, Bus.recording, hp, note]
  | pausing =>
    cases hp : b.wait timeout x with
    | mk r y => rcases r with (e | _) | _ <;> simp [step, plain, Bus.recording, hp, note]
  | stopped r => rfl

theorem plain_run (b : Bus σ) (timeout n : Nat) (s : MessageLoop (σ × List BusCall)) :
    (s.run b.recording timeout n).plain = s.plain.run b timeout n := by
  induction n generalizing s with
  | zero => rfl
  | succ n ih => rw [run, run, ih, plain_step]

structure Calls (timeout : Nat) (s t : MessageLoop (σ × List BusCall)) (c : BusCall) : Prop where
  calls : t.calls = s.calls ++ [c]
  made : s.phase.Makes timeout c
  handled : t.handled = s.handled + if c.isHandled then 1 else 0
  phase : t.phase = .next t.handled c

-- every step but that of a stopped loop makes exactly one call
theorem step_calls (b : Bus σ) (timeout : Nat) {s : MessageLoop (σ × List BusCall)}
    (h : s.result? = none) : ∃ c, Calls timeout s (s.step b.recording timeout) c := by
  obtain ⟨phase, handled, trace, x, calls⟩ := s
  cases phase with
  | draining =>
    cases hp : b.process x with
    | mk r y =>
      refine ⟨.process r, ?_⟩
      rcases r with (e | _ | _) | _ <;> constructor <;>
        simp [step, MessageLoop.calls, Bus.recording, hp, note, LoopPhase.Makes, LoopPhase.next,
          BusCall.isHandled]
  | checking =>
    cases hp : b.raised x with
    | mk up y =>
      refine ⟨.flag up, ?_⟩
      cases up <;> constructor <;>
        simp [step, MessageLoop.calls, Bus.recording, hp, note, LoopPhase.Makes, LoopPhase.next,
          BusCall.isHandled]
  | pausing =>
    cases hp : b.wait timeout x with
    | mk r y =>
      refine ⟨.wait timeout r, ?_⟩
      rcases r with (e | _) | _ <;> constructor <;>
        simp [step, MessageLoop.calls, Bus.recording, hp, note, LoopPhase.Makes, LoopPhase.next,
          BusCall.isHandled]
  | stopped r => simp [result?] at h

/-- The calls decide the phase, and each was made in the phase that those before it decide. -/
structure Lawful (timeout : Nat) (s : MessageLoop (σ × List BusCall)) : Prop where
  handled : s.handled = s.calls.countP BusCall.isHandled
  phase : s.phase = .behind s.calls
  made : ∀ before c after, s.calls = before ++ c :: after →
    (LoopPhase.behind before).Makes timeout c

theorem lawful_start (timeout : Nat) (x : σ) : Lawful timeout (start (x, [])) where
  handled := rfl
  phase := rfl
  made before c after h := by simp [start, calls] at h

theorem Lawful.call {t : MessageLoop (σ × List BusCall)} {c : BusCall} (hs : Lawful timeout s)
    (h : Calls timeout s t c) : Lawful timeout t := by
  have hcount : t.handled = t.calls.countP BusCall.isHandled := by
    rw [h.handled, h.calls, hs.handled, List.countP_append, List.countP_singleton]
  refine ⟨hcount, ?_, fun before c' after hsplit => ?_⟩
  · rw [h.phase, hcount, h.calls, LoopPhase.behind_append]
  · rw [h.calls] at hsplit
    -- the split is either at the new call or within the calls before it
    cases after using List.reverseRecOn with
    | nil =>
      obtain ⟨rfl, hc⟩ := List.append_inj' hsplit rfl
      obtain rfl : c = c' := List.singleton_inj.mp hc
      exact hs.phase ▸ h.made
    | append_singleton after c'' _ =>
      rw [← List.cons_append, ← List.append_assoc] at hsplit
      exact hs.made before c' after (List.append_inj' hsplit rfl).1

theorem result?_eq_some_iff {s : MessageLoop σ} {r : Ended Nat} :
    s.result? = some r ↔ s.phase = .stopped r := by
  cases hp : s.phase <;> simp [result?, hp]

theorem Lawful.step (hs : Lawful timeout s) : Lawful timeout (s.step b.recording timeout) := by
  cases hr : s.result? with
  | none =>
    obtain ⟨c, hc⟩ := step_calls b timeout hr
    exact hs.call hc
  | some r =>
    rw [step_of_stopped (result?_eq_some_iff.mp hr)]
    exact hs

theorem Lawful.run (hs : Lawful timeout s) (n : Nat) :
    Lawful timeout (s.run b.recording timeout n) := by
  induction n generalizing s with
  | zero => exact hs
  | succ n ih => exact ih hs.step

variable {before after : List BusCall} {c : BusCall} {e : Failure} {t k : Nat}

theorem Lawful.finished (hs : Lawful timeout s) (h : s.result? = some (.returned (.ok k))) :
    k = s.calls.countP BusCall.isHandled ∧
      ∃ before, s.calls = before ++ [.process (.returned (.ok false)), .flag true] := by
  have hphase : LoopPhase.behind s.calls = .stopped (.returned (.ok k)) :=
    hs.phase.symm.trans (result?_eq_some_iff.mp h)
  obtain ⟨before, c, hlast, hnext⟩ := LoopPhase.exists_last hphase (by simp)
  obtain ⟨rfl, hk⟩ := LoopPhase.next_eq_finished hnext
  have hflag := LoopPhase.makes_flag_iff.mp (hs.made before _ [] hlast)
  obtain ⟨first, c, rfl, hnext⟩ := LoopPhase.exists_last hflag (by simp)
  obtain rfl := LoopPhase.next_eq_checking hnext
  exact ⟨hk, first, by simpa using hlast⟩

/-- A call that fails is the last one, and the loop ends with its failure. -/
theorem Lawful.failed (hs : Lawful timeout s) (h : s.calls = before ++ c :: after)
    (hc : c.failure? = some e) : after = [] ∧ s.result? = some (.returned (.error e)) := by
  have hstop : LoopPhase.behind (before ++ [c]) = .stopped (.returned (.error e)) := by
    rw [LoopPhase.behind_append]
    exact LoopPhase.next_eq_failed_iff.mpr hc
  cases after with
  | nil => exact ⟨rfl, result?_eq_some_iff.mpr (by rw [hs.phase, h, hstop])⟩
  | cons d after =>
    have hmade := hs.made (before ++ [c]) d after (by simpa using h)
    rw [hstop] at hmade
    exact absurd hmade (by cases d <;> simp [LoopPhase.Makes])

theorem Lawful.failed_last (hs : Lawful timeout s)
    (h : s.result? = some (.returned (.error e))) :
    ∃ before c, s.calls = before ++ [c] ∧ c.failure? = some e := by
  have hphase : LoopPhase.behind s.calls = .stopped (.returned (.error e)) :=
    hs.phase.symm.trans (result?_eq_some_iff.mp h)
  obtain ⟨before, c, hlast, hnext⟩ := LoopPhase.exists_last hphase (by simp)
  exact ⟨before, c, hlast, LoopPhase.next_eq_failed_iff.mp hnext⟩

theorem Lawful.waited {w : Ended Unit} (hs : Lawful timeout s)
    (h : s.calls = before ++ .wait t w :: after) :
    t = timeout ∧
      ∃ first, before = first ++ [.process (.returned (.ok false)), .flag false] := by
  obtain ⟨hpause, ht⟩ := LoopPhase.makes_wait_iff.mp (hs.made before _ after h)
  obtain ⟨early, c, rfl, hnext⟩ := LoopPhase.exists_last hpause (by simp)
  obtain rfl := LoopPhase.next_eq_pausing hnext
  have hmade := hs.made early (.flag false) (.wait t w :: after) (by simpa using h)
  have hflag := LoopPhase.makes_flag_iff.mp hmade
  obtain ⟨first, c, rfl, hnext⟩ := LoopPhase.exists_last hflag (by simp)
  obtain rfl := LoopPhase.next_eq_checking hnext
  exact ⟨ht, first, by simp⟩

theorem calls_step (b : Bus σ) (timeout : Nat) (s : MessageLoop (σ × List BusCall)) :
    ∃ more, (s.step b.recording timeout).calls = s.calls ++ more := by
  cases hr : s.result? with
  | none =>
    obtain ⟨c, hc⟩ := step_calls b timeout hr
    exact ⟨[c], hc.calls⟩
  | some r =>
    rw [step_of_stopped (result?_eq_some_iff.mp hr)]
    exact ⟨[], by simp⟩

/-- Behind a wait the loop looks for requests again, at its next step if it has not yet. -/
theorem Lawful.looks_again (hs : Lawful timeout s)
    (h : s.calls = before ++ .wait t (.returned (.ok ())) :: after) :
    ∃ r rest, (s.step b.recording timeout).calls =
      before ++ .wait t (.returned (.ok ())) :: .process r :: rest := by
  have hdrain : LoopPhase.behind (before ++ [.wait t (.returned (.ok ()))]) = .draining := by
    rw [LoopPhase.behind_append]
    rfl
  cases after with
  | nil =>
    have hphase : s.phase = .draining := by rw [hs.phase, h, hdrain]
    obtain ⟨c, hc⟩ := step_calls b timeout (show s.result? = none by simp [result?, hphase])
    obtain ⟨r, rfl⟩ := (hphase ▸ hc.made).process
    exact ⟨r, [], by simp [hc.calls, h]⟩
  | cons c after =>
    obtain ⟨r, rfl⟩ := (hdrain ▸ hs.made _ c after (by simpa using h)).process
    obtain ⟨more, hmore⟩ := calls_step b timeout s
    exact ⟨r, after ++ more, by simp [hmore, h]⟩

/-- The flag is looked at right behind a look for requests that found none, and an orderly end comes
right behind that. -/
def Drained (b : Bus σ) (s : MessageLoop σ) : Prop :=
  match s.phase with
  | .checking => ∃ x, b.process x = (.returned (.ok false), s.bus)
  | .stopped (.returned (.ok _)) =>
    ∃ x y, b.process x = (.returned (.ok false), y) ∧ b.raised y = (true, s.bus)
  | _ => True

theorem Drained.step {s : MessageLoop σ} (hs : Drained b s) : Drained b (s.step b timeout) := by
  obtain ⟨phase, handled, trace, x⟩ := s
  cases phase with
  | draining =>
    cases hp : b.process x with
    | mk r y =>
      have hfound : ∃ z, b.process z = (r, y) := ⟨x, hp⟩
      rcases r with (e | _ | _) | _ <;> simp [MessageLoop.step, hp, Drained, note, hfound]
  | checking =>
    obtain ⟨z, hz⟩ := hs
    cases hp : b.raised x with
    | mk up y =>
      have hseen : ∃ z w, b.process z = (.returned (.ok false), w) ∧ b.raised w = (up, y) :=
        ⟨z, x, hz, hp⟩
      cases up <;> simp [MessageLoop.step, hp, Drained, note, hseen]
  | pausing =>
    cases hp : b.wait timeout x with
    | mk r y => rcases r with (e | _) | _ <;> simp [MessageLoop.step, hp, Drained, note]
  | stopped r => exact hs

theorem Drained.run {s : MessageLoop σ} (hs : Drained b s) (n : Nat) :
    Drained b (s.run b timeout n) := by
  induction n generalizing s with
  | zero => exact hs
  | succ n ih => exact ih hs.step

theorem drained_of_finished (x : σ) (n : Nat)
    (h : ((start x).run b timeout n).result? = some (.returned (.ok k))) :
    ∃ y z, b.process y = (.returned (.ok false), z) ∧
      b.raised z = (true, ((start x).run b timeout n).bus) := by
  have hstart : Drained b (start x) := trivial
  have hs : Drained b ((start x).run b timeout n) := hstart.run n
  unfold Drained at hs
  rwa [result?_eq_some_iff.mp h] at hs

/-- The calls of a loop on any bus, after any number of steps. An orderly end counts the requests
handled and comes right behind a look that found none; a wait comes between two such looks, with the
flag seen down before it; and the first failure is the end. -/
theorem calls_in_order (b : Bus σ) (x : σ) (timeout n : Nat) :
    let s := (start (x, [])).run b.recording timeout n
    s.plain = (start x).run b timeout n ∧
    (∀ k, s.result? = some (.returned (.ok k)) →
      k = s.calls.countP BusCall.isHandled ∧
      (∃ before, s.calls = before ++ [.process (.returned (.ok false)), .flag true]) ∧
      ∃ y z, b.process y = (.returned (.ok false), z) ∧ b.raised z = (true, s.plain.bus)) ∧
    (∀ before t w after, s.calls = before ++ .wait t w :: after →
      t = timeout ∧
      (∃ first, before = first ++ [.process (.returned (.ok false)), .flag false]) ∧
      (w = .returned (.ok ()) → ∃ r rest,
        (s.step b.recording timeout).calls = before ++ .wait t w :: .process r :: rest)) ∧
    (∀ before c after e, s.calls = before ++ c :: after → c.failure? = some e →
      after = [] ∧ s.result? = some (.returned (.error e))) ∧
    ∀ e, s.result? = some (.returned (.error e)) →
      ∃ before c, s.calls = before ++ [c] ∧ c.failure? = some e := by
  intro s
  have hs : Lawful timeout s := (lawful_start timeout x).run n
  have hplain : s.plain = (start x).run b timeout n := plain_run b timeout n _
  refine ⟨hplain, fun k hk => ?_, fun before t w after hw => ?_, fun before c after e hc he => ?_,
    fun e he => hs.failed_last he⟩
  · obtain ⟨hcount, hlast⟩ := hs.finished hk
    have hk' : s.plain.result? = some (.returned (.ok k)) := hk
    rw [hplain] at hk' ⊢
    exact ⟨hcount, hlast, drained_of_finished x n hk'⟩
  · obtain ⟨ht, hbefore⟩ := hs.waited hw
    refine ⟨ht, hbefore, ?_⟩
    rintro rfl
    exact hs.looks_again hw
  · exact hs.failed hc he

theorem calls_in_order_sample :
    let x : Scenario.ScriptedBus :=
      ⟨[.handled true, .handled false, .shutdown], [.handled true], false⟩
    let s := (start (x, [])).run Scenario.ScriptedBus.bus.recording 5 7
    let t := (start (x, [])).run Scenario.ScriptedBus.bus.recording 5 4
    let before := [.process (.returned (.ok true)), .process (.returned (.ok false)), .flag false]
    s.result? = some (.returned (.ok 2)) ∧ 2 = s.calls.countP BusCall.isHandled ∧
      t.calls = before ++ [.wait 5 (.returned (.ok ()))] ∧
      ∃ r rest, (t.step Scenario.ScriptedBus.bus.recording 5).calls =
        before ++ .wait 5 (.returned (.ok ())) :: .process r :: rest := by
  intro x s t before
  have hs : s.result? = some (.returned (.ok 2)) := rfl
  have ht : t.calls = before ++ [.wait 5 (.returned (.ok ()))] := rfl
  obtain ⟨-, hfinished, -⟩ := calls_in_order Scenario.ScriptedBus.bus x 5 7
  obtain ⟨-, -, hwaited, -⟩ := calls_in_order Scenario.ScriptedBus.bus x 5 4
  obtain ⟨-, -, hagain⟩ := hwaited before 5 (.returned (.ok ())) [] ht
  exact ⟨hs, (hfinished 2 hs).1, ht, hagain rfl⟩

end MessageLoop

end FirmwareHost
