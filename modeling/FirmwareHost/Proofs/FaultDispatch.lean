import FirmwareHost.Proofs.BridgeHistory
import FirmwareHost.Proofs.RegisterLens

/-! A native fault from its arrival to its return. The handler that it calls may edit its snapshot,
change the slots, its own included, and take faults itself. Each of those returns before the
handler does, so that at its return it is the innermost call again and holds the snapshot that it
left. -/

namespace FirmwareHost

variable {η : Type}

namespace Invocation

def edited (i : Invocation η) (f : Snapshot → Snapshot) : Invocation η :=
  { i with info := { i.info with context := f i.info.context } }

/-- Whether the snapshot of a returning handler is committed, and the frame that results. -/
def resumed (i : Invocation η) : Bool × Frame :=
  match i.info.context.commit i.frame with
  | .ok g => (true, g)
  | .error _ => (false, i.frame)

end Invocation

/-- What interrupted code resumes with, after a handler left a snapshot for its frame. -/
structure Resumes (left : Snapshot) (frame : Frame) (answer : Bool × Frame) : Prop where
  handled : answer.1 = true ↔ left.arch = frame.arch
  committed : answer.1 = true → left.commit frame = .ok answer.2 ∧
    answer.2.capture = left.reduced ∧ answer.2.hidden = frame.hidden
  kept : answer.1 = false → answer.2 = frame

theorem Invocation.resumes (i : Invocation η) : Resumes i.info.context i.frame i.resumed := by
  by_cases ha : i.info.context.arch = i.frame.arch
  · obtain ⟨g, hg⟩ := Snapshot.commit_of_arch_eq ha
    have hr : i.resumed = (true, g) := by simp only [resumed, hg]
    rw [hr]
    exact ⟨iff_of_true rfl ha, fun _ => ⟨hg, (Snapshot.commit_eq_ok_iff.mp hg).2⟩, nofun⟩
  · have hr : i.resumed = (false, i.frame) := by
      simp only [resumed, Snapshot.commit_of_arch_ne ha]
    rw [hr]
    exact ⟨iff_of_false nofun ha, nofun, fun _ => rfl⟩

namespace Bridge

def entered (b : Bridge η) (i : Invocation η) : Bridge η :=
  { b with active := b.active + 1, calls := i :: b.calls }

/-- What the innermost running handler does until it returns: its edits of its snapshot, one after
the other, and the events on the bridge, those of the faults that it takes included. -/
inductive Runs : Bridge η → (Snapshot → Snapshot) → List (BridgeEvent η) → Bridge η → Prop
  | idle {b} : Runs b id [] b
  | edit {b f es c} (g : Snapshot → Snapshot) (hr : Runs b f es c) : Runs b (g ∘ f) es (c.edit g)
  | register {b f es c} (os : Installer) (signal : UInt64) (handler : Option η)
      (hr : Runs b f es c) :
      Runs b f (es ++ (c.register os signal handler).events) (c.register os signal handler).bridge
  | unregister {b f es c} (os : Installer) (signal : UInt64) (hr : Runs b f es c) :
      Runs b f (es ++ (c.unregister os signal).events) (c.unregister os signal).bridge
  | ignored {b f es c d gs signum code address frame} (hr : Runs b f es c)
      (hd : c.dispatch signum code address frame = ⟨none, gs, d⟩) : Runs b f (es ++ gs) d
  | nested {b f es c d e i g gs hs t signum code address frame} (hr : Runs b f es c)
      (hd : c.dispatch signum code address frame = ⟨some i, gs, d⟩) (hn : Runs d g hs e)
      (hf : e.finish = some t) : Runs b f (es ++ (gs ++ (hs ++ t.events))) t.bridge

/-- The dispatch of a native fault returns, with what it answers to the interrupted code: whether
the fault was handled, and the frame to resume with. -/
inductive Returns (b : Bridge η) (signum code : Int) (address : UInt64) (frame : Frame) :
    Bool × Frame → List (BridgeEvent η) → Bridge η → Prop
  | ignored {es c} (hd : b.dispatch signum code address frame = ⟨none, es, c⟩) :
      Returns b signum code address frame (false, frame) es c
  | served {i f es fs c d t} (hd : b.dispatch signum code address frame = ⟨some i, es, c⟩)
      (hr : c.Runs f fs d) (hf : d.finish = some t) :
      Returns b signum code address frame t.answer (es ++ (fs ++ t.events)) t.bridge

variable {b c : Bridge η} {i : Invocation η} {outer : List (Invocation η)}
  {f : Snapshot → Snapshot} {es : List (BridgeEvent η)} {signum code : Int} {address : UInt64}
  {frame : Frame} {answer : Bool × Frame}

theorem ofNative?_eq_some_iff {slot : FaultSlot} :
    FaultSlot.ofNative? signum = some slot ↔ slot.native = signum := by
  constructor
  · intro h
    simpa using List.find?_some h
  · rintro rfl
    cases slot <;> rfl

theorem dispatch_eq {o : Option (Invocation η)}
    (hd : b.dispatch signum code address frame = ⟨o, es, c⟩) :
    es = o.toList.map .call ∧ c = o.elim b b.entered := by
  unfold dispatch at hd
  split at hd
  · cases hd
    exact ⟨rfl, rfl⟩
  · split at hd <;> cases hd <;> exact ⟨rfl, rfl⟩

theorem dispatch_of_vacant (h : ∀ slot, slot.native = signum → b.slots slot = none) :
    b.dispatch signum code address frame = ⟨none, [], b⟩ := by
  unfold dispatch abstractFault
  cases hs : FaultSlot.ofNative? signum with
  | none => rfl
  | some slot => simp only [h slot (ofNative?_eq_some_iff.mp hs)]

theorem dispatch_of_occupied {slot : FaultSlot} {h : η} (hn : slot.native = signum)
    (ho : b.slots slot = some h) :
    let i := ⟨h, slot, ⟨slot.reason code, address, frame.capture⟩, frame⟩
    b.dispatch signum code address frame = ⟨some i, [.call i], b.entered i⟩ := by
  simp only [dispatch, abstractFault, ofNative?_eq_some_iff.mpr hn, ho, entered]

theorem finish_eq (hc : b.calls = i :: outer) : b.finish =
    some ⟨i.resumed, [.finish i i.resumed.1], { b with active := b.active - 1, calls := outer }⟩ := by
  simp only [finish, hc, Invocation.resumed]
  cases i.info.context.commit i.frame <;> rfl

theorem edit_eq (hc : b.calls = i :: outer) :
    b.edit f = { b with calls := i.edited f :: outer } := by
  simp only [edit, hc, Invocation.edited]

theorem register_calls (b : Bridge η) (os : Installer) (signal : UInt64) (handler : Option η) :
    (b.register os signal handler).bridge.calls = b.calls ∧
      (b.register os signal handler).bridge.active = b.active := by
  unfold register
  split
  · exact ⟨rfl, rfl⟩
  · split
    · exact ⟨rfl, rfl⟩
    · split
      · simp [store]
      · split <;> simp [store]

theorem unregister_calls (b : Bridge η) (os : Installer) (signal : UInt64) :
    (b.unregister os signal).bridge.calls = b.calls ∧
      (b.unregister os signal).bridge.active = b.active := by
  unfold unregister
  split
  · exact ⟨rfl, rfl⟩
  · split
    · exact ⟨rfl, rfl⟩
    · split
      · exact ⟨rfl, rfl⟩
      · simp [store]

/-- A running handler changes nothing about the calls but its own snapshot. -/
theorem Runs.calls (hr : Runs b f es c) (hb : b.calls = i :: outer) :
    c.calls = i.edited f :: outer ∧ c.active = b.active := by
  induction hr generalizing i outer with
  | idle => exact ⟨hb, rfl⟩
  | edit g _ ih =>
    obtain ⟨hc, ha⟩ := ih hb
    rw [edit_eq hc]
    exact ⟨rfl, ha⟩
  | @register b f es c os signal handler _ ih =>
    obtain ⟨hc, ha⟩ := c.register_calls os signal handler
    exact ⟨hc.trans (ih hb).1, ha.trans (ih hb).2⟩
  | @unregister b f es c os signal _ ih =>
    obtain ⟨hc, ha⟩ := c.unregister_calls os signal
    exact ⟨hc.trans (ih hb).1, ha.trans (ih hb).2⟩
  | ignored _ hd ih =>
    obtain ⟨-, rfl⟩ := dispatch_eq hd
    exact ih hb
  | nested _ hd _ hf ih ihn =>
    obtain ⟨-, rfl⟩ := dispatch_eq hd
    obtain ⟨hc, ha⟩ := ih hb
    -- the inner handler keeps what is beneath it, and its return takes its own call off
    obtain ⟨he, hae⟩ := ihn rfl
    rw [finish_eq he] at hf
    cases hf
    simp [entered, hae, hc, ha]

/-- A handler that was just called can return, and what it leaves decides the answer. -/
theorem Runs.finish (hr : (b.entered i).Runs f es c) : c.finish =
    some ⟨(i.edited f).resumed, [.finish (i.edited f) (i.edited f).resumed.1],
      { c with active := b.active, calls := b.calls }⟩ := by
  obtain ⟨hc, ha⟩ := hr.calls rfl
  rw [finish_eq hc, ha]
  rfl

/-- The dispatch of a native fault. Without a handler for the signal it does nothing. Otherwise it
calls that handler once and returns whatever the handler does. -/
theorem fault_answered (b : Bridge η) (signum code : Int) (address : UInt64) (frame : Frame) :
    ((∀ slot, slot.native = signum → b.slots slot = none) → ∀ answer es c,
      b.Returns signum code address frame answer es c ↔ answer = (false, frame) ∧ es = [] ∧ c = b) ∧
    ∀ slot h, slot.native = signum → b.slots slot = some h →
      let reason := if code = slot.nativeCode then slot.abstractCode else 0
      let i : Invocation η := ⟨h, slot, ⟨reason, address, frame.capture⟩, frame⟩
      (∀ f fs d, (b.entered i).Runs f fs d → ∃ answer, Resumes (f frame.capture) frame answer ∧
        b.Returns signum code address frame answer
          (.call i :: (fs ++ [.finish (i.edited f) answer.1]))
          { d with active := b.active, calls := b.calls }) ∧
      ∀ answer es c, b.Returns signum code address frame answer es c →
        ∃ f fs d, (b.entered i).Runs f fs d ∧ Resumes (f frame.capture) frame answer ∧
          es = .call i :: (fs ++ [.finish (i.edited f) answer.1]) ∧
          c = { d with active := b.active, calls := b.calls } := by
  refine ⟨fun hv answer es c => ?_, fun slot h hn ho => ?_⟩
  · have hd : b.dispatch signum code address frame = ⟨none, [], b⟩ := dispatch_of_vacant hv
    constructor
    · rintro (hd' | ⟨hd', -, -⟩) <;> rw [hd] at hd' <;> cases hd'
      exact ⟨rfl, rfl, rfl⟩
    · rintro ⟨rfl, rfl, rfl⟩
      exact .ignored hd
  · intro reason i
    have hd : b.dispatch signum code address frame = ⟨some i, [.call i], b.entered i⟩ :=
      dispatch_of_occupied hn ho
    refine ⟨fun f fs d hr => ⟨_, (i.edited f).resumes, .served hd hr hr.finish⟩,
      fun answer es c hret => ?_⟩
    rcases hret with hd' | @⟨_, f, _, fs, _, d, t, hd', hr, hf⟩ <;> rw [hd] at hd' <;> cases hd'
    rw [hr.finish] at hf
    cases hf
    exact ⟨f, fs, d, hr, (i.edited f).resumes, rfl, rfl⟩

/-- A handler replaces itself, its successor serves a fault meanwhile and unregisters itself, and
then the first one moves the program counter. -/
theorem fault_answered_sample :
    let frame := Frame.ofWords [] .x64
    let b := (.empty : Bridge Nat).store .ill (some 0)
    (∃ answer es c, b.Returns 4 1 0x1000 frame answer es c ∧ answer.1 = true ∧
      answer.2.capture = frame.capture.setProgramCounter 0x2000 ∧ c.slots .ill = none ∧
      c.retired = [0, 1] ∧ c.active = 0) ∧
    b.Returns 11 2 0x1000 frame (false, frame) [] b := by
  intro frame b
  have hvacant : ∀ slot : FaultSlot, slot.native = 11 → b.slots slot = none := by
    intro slot hn
    cases slot <;> first | rfl | cases hn
  refine ⟨?_, ((fault_answered b 11 2 0x1000 frame).1 hvacant _ _ _).mpr ⟨rfl, rfl, rfl⟩⟩
  let i : Invocation Nat := ⟨0, .ill, ⟨1, 0x1000, frame.capture⟩, frame⟩
  have hreplaced := Runs.register .willing 4 (some 1) (.idle (b := b.entered i))
  have hdispatch : ((b.entered i).register .willing 4 (some 1)).bridge.dispatch 4 1 0 frame =
    ⟨some _, _, _⟩ := rfl
  have hserved := hreplaced.nested hdispatch (.unregister .willing 4 .idle) rfl
  have hmoved := hserved.edit (Snapshot.setProgramCounter 0x2000)
  obtain ⟨answer, hr, hret⟩ := ((fault_answered b 4 1 0x1000 frame).2 .ill 0 rfl rfl).1 _ _ _ hmoved
  have ht : answer.1 = true := hr.handled.mpr rfl
  exact ⟨answer, _, _, hret, ht, (hr.committed ht).2.1, rfl, rfl, rfl⟩

end Bridge

end FirmwareHost
