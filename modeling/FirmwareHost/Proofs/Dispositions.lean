import FirmwareHost.Proofs.BridgeHistory

/-! Slots and dispositions in step. A handler is published before the system routes its signal to
the bridge, and the default comes back before a handler is withdrawn, so that a routed signal
always finds a handler. -/

namespace FirmwareHost

variable {η : Type} {v : BridgeView η} {es fs : List (BridgeEvent η)}

namespace BridgeView

/-- Every routed signal finds a handler in its slot. -/
def Covered (v : BridgeView η) : Prop := ∀ slot, v.installed slot = true → (v.slots slot).isSome

/-- The routed signals are those whose slot holds a handler. -/
def Matched (v : BridgeView η) : Prop := ∀ slot, v.installed slot = (v.slots slot).isSome

def LeavesCovered (v : BridgeView η) (e : BridgeEvent η) : Prop := (v.after e).Covered

/-- The system is only asked for a route that is not there, and only to take back one that is. -/
def AskedInTurn (v : BridgeView η) : BridgeEvent η → Prop
  | .install slot _ => v.installed slot = false
  | .restore slot _ => v.installed slot = true
  | _ => True

theorem Matched.covered (hm : v.Matched) : v.Covered := fun slot hi => hm slot ▸ hi

theorem Matched.publish {slot : FaultSlot} {old : η} (hm : v.Matched) (ho : v.slots slot = some old)
    (h : η) : (v.store slot (some h)).Matched := by
  intro other
  by_cases he : other = slot
  · simp [store, he, hm slot, ho]
  · simp [store, he, hm other]

theorem Covered.publish (hc : v.Covered) (slot : FaultSlot) (h : η) :
    (v.store slot (some h)).Covered := by
  intro other hi
  by_cases he : other = slot
  · simp [store, he]
  · simpa [store, he] using hc other hi

theorem Matched.install (hm : v.Matched) (slot : FaultSlot) (h : η) :
    ((v.store slot (some h)).route slot true).Matched := by
  intro other
  by_cases he : other = slot
  · simp [store, route, he]
  · simp [store, route, he, hm other]

theorem Covered.restore (hc : v.Covered) (slot : FaultSlot) : (v.route slot false).Covered := by
  intro other hi
  by_cases he : other = slot
  · simp [route, he] at hi
  · exact hc other (by simpa [route, he] using hi)

theorem Matched.restore (hm : v.Matched) (slot : FaultSlot) :
    ((v.route slot false).store slot none).Matched := by
  intro other
  by_cases he : other = slot
  · simp [store, route, he]
  · simp [store, route, he, hm other]

theorem store_undone {slot : FaultSlot} {h : Option η} (ho : v.slots slot = none) :
    (v.store slot h).store slot none = v := by
  have hs : (fun s => if s = slot then none else if s = slot then h else v.slots s) = v.slots := by
    funext s
    by_cases he : s = slot <;> simp [he, ho]
  simp [store, hs]

theorem Covered.along_free (hc : v.Covered) (hs : List η) : Along LeavesCovered v (hs.map .free) :=
  BridgeView.along_free.mpr fun _ _ => hc

theorem askedInTurn_free (hs : List η) : Along AskedInTurn v (hs.map .free) :=
  BridgeView.along_free.mpr fun _ _ => trivial

end BridgeView

def asked (es : List (BridgeEvent η)) : List (Outcome Unit) :=
  es.filterMap fun
    | .install _ answer | .restore _ answer => some answer
    | _ => none

theorem asked_free (hs : List η) : asked (hs.map .free) = [] := by
  induction hs with
  | nil => rfl
  | cons h hs ih => exact ih

theorem faultSlot_error {signal : UInt64} {e : Failure} (hs : faultSlot signal = .error e) :
    e = .invalidParameter := by
  unfold faultSlot at hs
  split at hs <;> cases hs
  rfl

/-- A registration change asks the system at most once. It answers with a device error exactly if
the system refused, with an invalid parameter exactly if `invalid`, and an error leaves the slots
and the routes as they were. -/
structure Turn.Reports (b : Bridge η) (invalid : Prop) (t : Turn η (Outcome Unit)) : Prop where
  once : (asked t.events).length ≤ 1
  device : t.answer = .error .deviceError ↔ ∃ e, asked t.events = [.error e]
  invalid : t.answer = .error .invalidParameter ↔ invalid
  known : t.answer = .ok () ∨ t.answer = .error .deviceError ∨ t.answer = .error .invalidParameter
  slots : t.answer ≠ .ok () → t.bridge.slots = b.slots
  routes : t.answer ≠ .ok () → ∀ v : BridgeView η, (v.afterAll t.events).installed = v.installed

namespace Turn.Reports

variable {b : Bridge η} {invalid : Prop} {t : Turn η (Outcome Unit)}

theorem granted (hok : t.answer = .ok ()) (ha : asked t.events = [] ∨ asked t.events = [.ok ()])
    (hv : ¬ invalid) : t.Reports b invalid where
  once := by rcases ha with ha | ha <;> simp [ha]
  device := by rcases ha with ha | ha <;> simp [hok, ha]
  invalid := by simp [hok, hv]
  known := .inl hok
  slots := fun he => absurd hok he
  routes := fun he => absurd hok he

theorem refused {e : Failure} (hd : t.answer = .error .deviceError)
    (ha : asked t.events = [.error e]) (hv : ¬ invalid) (hs : t.bridge.slots = b.slots)
    (hr : ∀ v : BridgeView η, (v.afterAll t.events).installed = v.installed) :
    t.Reports b invalid where
  once := by simp [ha]
  device := by simp [hd, ha]
  invalid := by simp [hd, hv]
  known := .inr (.inl hd)
  slots := fun _ => hs
  routes := fun _ => hr

theorem rejected (hs : List η) (hi : t.answer = .error .invalidParameter) (hv : invalid)
    (ha : t.events = hs.map .free) (hb : t.bridge = b) : t.Reports b invalid where
  once := by simp [ha, asked_free]
  device := by simp [hi, ha, asked_free]
  invalid := by simp [hi, hv]
  known := .inr (.inr hi)
  slots := fun _ => by rw [hb]
  routes := fun _ v => by rw [ha, BridgeView.afterAll_free]

end Turn.Reports

open BridgeView

namespace Bridge

variable {b b' : Bridge η} {slot : FaultSlot} {given gs : List η}

theorem Step.matched (hs : Step b gs fs b') (ht : Told v b) (hm : v.Matched) :
    (v.afterAll fs).Matched ∧ Along LeavesCovered v fs ∧ Along AskedInTurn v fs := by
  have hc := hm.covered
  cases hs with
  | quiet => exact ⟨hm, trivial, trivial⟩
  | stray | called | finished => exact ⟨hm, ⟨hc, trivial⟩, ⟨trivial, trivial⟩⟩
  | @swapped slot h old ho =>
    rw [← ht.slots] at ho
    have hm' := hm.publish ho h
    simp only [afterAll_cons, afterAll_free]
    exact ⟨hm', ⟨hm'.covered, hm'.covered.along_free _⟩, ⟨trivial, askedInTurn_free _⟩⟩
  | @routed slot h ho =>
    rw [← ht.slots] at ho
    have hm' := hm.install slot h
    have hoff : v.installed slot = false := by rw [hm slot, ho]; rfl
    simp only [afterAll_cons, afterAll_free]
    exact ⟨hm', ⟨hc.publish slot h, hm'.covered, hm'.covered.along_free _⟩,
      ⟨trivial, hoff, askedInTurn_free _⟩⟩
  | @refused slot h e ho =>
    -- the handler stands in the slot while the system is asked, and no route ever leads to it
    rw [← ht.slots] at ho
    have hoff : v.installed slot = false := by rw [hm slot, ho]; rfl
    have hback : (v.store slot (some h)).store slot none = v := BridgeView.store_undone ho
    have hwithdraw : LeavesCovered (v.store slot (some h)) (.withdraw slot) := by
      show ((v.store slot (some h)).store slot none).Covered
      rwa [hback]
    simp only [afterAll_cons, afterAll_free, Along, BridgeView.after, hback]
    exact ⟨hm, ⟨hc.publish slot h, hc.publish slot h, hwithdraw, hc.along_free _⟩,
      ⟨trivial, hoff, trivial, askedInTurn_free _⟩⟩
  | @kept slot h e ho =>
    rw [← ht.slots] at ho
    have hon : v.installed slot = true := by rw [hm slot, ho]; rfl
    exact ⟨hm, ⟨hc, trivial⟩, ⟨hon, trivial⟩⟩
  | @removed slot h ho =>
    rw [← ht.slots] at ho
    have hon : v.installed slot = true := by rw [hm slot, ho]; rfl
    have hm' := hm.restore slot
    simp only [afterAll_cons, afterAll_free]
    exact ⟨hm', ⟨hc.restore slot, hm'.covered, hm'.covered.along_free _⟩,
      ⟨hon, trivial, askedInTurn_free _⟩⟩

theorem History.matched (hr : History given es b) : (BridgeView.initial.afterAll es).Matched ∧
    Along LeavesCovered .initial es ∧ Along AskedInTurn .initial es := by
  induction hr with
  | made => exact ⟨fun _ => rfl, trivial, trivial⟩
  | @next given es b a fs b' hr ha ih =>
    obtain ⟨hm, hc, ht⟩ := ih
    obtain ⟨hm', hc', ht'⟩ := (step_of_act ha).matched hr.told hm
    rw [afterAll_append, along_append, along_append]
    exact ⟨hm', ⟨hc, hc'⟩, ⟨ht, ht'⟩⟩

theorem detach_in_turn (os : Installer) (ht : Told v b) (hm : v.Matched) :
    Along AskedInTurn v (b.detach os) := by
  have hl : FaultSlot.all.Nodup := by decide
  unfold detach
  have hon : ∀ slot ∈ FaultSlot.all.filter (fun slot => (b.slots slot).isSome),
      v.installed slot = true := by
    intro slot hs
    rw [hm slot, ht.slots]
    exact (List.mem_filter.mp hs).2
  have hnd := hl.filter fun slot => (b.slots slot).isSome
  generalize FaultSlot.all.filter (fun slot => (b.slots slot).isSome) = l at hon hnd
  -- slots and routes part here; all that is left to know is that the signals still to go are routed
  clear hm ht
  induction l generalizing v with
  | nil => trivial
  | cons slot l ih =>
    obtain ⟨hnot, hnd⟩ := List.nodup_cons.mp hnd
    refine ⟨hon slot List.mem_cons_self, ih (fun other ho => ?_) hnd⟩
    have hne : other ≠ slot := fun he => hnot (he ▸ ho)
    have hother := hon other (List.mem_cons_of_mem slot ho)
    show (v.after (.restore slot (os.restore slot))).installed other = true
    cases os.restore slot with
    | ok => simpa [BridgeView.after, route, hne] using hother
    | error => exact hother

theorem drop_in_turn (os : Installer) (ht : Told v b) (hm : v.Matched) :
    Along AskedInTurn v (b.drop os).events := by
  have hvacate (l : List FaultSlot) (w : BridgeView η) :
      Along AskedInTurn w (l.flatMap b.vacate) := by
    induction l generalizing w with
    | nil => trivial
    | cons slot l ih =>
      rw [List.flatMap_cons, along_append]
      refine ⟨?_, ih _⟩
      unfold vacate
      cases b.slots slot with
      | none => trivial
      | some h => exact ⟨trivial, trivial, trivial⟩
  refine along_append.mpr ⟨detach_in_turn os ht hm, ?_⟩
  exact along_append.mpr ⟨hvacate _ _, askedInTurn_free _⟩

theorem isRegistered_iff {signal : UInt64} : b.isRegistered signal = true ↔
    ∃ slot, faultSlot signal = .ok slot ∧ (b.slots slot).isSome = true := by
  unfold isRegistered
  cases faultSlot signal with
  | error e => simp
  | ok slot => simp

/-- A new handler in the place of another one is no matter of the system. -/
theorem asked_reregister (os : Installer) {signal : UInt64} (hs : b.isRegistered signal = true)
    (handler : Option η) : asked (b.register os signal handler).events = [] := by
  obtain ⟨slot, hs, ho⟩ := isRegistered_iff.mp hs
  obtain ⟨old, ho⟩ := Option.isSome_iff_exists.mp ho
  cases handler with
  | none => rfl
  | some h =>
    simp only [register, hs, ho]
    exact asked_free _

theorem register_reports (os : Installer) (signal : UInt64) (handler : Option η) :
    (b.register os signal handler).Reports b
      (handler = none ∨ ∀ slot, faultSlot signal ≠ .ok slot) := by
  cases handler with
  | none => exact .rejected [] rfl (.inl rfl) rfl rfl
  | some h =>
    unfold register
    cases hs : faultSlot signal with
    | error e =>
      cases faultSlot_error hs
      exact .rejected [h] rfl (.inr nofun) rfl rfl
    | ok slot =>
      have hvalid : ¬ (some h = none ∨ ∀ other, (.ok slot : Outcome FaultSlot) ≠ .ok other) := by
        simp
      cases ho : b.slots slot with
      | some old =>
        simp only [ho]
        exact .granted rfl (.inl (asked_free _)) hvalid
      | none =>
        cases hi : os.install slot with
        | ok =>
          simp only [ho, hi]
          exact .granted rfl (.inr (congrArg (_ :: ·) (asked_free _))) hvalid
        | error e =>
          simp only [ho, hi, store_undone ho]
          have hasked := congrArg (Except.error e :: ·) (asked_free (b.retire [h]).1)
          refine .refused rfl hasked hvalid (retire_slots b [h]) fun v => ?_
          simp only [afterAll_cons, afterAll_free]
          rfl

theorem unregister_reports (os : Installer) (signal : UInt64) :
    (b.unregister os signal).Reports b (b.isRegistered signal = false) := by
  unfold unregister isRegistered
  cases hs : faultSlot signal with
  | error e =>
    cases faultSlot_error hs
    exact .rejected [] rfl rfl rfl rfl
  | ok slot =>
    cases ho : b.slots slot with
    | none =>
      simp only [ho]
      exact .rejected [] rfl rfl rfl rfl
    | some h =>
      cases hr : os.restore slot with
      | error e =>
        simp only [ho, hr]
        exact .refused rfl rfl (by simp) rfl fun _ => rfl
      | ok =>
        simp only [ho, hr]
        exact .granted rfl (.inr (congrArg (_ :: ·) (asked_free _))) (by simp)

/-- Handler slots and dispositions never diverge. Between operations a signal is registered exactly
if it is routed to the bridge, also inside a running handler. The system is asked only for a change,
up to the end of the bridge, and a signal is never routed to an empty slot on the way. -/
theorem History.in_step (hr : History given es b) :
    (∀ signal, b.isRegistered signal = true ↔ ∃ slot, faultSlot signal = .ok slot ∧
      (BridgeView.initial.afterAll es).installed slot = true) ∧
    (∀ os, Along AskedInTurn .initial (es ++ (b.drop os).events)) ∧
    Along LeavesCovered .initial es ∧
    (∀ os signal handler, b.isRegistered signal = true →
      asked (b.register os signal handler).events = []) ∧
    (∀ os signal handler, (b.register os signal handler).Reports b
      (handler = none ∨ ∀ slot, faultSlot signal ≠ .ok slot)) ∧
    ∀ os signal, (b.unregister os signal).Reports b (b.isRegistered signal = false) := by
  obtain ⟨hm, hc, ht⟩ := hr.matched
  refine ⟨fun signal => ?_, fun os => ?_, hc, fun os signal handler hs => ?_,
    register_reports, unregister_reports⟩
  · rw [isRegistered_iff]
    refine exists_congr fun slot => and_congr_right fun _ => ?_
    rw [hm slot, hr.told.slots]
  · exact along_append.mpr ⟨ht, drop_in_turn os hr.told hm⟩
  · exact asked_reregister os hs handler

/-- Three registrations, of which the system refuses the last. -/
theorem History.in_step_sample : ∃ (es : List (BridgeEvent Nat)) (b : Bridge Nat),
    History [0, 1, 2] es b ∧ Along AskedInTurn .initial (es ++ (b.drop .willing).events) ∧
    Along LeavesCovered .initial es := by
  obtain ⟨es, b, hr, -, -⟩ := History.sample
  have hs := History.in_step hr
  exact ⟨es, b, hr, hs.2.1 .willing, hs.2.2.1⟩

end Bridge

end FirmwareHost
