import FirmwareHost.Dispatch.HandlerTable
import FirmwareHost.Proofs.FailureReports
import FirmwareHost.Proofs.WireStatus
import Mathlib.Data.Finmap

/-! The service over a handler table, next to a reference machine that has no mailbox: a finite map
of handlers and the state of the installer. It knows its wire statuses by their values. -/

namespace FirmwareHost

variable {β ι : Type}

structure Reference (β ι : Type) where
  handlers : Finmap fun _ : Guid => PrmHandler β
  installer : ι

namespace Reference

def invalidParameter : UInt32 := 0x80000002
def unsupported : UInt32 := 0x80000003
def badBufferSize : UInt32 := 0x80000004
def notFound : UInt32 := 0x8000000E

/-- The wire value of a status: the three bits above bit 60, and the 29 lowest. -/
def wire (s : Status) : UInt32 := .ofNat (2 ^ 29 * (s.word.toNat / 2 ^ 61) + s.word.toNat % 2 ^ 29)

theorem wire_eq (s : Status) : wire s = s.toWire := by
  apply UInt32.toBitVec_inj.mp
  apply BitVec.eq_of_getLsbD_eq
  intro i hi
  have hlow : s.word.toNat % 2 ^ 29 < 2 ^ 29 := Nat.mod_lt _ (by decide)
  have hw : (wire s).toBitVec.getLsbD i =
      (2 ^ 29 * (s.word.toNat / 2 ^ 61) + s.word.toNat % 2 ^ 29).testBit i := by
    change (BitVec.ofNat 32 _).getLsbD i = _
    rw [BitVec.getLsbD_ofNat, decide_eq_true hi, Bool.true_and]
  rw [hw, Status.bit_toWire, Nat.testBit_two_pow_mul_add _ hlow, Nat.testBit_mod_two_pow,
    Nat.testBit_div_two_pow]
  by_cases hl : i < 29
  · simp only [hl, if_true, decide_true, Bool.true_and]
    rfl
  · have he : i - 29 + 61 = i + 32 := by omega
    simp only [hl, hi, if_false, if_true, he]
    rfl

/-- Later handlers replace earlier ones of the same GUID. -/
def insertAll (m : Reference β ι) (hs : List (PrmHandler β)) : Reference β ι :=
  hs.foldl (fun m h => { m with handlers := m.handlers.insert h.guid h }) m

def install (code : HandlerCode β ι) (capacity : Nat) (package : Bytes) (m : Reference β ι) :
    UInt32 × Reference β ι :=
  if package = [] then (invalidParameter, m)
  else if capacity < 4 + package.length ∨ lengthLimit ≤ package.length then
    (badBufferSize, m)
  else
    match code.install with
    | none => (unsupported, m)
    | some install =>
      match install package m.installer with
      | (.error e, installer) => (wire e.status, { m with installer })
      | (.ok handlers, installer) => (0, { m with installer }.insertAll handlers)

/-- Nothing where the handler's body panics. -/
def invoke (code : HandlerCode β ι) (capacity : Nat) (text : String) (parameters : Bytes)
    (m : Reference β ι) : Option (InvokeReply × Reference β ι) :=
  match Guid.parse text with
  | .error _ => some (⟨[], 0, invalidParameter⟩, m)
  | .ok guid =>
    if parameters = [] then some (⟨[], 0, invalidParameter⟩, m)
    else if capacity < 28 + parameters.length ∨ lengthLimit ≤ parameters.length then
      some (⟨[], 0, badBufferSize⟩, m)
    else
      match m.handlers.lookup guid with
      | none => some (⟨parameters, 0, notFound⟩, m)
      | some h =>
        match code.run parameters h.body with
        | (none, _) => none
        | (some (status, edited), body) => some (⟨edited.val, wire status, 0⟩,
            { m with handlers := m.handlers.insert guid { h with body } })

def debugInfo (capacity : Nat) (text : String) (m : Reference β ι) : DebugInfoReply :=
  match Guid.parse text with
  | .error _ => ⟨[], "", invalidParameter⟩
  | .ok guid =>
    match m.handlers.lookup guid with
    | none => ⟨[], "", notFound⟩
    | some h =>
      if capacity < 24 + h.acpi.length + h.name.utf8ByteSize ∨ lengthLimit ≤ h.acpi.length ∨
          lengthLimit ≤ h.name.utf8ByteSize then ⟨[], "", badBufferSize⟩
      else ⟨h.acpi, h.name, 0⟩

def answer (code : HandlerCode β ι) (capacity : Nat) (m : Reference β ι) :
    Call → Option (Reply × Reference β ι)
  | .installPackage package =>
    let (status, m) := m.install code capacity package
    some (.status status, m)
  | .enumerateHandlers => some (.handlers ⟨unsupported, []⟩, m)
  | .invokeHandler text parameters =>
    (m.invoke code capacity text parameters).map fun (r, m) => (.invoke r, m)
  | .uninstallModule _ => some (.status unsupported, m)
  | .getHandlerDebugInfo text => some (.debugInfo (m.debugInfo capacity text), m)

def answerAll (code : HandlerCode β ι) (capacity : Nat) :
    List Call → Reference β ι → Option (List Reply)
  | [], _ => some []
  | c :: cs, m =>
    match m.answer code capacity c with
    | none => none
    | some (x, m) => (answerAll code capacity cs m).map (x :: ·)

end Reference

variable {code : HandlerCode β ι} {capacity : Nat} {t t' : HandlerTable β ι} {m m' : Reference β ι}

namespace HandlerTable

theorem find?_replace (h : PrmHandler β) (l : List (PrmHandler β)) (guid : Guid) :
    (l.map fun old => if old.guid = h.guid then h else old).find? (fun h => h.guid = guid) =
      if guid = h.guid then (l.find? fun h => h.guid = guid).map fun _ => h
      else l.find? fun h => h.guid = guid := by
  induction l with
  | nil => simp
  | cons old l ih =>
    rw [List.map_cons, List.find?_cons, List.find?_cons, ih]
    by_cases ho : old.guid = h.guid
    · by_cases hg : guid = h.guid
      · simp [ho, hg]
      · simp [ho, hg, Ne.symm hg]
    · by_cases hg : guid = h.guid
      · simp [ho, hg]
      · simp [ho, hg]

theorem find?_insert (t : HandlerTable β ι) (h : PrmHandler β) (guid : Guid) :
    (t.insert h).find? guid = if guid = h.guid then some h else t.find? guid := by
  unfold insert
  by_cases hc : t.contains h.guid = true
  · simp only [hc, if_true, find?, find?_replace]
    by_cases hg : guid = h.guid
    · obtain ⟨old, ho⟩ := Option.isSome_iff_exists.mp hc
      unfold find? at ho
      simp [hg, ho]
    · simp [hg]
  · have hn : t.find? h.guid = none := by simpa [contains] using hc
    simp only [hc, find?]
    by_cases hg : guid = h.guid
    · unfold find? at hn
      simp [hg, hn]
    · simp [hg, Ne.symm hg]

@[simp] theorem installer_insert (t : HandlerTable β ι) (h : PrmHandler β) :
    (t.insert h).installer = t.installer := by
  unfold insert
  split <;> rfl

end HandlerTable

/-- The table and the reference machine find the same handlers. -/
structure Agrees (t : HandlerTable β ι) (m : Reference β ι) : Prop where
  lookup : ∀ guid, m.handlers.lookup guid = t.find? guid
  installer : m.installer = t.installer

theorem Agrees.insert (ha : Agrees t m) {guid : Guid} {h : PrmHandler β} (hg : h.guid = guid) :
    Agrees (t.insert h) { m with handlers := m.handlers.insert guid h } := by
  subst hg
  refine ⟨fun guid => ?_, by simpa using ha.installer⟩
  rw [HandlerTable.find?_insert]
  by_cases hg : guid = h.guid
  · subst hg
    simp
  · rw [Finmap.lookup_insert_of_ne _ hg, ha.lookup]
    simp [hg]

theorem Agrees.insertAll (ha : Agrees t m) (hs : List (PrmHandler β)) :
    Agrees (hs.foldl HandlerTable.insert t) (m.insertAll hs) := by
  unfold Reference.insertAll
  induction hs generalizing t m with
  | nil => exact ha
  | cons h hs ih => exact ih (ha.insert rfl)

namespace Call

theorem fail_congr {e f : Failure} (h : e.status = f.status) (c : Call) : c.fail e = c.fail f := by
  cases c <;> simp [fail, Failure.wire, h]

theorem reply_of_error {c : Call} {e : Failure} {w : Response}
    (hc : ∀ text parameters, c ≠ .invokeHandler text parameters) (he : e.status.isError = true) :
    c.reply (.ok (e.status, w)) = c.fail e := by
  have hf : c.fail (.ofStatus e.status) = c.fail e := fail_congr (Failure.status_ofStatus _) c
  cases c with
  | invokeHandler text parameters => exact absurd rfl (hc text parameters)
  | _ => simp only [reply, roundTrip_of_error he, hf]

theorem settle_of_outcome {σ : Type} {d : Dispatcher σ} {c : Call} {r : Request} {y z : σ}
    {result : Outcome Exchanged} (hc : c.request = .ok r)
    (ho : d.outcome capacity r y = (some result, z)) :
    c.settle d capacity y = some (c.reply result, z) := by
  simp only [settle, hc, ho]

end Call

/-- The installer's failures have the error bit. -/
def HandlerCode.Plain (code : HandlerCode β ι) : Prop :=
  ∀ install, code.install = some install → ∀ package y e z,
    install package y = (.error e, z) → e.status.isError = true

namespace HandlerTable

section Handle

variable (code : HandlerCode β ι) (t : HandlerTable β ι)

theorem handle_install (package : Bytes) :
    (dispatcher code).handle (.installPackage package) t =
      (.returned ((t.installPackage code package).1.map fun _ => .empty),
        (t.installPackage code package).2) :=
  rfl

theorem handle_invoke (guid : Guid) (parameters : Bytes) :
    (dispatcher code).handle (.invokeHandler guid parameters) t =
      ((t.invoke code guid parameters).1.map fun (status, buffer) => .invoke status buffer.val,
        (t.invoke code guid parameters).2) :=
  rfl

theorem handle_debugInfo (guid : Guid) :
    (dispatcher code).handle (.getHandlerDebugInfo guid) t =
      (.returned ((t.debugInfo guid).map .debugInfo), t) :=
  rfl

end Handle

theorem guid_of_find? {guid : Guid} {h : PrmHandler β} (hf : t.find? guid = some h) :
    h.guid = guid := by
  unfold find? at hf
  simpa using List.find?_some hf

end HandlerTable

theorem Agrees.install (ha : Agrees t m) (hcode : code.Plain) (package : Bytes) :
    ∃ t', Call.settle (HandlerTable.dispatcher code) capacity (.installPackage package) t =
        some (.status (m.install code capacity package).1, t') ∧
      Agrees t' (m.install code capacity package).2 := by
  unfold Reference.install
  by_cases hp : package = []
  · subst hp
    exact ⟨t, rfl, ha⟩
  have hreq : (Call.installPackage package).request = .ok (.installPackage package) := by
    simp only [Call.request_installPackage, hp, if_false]
  by_cases hf : capacity < 4 + package.length ∨ lengthLimit ≤ package.length
  · simp only [hp, hf, if_true, if_false]
    have hn : ¬ Request.Fits capacity (.installPackage package) := Request.not_fits.mpr hf
    exact ⟨t, Call.settle_of_outcome hreq (Dispatcher.outcome_of_not_fits hn), ha⟩
  simp only [hp, hf, if_false]
  have hfit : Request.Fits capacity (.installPackage package) :=
    Classical.not_not.mp (mt Request.not_fits.mp hf)
  have hfail {e : Failure} {t' : HandlerTable β ι}
      (hi : t.installPackage code package = (.error e, t')) (he : e.status.isError = true) :
      Call.settle (HandlerTable.dispatcher code) capacity (.installPackage package) t =
        some (.status (Reference.wire e.status), t') := by
    have hh := HandlerTable.handle_install code t package
    rw [hi] at hh
    rw [Call.settle_of_outcome hreq (Dispatcher.outcome_of_error hfit hh),
      Call.reply_of_error (by simp) he, Reference.wire_eq]
    rfl
  cases hc : code.install with
  | none =>
    refine ⟨t, hfail (e := .unsupported) ?_ rfl, ha⟩
    simp [HandlerTable.installPackage, hp, hc]
  | some install =>
    dsimp only
    rw [ha.installer]
    cases hi : install package t.installer with
    | mk result installer =>
      cases result with
      | error e =>
        refine ⟨{ t with installer }, hfail ?_ (hcode install hc package _ e _ hi), ha.lookup, rfl⟩
        simp [HandlerTable.installPackage, hp, hc, hi]
      | ok handlers =>
        have hinstall : t.installPackage code package =
            (.ok (), handlers.foldl HandlerTable.insert { t with installer }) := by
          simp [HandlerTable.installPackage, hp, hc, hi]
        have hh := HandlerTable.handle_install code t package
        rw [hinstall] at hh
        have hw : Response.Fits capacity .empty := ⟨Nat.zero_le _, rfl⟩
        have hinstaller : Agrees { t with installer } { m with installer } := ⟨ha.lookup, rfl⟩
        exact ⟨_, Call.settle_of_outcome hreq (Dispatcher.outcome_of_ok hfit hw hh),
          hinstaller.insertAll handlers⟩

theorem Agrees.invoke (ha : Agrees t m) (code : HandlerCode β ι) (capacity : Nat) (text : String)
    (parameters : Bytes) :
    match m.invoke code capacity text parameters with
    | none =>
      Call.settle (HandlerTable.dispatcher code) capacity (.invokeHandler text parameters) t = none
    | some (r, m') => ∃ t', Call.settle (HandlerTable.dispatcher code) capacity
        (.invokeHandler text parameters) t = some (.invoke r, t') ∧ Agrees t' m' := by
  unfold Reference.invoke
  -- the same checks in the same order: the text, the parameters, the room, and only then the table
  cases hg : Guid.parse text with
  | error e =>
    refine ⟨t, ?_, ha⟩
    simp only [Call.settle, Call.request_invokeHandler, hg, Call.fail]
    rfl
  | ok guid =>
    by_cases hp : parameters = []
    · subst hp
      refine ⟨t, ?_, ha⟩
      simp only [Call.settle, Call.request_invokeHandler, hg, if_true, Call.fail]
      rfl
    have hreq : (Call.invokeHandler text parameters).request =
        .ok (.invokeHandler guid parameters) := by
      simp only [Call.request_invokeHandler, hg, hp, if_false]
    by_cases hf : capacity < 28 + parameters.length ∨ lengthLimit ≤ parameters.length
    · simp only [hp, hf, if_true, if_false]
      have hn : ¬ Request.Fits capacity (.invokeHandler guid parameters) := Request.not_fits.mpr hf
      exact ⟨t, Call.settle_of_outcome hreq (Dispatcher.outcome_of_not_fits hn), ha⟩
    simp only [hp, hf, if_false]
    have hfit : Request.Fits capacity (.invokeHandler guid parameters) :=
      Classical.not_not.mp (mt Request.not_fits.mp hf)
    have hh := HandlerTable.handle_invoke code t guid parameters
    rw [ha.lookup]
    cases hfind : t.find? guid with
    | none =>
      simp only [HandlerTable.invoke, hfind] at hh
      exact ⟨t, Call.settle_of_outcome hreq (Dispatcher.outcome_of_error hfit hh), ha⟩
    | some h =>
      dsimp only
      cases hrun : code.run parameters h.body with
      | mk result body =>
        simp only [HandlerTable.invoke, hfind, hrun] at hh
        cases result with
        | none => simp only [Call.settle, hreq, Dispatcher.outcome_of_panic hfit hh]
        | some edited =>
          have hw : Response.Fits capacity (.invoke edited.1 edited.2.val) := by
            have hfit : invokeHeaderSize + parameters.length ≤ capacity ∧
              parameters.length < lengthLimit := hfit
            simpa [Response.Fits, Response.encodedLength, Response.fitsLengths, edited.2.property]
          have hguid := HandlerTable.guid_of_find? hfind
          simp only [Reference.wire_eq]
          exact ⟨_, Call.settle_of_outcome hreq (Dispatcher.outcome_of_ok hfit hw hh),
            ha.insert hguid⟩

theorem DebugInfo.not_fits {info : DebugInfo} :
    ¬ Response.Fits capacity (.debugInfo info) ↔
      capacity < 24 + info.acpi.length + info.name.utf8ByteSize ∨
        lengthLimit ≤ info.acpi.length ∨ lengthLimit ≤ info.name.utf8ByteSize := by
  rw [Response.not_fits]
  simp only [Response.encodedLength, Response.fitsLengths, debugInfoHeaderSize, Utf8.length_encode,
    Bool.and_eq_false_iff, decide_eq_false_iff_not, Nat.not_lt, Nat.add_assoc]

theorem Agrees.debugInfo (ha : Agrees t m) (hbig : debugInfoHeaderSize ≤ capacity) (text : String) :
    Call.settle (HandlerTable.dispatcher code) capacity (.getHandlerDebugInfo text) t =
      some (.debugInfo (m.debugInfo capacity text), t) := by
  unfold Reference.debugInfo
  cases hg : Guid.parse text with
  | error e =>
    simp only [Call.settle, Call.request_getHandlerDebugInfo, hg, Call.fail]
    rfl
  | ok guid =>
    have hreq : (Call.getHandlerDebugInfo text).request = .ok (.getHandlerDebugInfo guid) := by
      simp only [Call.request_getHandlerDebugInfo, hg]
    have hfit : Request.Fits capacity (.getHandlerDebugInfo guid) := by
      refine ⟨?_, show 0 < lengthLimit by decide⟩
      simp only [debugInfoHeaderSize] at hbig
      simp only [Request.encodedLength]
      omega
    have hh := HandlerTable.handle_debugInfo code t guid
    dsimp only
    rw [ha.lookup]
    cases hfind : t.find? guid with
    | none =>
      simp only [HandlerTable.debugInfo, hfind] at hh
      rw [Call.settle_of_outcome hreq (Dispatcher.outcome_of_error hfit hh),
        Call.reply_of_error (by simp) rfl]
      rfl
    | some h =>
      simp only [HandlerTable.debugInfo, hfind] at hh
      -- the request always has room, its answer need not
      by_cases hw : Response.Fits capacity (.debugInfo ⟨h.acpi, h.name⟩)
      · have hc := mt DebugInfo.not_fits.mpr (not_not_intro hw)
        rw [Call.settle_of_outcome hreq (Dispatcher.outcome_of_ok hfit hw hh)]
        simp only [hc, if_false]
        rfl
      · have hc := DebugInfo.not_fits.mp hw
        rw [Call.settle_of_outcome hreq (Dispatcher.outcome_of_outgrown hfit hw hh)]
        simp only [hc, if_true]
        rfl

theorem Agrees.answer (ha : Agrees t m) (hcode : code.Plain) (hbig : debugInfoHeaderSize ≤ capacity)
    (c : Call) :
    match m.answer code capacity c with
    | none => c.settle (HandlerTable.dispatcher code) capacity t = none
    | some (x, m') => ∃ t', c.settle (HandlerTable.dispatcher code) capacity t = some (x, t') ∧
        Agrees t' m' := by
  cases c with
  | installPackage package => exact ha.install hcode package
  | enumerateHandlers | uninstallModule => exact ⟨t, rfl, ha⟩
  | invokeHandler text parameters =>
    have hi := ha.invoke code capacity text parameters
    cases hm : m.invoke code capacity text parameters with
    | none | some =>
      rw [hm] at hi
      simp only [Reference.answer, hm]
      exact hi
  | getHandlerDebugInfo text => exact ⟨t, ha.debugInfo hbig text, ha⟩

theorem Agrees.answerAll (ha : Agrees t m) (hcode : code.Plain)
    (hbig : debugInfoHeaderSize ≤ capacity) (cs : List Call) :
    (Call.settleAll (HandlerTable.dispatcher code) capacity cs t).map Prod.fst =
      m.answerAll code capacity cs := by
  induction cs generalizing t m with
  | nil => rfl
  | cons c cs ih =>
    have hc := ha.answer hcode hbig c
    cases hm : m.answer code capacity c with
    | none =>
      rw [hm] at hc
      simp only [Call.settleAll, Reference.answerAll, hm, hc]
      rfl
    | some found =>
      rw [hm] at hc
      obtain ⟨t', hsettle, ha'⟩ := hc
      simp only [Call.settleAll, Reference.answerAll, hm, hsettle, ← ih ha', Option.map_map]
      rfl

end FirmwareHost
