import FirmwareHost.Dispatch.Dispatcher
import FirmwareHost.Proofs.Posting
import FirmwareHost.Proofs.Utf8Reading

/-! What an answer leaves in the mailbox. It keeps the function and the request's number, and what
it leaves can be read both as a response and, once more, as a request. The dispatcher is called for
the request that was read there and for no other. -/

namespace FirmwareHost

variable {σ : Type}

/-- No method of the dispatcher panics. -/
def Dispatcher.Calm (d : Dispatcher σ) : Prop := ∀ r y, (d.handle r y).1 ≠ .panicked

/-- The kinds of response that a request can get. An invocation keeps the length of its buffer. -/
def Response.Suits (r : Request) : Response → Prop
  | .empty => r.function ≠ .invokeHandler ∧ r.function ≠ .getHandlerDebugInfo
  | .invoke _ edited => ∃ guid parameters,
      r = .invokeHandler guid parameters ∧ edited.length = parameters.length
  | .debugInfo _ => ∃ guid, r = .getHandlerDebugInfo guid

/-- The functions whose requests get responses of a kind. -/
def Response.Belongs (f : FunctionCode) : Response → Prop
  | .empty => f ≠ .invokeHandler ∧ f ≠ .getHandlerDebugInfo
  | .invoke .. => f = .invokeHandler
  | .debugInfo _ => f = .getHandlerDebugInfo

theorem Response.Suits.belongs {r : Request} {w : Response} (hs : w.Suits r) :
    w.Belongs r.function := by
  cases w with
  | empty => exact hs
  | invoke status edited =>
    obtain ⟨guid, parameters, rfl, -⟩ := hs
    exact rfl
  | debugInfo info =>
    obtain ⟨guid, rfl⟩ := hs
    exact rfl

theorem Ended.map_eq_returned_ok {α β : Type} {f : α → β} {e : Ended α} {b : β}
    (h : e.map f = .returned (.ok b)) : ∃ a, e = .returned (.ok a) ∧ f a = b := by
  cases e with
  | panicked => cases h
  | returned result =>
    cases result with
    | error e => cases h
    | ok a => exact ⟨a, rfl, by simpa [Ended.map, Except.map] using h⟩

namespace Dispatcher

variable {d : Dispatcher σ}

theorem suits_of_handle {r : Request} {w : Response} {y z : σ}
    (h : d.handle r y = (.returned (.ok w), z)) : w.Suits r := by
  have hw := congrArg Prod.fst h
  cases r with
  | invokeHandler guid parameters =>
    obtain ⟨⟨status, buffer⟩, -, rfl⟩ := Ended.map_eq_returned_ok hw
    exact ⟨guid, parameters, rfl, buffer.property⟩
  | getHandlerDebugInfo guid =>
    obtain ⟨info, -, rfl⟩ := Ended.map_eq_returned_ok hw
    exact ⟨guid, rfl⟩
  | _ =>
    obtain ⟨_, -, rfl⟩ := Ended.map_eq_returned_ok hw
    exact ⟨nofun, nofun⟩

end Dispatcher

namespace Response

theorem length_layout {w : Response} (h : w ≠ .empty) : 16 + w.layout.length = w.encodedLength := by
  cases w with
  | empty => exact absurd rfl h
  | invoke status edited => simp [layout, encodedLength, invokeHeaderSize]; omega
  | debugInfo info => simp [layout, encodedLength, debugInfoHeaderSize]; omega

def writeTo (w : Response) (m : Region) : Region :=
  { m with payload := overwrite 16 w.layout m.payload }

/-- What a response leaves that breaks off at a length too long for its field. -/
def breakOff (w : Response) (m : Region) : Region :=
  { m with payload := overwrite 16 w.begun m.payload }

theorem encode_eq_ok {w : Response} {m k : Region} (h : w.encode m = (.ok (), k)) :
    k = m ∨ (w ≠ .empty ∧ w.encodedLength ≤ m.payload.length ∧ w.fitsLengths = true ∧
      k = w.writeTo m) := by
  unfold encode at h
  split at h
  · cases h
  next hc =>
  split at h
  · next hl =>
    cases w with
    | empty => exact .inl (Prod.mk.inj h).2.symm
    | _ => exact .inr ⟨nofun, by omega, hl, (Prod.mk.inj h).2.symm⟩
  · cases h

theorem encode_eq_error {w : Response} {m k : Region} {e : Failure}
    (h : w.encode m = (.error e, k)) : e = .badBufferSize ∧
      (k = m ∨ (w.encodedLength ≤ m.payload.length ∧ w.fitsLengths = false ∧
        k = w.breakOff m)) := by
  unfold encode at h
  split at h
  · cases h
    exact ⟨rfl, .inl rfl⟩
  next hc =>
  split at h
  · cases w <;> cases h
  · next hl =>
    cases h
    exact ⟨rfl, .inr ⟨by omega, by simpa using hl, rfl⟩⟩

theorem length_writeTo {w : Response} {m : Region} (hw : w ≠ .empty)
    (h : w.encodedLength ≤ m.payload.length) :
    (w.writeTo m).payload.length = m.payload.length :=
  length_overwrite (by rw [length_layout hw]; exact h)

theorem length_breakOff {w : Response} {m : Region} (hw : w ≠ .empty)
    (h : w.encodedLength ≤ m.payload.length) :
    (w.breakOff m).payload.length = m.payload.length := by
  apply length_overwrite
  cases w with
  | empty => exact absurd rfl hw
  | invoke status edited =>
    simp only [encodedLength, invokeHeaderSize] at h
    simp only [begun, length_littleEndian]
    omega
  | debugInfo info =>
    simp only [encodedLength, debugInfoHeaderSize] at h
    simp only [begun]
    split <;> simp <;> omega

end Response

namespace Request

theorem function_of_decode {m : Region} {r : Request} (h : decode m = .ok r) :
    FunctionCode.ofCode m.header.function = .ok r.function := by
  unfold decode at h
  cases hf : FunctionCode.ofCode m.header.function with
  | error e => simp [hf, bind, Except.bind] at h
  | ok f =>
    cases f with
    | enumerateHandlers =>
      simp only [hf, bind, Except.bind] at h
      cases h
      rfl
    | uninstallModule | getHandlerDebugInfo =>
      simp only [hf, bind, Except.bind] at h
      split at h
      · cases h
      · cases h
        rfl
    | installPackage | invokeHandler =>
      simp only [hf, bind, Except.bind] at h
      split at h
      · cases h
      · split at h
        · cases h
        · cases h
          rfl

/-- A request that was read lies within the payload. -/
theorem bounds_of_decode {m : Region} {r : Request} (h : decode m = .ok r) :
    r.encodedLength ≤ m.payload.length ∧ r.data.length < lengthLimit := by
  have hf := function_of_decode h
  unfold decode at h
  simp only [hf, bind, Except.bind] at h
  cases r with
  | enumerateHandlers => exact ⟨Nat.zero_le _, by decide⟩
  | uninstallModule | getHandlerDebugInfo =>
    simp only [function] at h
    split at h
    · cases h
    · next hh => exact ⟨le_of_requireHeader hh, show 0 < lengthLimit by decide⟩
  | installPackage package | invokeHandler guid package =>
    simp only [function] at h
    split at h
    · cases h
    next hh =>
    split at h
    · cases h
    next bytes ht =>
    cases h
    obtain ⟨hlen, hle⟩ := length_of_takeExactly ht
    have hword := hlen ▸ wordAt_lt _ 4 m.payload
    have hroom := le_of_requireHeader hh
    simp only [List.length_drop] at hle
    simp only [encodedLength, data, lengthLimit, UInt32.size, invokeHeaderSize] at *
    omega

end Request

namespace Dispatcher

variable {d : Dispatcher σ} {m n : Region} {y z : σ}

/-- Only handler debug information can have a part too long for its length field. -/
theorem debugInfo_of_overlong {r : Request} {w : Response} (hr : Request.decode m = .ok r)
    (hs : w.Suits r) (hl : w.fitsLengths = false) :
    ∃ guid info, r = .getHandlerDebugInfo guid ∧ w = .debugInfo info := by
  cases w with
  | empty => cases hl
  | invoke status edited =>
    obtain ⟨guid, parameters, rfl, hlen⟩ := hs
    have hlimit : parameters.length < lengthLimit := (Request.bounds_of_decode hr).2
    simp only [Response.fitsLengths, decide_eq_false_iff_not] at hl
    omega
  | debugInfo info =>
    obtain ⟨guid, rfl⟩ := hs
    exact ⟨guid, info, rfl, rfl⟩

/-- An answer writes a status over the request, and beside it at most the response that the
dispatcher gave, or the first length of one that breaks off. -/
theorem answer_eq_some (h : d.answer m y = (some n, z)) :
    (∃ status, n = (m.setStatus status).markAnswered) ∨
      (∃ (r : Request) (w : Response), Request.decode m = .ok r ∧ w.Suits r ∧ w ≠ .empty ∧
        w.encodedLength ≤ m.payload.length ∧ w.fitsLengths = true ∧
        n = ((w.writeTo m).setStatus .success).markAnswered) ∨
      ∃ guid info, Request.decode m = .ok (.getHandlerDebugInfo guid) ∧
        Response.encodedLength (.debugInfo info) ≤ m.payload.length ∧
        n = ((Response.breakOff (.debugInfo info) m).setStatus
          Status.badBufferSize).markAnswered := by
  unfold answer at h
  split at h
  · exact .inl ⟨_, (Option.some.inj (Prod.mk.inj h).1).symm⟩
  · next r hr =>
    split at h
    · cases h
    · exact .inl ⟨_, (Option.some.inj (Prod.mk.inj h).1).symm⟩
    · next w x hw =>
      split at h
      · next e k hk =>
        have hn := (Option.some.inj (Prod.mk.inj h).1).symm
        obtain ⟨rfl, rfl | ⟨hlen, hl, rfl⟩⟩ := Response.encode_eq_error hk
        · exact .inl ⟨_, hn⟩
        · obtain ⟨guid, info, rfl, rfl⟩ := debugInfo_of_overlong hr (suits_of_handle hw) hl
          exact .inr (.inr ⟨guid, info, hr, hlen, hn⟩)
      · next k hk =>
        have hn := (Option.some.inj (Prod.mk.inj h).1).symm
        rcases Response.encode_eq_ok hk with rfl | ⟨hne, hlen, hfit, rfl⟩
        · exact .inl ⟨_, hn⟩
        · exact .inr (.inl ⟨r, w, hr, suits_of_handle hw, hne, hlen, hfit, hn⟩)

theorem header_of_answer (h : d.answer m y = (some n, z)) :
    n.header.function = m.header.function ∧
      n.header.requestSequence = m.header.requestSequence ∧
      n.header.answeredSequence = m.header.requestSequence := by
  rcases answer_eq_some h with ⟨status, rfl⟩ | ⟨r, w, -, -, -, -, -, rfl⟩ |
      ⟨guid, info, -, -, rfl⟩ <;>
    exact ⟨rfl, rfl, rfl⟩

theorem length_of_answer (h : d.answer m y = (some n, z)) :
    n.payload.length = m.payload.length := by
  rcases answer_eq_some h with ⟨status, rfl⟩ | ⟨r, w, -, -, hne, hlen, -, rfl⟩ |
    ⟨guid, info, -, hlen, rfl⟩
  · rfl
  · exact Response.length_writeTo hne hlen
  · exact Response.length_breakOff nofun hlen

theorem Calm.answers (hd : d.Calm) (m : Region) (y : σ) :
    ∃ n z, d.answer m y = (some n, z) := by
  unfold answer
  split
  · exact ⟨_, _, rfl⟩
  · next r hr =>
    have hc := hd r y
    split
    · next z hz => simp [hz] at hc
    · exact ⟨_, _, rfl⟩
    · split <;> exact ⟨_, _, rfl⟩

theorem Calm.answer_ne_none (hd : d.Calm) : d.answer m y ≠ (none, z) := by
  intro h
  obtain ⟨n, w, hw⟩ := hd.answers m y
  simp [h] at hw

/-- The dispatcher that also notes each call it gets. -/
def recording (d : Dispatcher σ) : Dispatcher (σ × List Request) where
  installPackage package := fun (y, calls) =>
    let (e, y) := d.installPackage package y
    (e, y, calls ++ [.installPackage package])
  enumerateHandlers := fun (y, calls) =>
    let (e, y) := d.enumerateHandlers y
    (e, y, calls ++ [.enumerateHandlers])
  invokeHandler guid parameters := fun (y, calls) =>
    let (e, y) := d.invokeHandler guid parameters y
    (e, y, calls ++ [.invokeHandler guid parameters])
  uninstallModule guid := fun (y, calls) =>
    let (e, y) := d.uninstallModule guid y
    (e, y, calls ++ [.uninstallModule guid])
  debugInfo guid := fun (y, calls) =>
    let (e, y) := d.debugInfo guid y
    (e, y, calls ++ [.getHandlerDebugInfo guid])

theorem handle_recording (d : Dispatcher σ) (r : Request) (y : σ) (calls : List Request) :
    d.recording.handle r (y, calls) = ((d.handle r y).1, (d.handle r y).2, calls ++ [r]) := by
  cases r <;> rfl

theorem Calm.recording (hd : d.Calm) : d.recording.Calm := by
  intro r y
  rw [handle_recording]
  exact hd r y.1

theorem answer_recording (d : Dispatcher σ) (m : Region) (y : σ) (calls : List Request) :
    d.recording.answer m (y, calls) = ((d.answer m y).1, (d.answer m y).2,
      calls ++ (Request.decode m).toOption.toList) := by
  unfold answer
  cases hr : Request.decode m with
  | error e => simp [Except.toOption]
  | ok r =>
    simp only [handle_recording]
    cases hh : d.handle r y with
    | mk ended z =>
      cases ended with
      | panicked => rfl
      | returned result =>
        cases result with
        | error e => rfl
        | ok w =>
          cases hw : w.encode m with
          | mk outcome k => cases outcome <;> simp [hw, Except.toOption]

/-- The dispatcher is handed the request that the region reads as, and nothing else. -/
theorem calls_of_answer {r : Request} (hr : Request.decode m = .ok r)
    (hn : d.answer m y = (some n, z)) (calls : List Request) :
    d.recording.answer m (y, calls) = (some n, z, calls ++ [r]) := by
  rw [answer_recording, hn, hr]
  rfl

end Dispatcher

theorem Request.decode_congr {m n : Region} (hf : n.header.function = m.header.function)
    (hp : n.payload = m.payload) : decode n = decode m := by
  unfold decode
  rw [hf, hp]

namespace Response

variable {m : Region}

theorem payload_writeTo_invoke (status : Status) (edited : Bytes) (h : 16 ≤ m.payload.length) :
    ∃ front after : Bytes, front.length = 16 ∧ (writeTo (.invoke status edited) m).payload =
      front ++ (littleEndian 8 status.word.toNat ++
        (littleEndian 4 edited.length ++ (edited ++ after))) :=
  ⟨m.payload.take 16, m.payload.drop (16 + (layout (.invoke status edited)).length), by simp [h],
    by simp only [writeTo, overwrite, layout, List.append_assoc]⟩

theorem payload_writeTo_debugInfo (info : DebugInfo) (h : 16 ≤ m.payload.length) :
    ∃ front after : Bytes, front.length = 16 ∧ (writeTo (.debugInfo info) m).payload =
      front ++ (littleEndian 4 info.acpi.length ++ (littleEndian 4 (Utf8.encode info.name).length ++
        (info.acpi ++ (Utf8.encode info.name ++ after)))) :=
  ⟨m.payload.take 16, m.payload.drop (16 + (layout (.debugInfo info)).length), by simp [h],
    by simp only [writeTo, overwrite, layout, List.append_assoc]⟩

end Response

/-- An answered mailbox still holds a request: it would be handed over again. -/
theorem Dispatcher.decode_of_answer {d : Dispatcher σ} {m n : Region} {y z : σ} {r : Request}
    (hr : Request.decode m = .ok r) (h : d.answer m y = (some n, z)) :
    ∃ r', Request.decode n = .ok r' := by
  have hf := (header_of_answer h).1
  have hcode : FunctionCode.ofCode n.header.function = .ok r.function := by
    rw [hf]
    exact Request.function_of_decode hr
  have hheld {guid : Guid} (hg : r = .getHandlerDebugInfo guid)
      (hlen : debugInfoHeaderSize ≤ m.payload.length) : ∃ r', Request.decode n = .ok r' := by
    subst hg
    have hh : requireHeader 16 n.payload = .ok () := by
      apply requireHeader_of_le
      rw [length_of_answer h]
      exact Nat.le_trans (by decide) hlen
    simp only [Request.decode, hcode, Request.function, bind, Except.bind, hh]
    exact ⟨_, rfl⟩
  rcases answer_eq_some h with ⟨status, rfl⟩ | ⟨r', w, hr', hs, hne, hlen, hfit, hn⟩ |
    ⟨guid, info, hr', hlen, -⟩
  · exact ⟨r, (Request.decode_congr rfl rfl).trans hr⟩
  · obtain rfl := Except.ok.inj (hr.symm.trans hr')
    have hpay : n.payload = (w.writeTo m).payload := by rw [hn]; rfl
    unfold Request.decode
    cases w with
    | empty => exact absurd rfl hne
    | invoke status edited =>
      obtain ⟨guid, parameters, rfl, -⟩ := hs
      simp only [Response.encodedLength, invokeHeaderSize] at hlen
      obtain ⟨front, after, hfront, hp⟩ :=
        Response.payload_writeTo_invoke (m := m) status edited (by omega)
      rw [← List.append_assoc] at hp
      obtain ⟨hh, ht⟩ := read_invoke (by simp [hfront]) (hpay.trans hp)
        (by simpa [Response.fitsLengths] using hfit)
      simp only [hcode, Request.function, bind, Except.bind, hh, ht]
      exact ⟨_, rfl⟩
    | debugInfo info =>
      obtain ⟨guid, rfl⟩ := hs
      exact hheld rfl (Nat.le_trans (Nat.le_add_right _ _) hlen)
  · exact hheld (Except.ok.inj (hr.symm.trans hr')) (Nat.le_trans (Nat.le_add_right _ _) hlen)

namespace Response

theorem decode_invoke {front edited after : Bytes} {status : Status} {n : Region}
    (hf : front.length = 16) (hp : n.payload = front ++ (littleEndian 8 status.word.toNat ++
      (littleEndian 4 edited.length ++ (edited ++ after)))) (hl : edited.length < lengthLimit) :
    decode .invokeHandler n = .ok (.invoke status edited) := by
  have hw : wordAt 16 8 n.payload = status.word.toNat := hp ▸ wordAt_layout hf status.word.toNat_lt
  rw [← List.append_assoc] at hp
  obtain ⟨hh, ht⟩ := read_invoke (by simp [hf]) hp hl
  simp only [decode, bind, Except.bind, hh, ht, hw, UInt64.ofNat_toNat]
  rfl

theorem decode_debugInfo {front after : Bytes} {info : DebugInfo} {n : Region}
    (hf : front.length = 16) (hp : n.payload = front ++ (littleEndian 4 info.acpi.length ++
      (littleEndian 4 (Utf8.encode info.name).length ++
        (info.acpi ++ (Utf8.encode info.name ++ after)))))
    (hl : fitsLengths (.debugInfo info) = true) :
    decode .getHandlerDebugInfo n = .ok (.debugInfo info) := by
  have hl : info.acpi.length < lengthLimit ∧ (Utf8.encode info.name).length < lengthLimit := by
    simpa [fitsLengths] using hl
  obtain ⟨hh, ha, hn⟩ := read_debugInfo hf hp hl.1 hl.2
  simp only [decode, bind, Except.bind, hh, ha, hn, Utf8.decode_encode]
  rfl

end Response

/-- What a posted request itself reads as where a response is expected. -/
def Request.unanswered : Request → Response
  | .invokeHandler _ parameters => .invoke .success parameters
  | .getHandlerDebugInfo _ => .debugInfo ⟨[], ""⟩
  | _ => .empty

namespace Response

variable {r : Request} {q : UInt64} {capacity : Nat} {n : Region}

theorem decode_unanswered (hl : r.data.length < lengthLimit) (hc : debugInfoHeaderSize ≤ capacity)
    (hp : n.payload = r.layout ++ List.replicate (capacity - r.encodedLength) 0) :
    decode r.function n = .ok r.unanswered := by
  cases r with
  | invokeHandler guid parameters =>
    rw [Request.layout_invoke_append, List.append_assoc] at hp
    exact decode_invoke (Guid.length_toBytes guid) hp hl
  | getHandlerDebugInfo guid =>
    obtain ⟨k, hk⟩ : ∃ k, capacity - 16 = 4 + (4 + k) :=
      ⟨capacity - 24, by simp only [debugInfoHeaderSize] at hc; omega⟩
    have hzeros : n.payload = guid.toBytes ++ (littleEndian 4 (DebugInfo.mk [] "").acpi.length ++
        (littleEndian 4 (Utf8.encode (DebugInfo.mk [] "").name).length ++
          ([] ++ (Utf8.encode "" ++ List.replicate k 0)))) := by
      simp only [hp, Request.layout, Request.encodedLength, hk, ← List.replicate_append_replicate]
      rfl
    exact decode_debugInfo (Guid.length_toBytes guid) hzeros (by decide)
  | _ => rfl

/-- A response that was written is read back, whatever the payload held before. -/
theorem decode_writeTo {f : FunctionCode} {w : Response} {m : Region} (hb : w.Belongs f)
    (hne : w ≠ .empty) (hlen : w.encodedLength ≤ m.payload.length) (hfit : w.fitsLengths = true)
    (hp : n.payload = (w.writeTo m).payload) : decode f n = .ok w := by
  cases w with
  | empty => exact absurd rfl hne
  | invoke status edited =>
    subst hb
    simp only [encodedLength, invokeHeaderSize] at hlen
    obtain ⟨front, after, hfront, hw⟩ := payload_writeTo_invoke (m := m) status edited (by omega)
    exact decode_invoke hfront (hp.trans hw) (by simpa [fitsLengths] using hfit)
  | debugInfo info =>
    subst hb
    simp only [encodedLength, debugInfoHeaderSize] at hlen
    obtain ⟨front, after, hfront, hw⟩ := payload_writeTo_debugInfo (m := m) info (by omega)
    exact decode_debugInfo hfront (hp.trans hw) hfit

end Response

/-- Debug information that breaks off behind its first length reads as that many zeros. -/
theorem Response.decode_broken {guid : Guid} {q : UInt64} {capacity : Nat} {info : DebugInfo}
    {n : Region} (hl : info.acpi.length < lengthLimit)
    (hlen : encodedLength (.debugInfo info) ≤ capacity)
    (hp : n.payload = overwrite 16 (littleEndian 4 info.acpi.length)
      (Region.posted (.getHandlerDebugInfo guid) q capacity).payload) :
    decode .getHandlerDebugInfo n =
      .ok (.debugInfo ⟨List.replicate info.acpi.length 0, ""⟩) := by
  simp only [encodedLength, debugInfoHeaderSize] at hlen
  obtain ⟨k, hk⟩ : ∃ k, capacity - 16 - 4 = 4 + (info.acpi.length + k) :=
    ⟨capacity - 24 - info.acpi.length, by omega⟩
  have hposted : (Region.posted (.getHandlerDebugInfo guid) q capacity).payload =
      guid.toBytes ++ List.replicate (capacity - 16) 0 := rfl
  have htake : (guid.toBytes ++ List.replicate (capacity - 16) 0).take 16 = guid.toBytes :=
    List.take_left' (Guid.length_toBytes guid)
  have hdrop : (guid.toBytes ++ List.replicate (capacity - 16) 0).drop (16 + 4) =
      List.replicate 4 0 ++ (List.replicate info.acpi.length 0 ++ List.replicate k 0) := by
    rw [← List.drop_drop, List.drop_left' (Guid.length_toBytes guid), List.drop_replicate, hk]
    simp only [List.replicate_append_replicate]
  have hempty : Utf8.encode "" = [] := rfl
  have hzero : littleEndian 4 0 = List.replicate 4 0 := rfl
  have hread : n.payload = guid.toBytes ++
      (littleEndian 4 (DebugInfo.mk (List.replicate info.acpi.length 0) "").acpi.length ++
        (littleEndian 4 (Utf8.encode "").length ++
          (List.replicate info.acpi.length 0 ++ (Utf8.encode "" ++ List.replicate k 0)))) := by
    simp only [hp, hposted, overwrite, htake, length_littleEndian, hdrop, List.length_replicate,
      hempty, List.length_nil, hzero, List.nil_append, List.append_assoc]
  refine decode_debugInfo (Guid.length_toBytes guid) hread ?_
  simp only [fitsLengths, List.length_replicate, hl, decide_true, Bool.true_and, decide_eq_true_iff]
  exact show 0 < lengthLimit by decide

/-- What is read where the response to a posted request could not be written. -/
def Request.leftover (capacity : Nat) (r : Request) : Response → Response
  | .debugInfo info =>
    if Response.encodedLength (.debugInfo info) ≤ capacity ∧ info.acpi.length < lengthLimit then
      .debugInfo ⟨List.replicate info.acpi.length 0, ""⟩
    else r.unanswered
  | _ => r.unanswered

theorem Response.decode_leftover {guid : Guid} {q : UInt64} {capacity : Nat} {info : DebugInfo}
    {n : Region} (hlen : encodedLength (.debugInfo info) ≤ capacity)
    (hp : n.payload =
      (breakOff (.debugInfo info) (.posted (.getHandlerDebugInfo guid) q capacity)).payload) :
    decode .getHandlerDebugInfo n =
      .ok ((Request.getHandlerDebugInfo guid).leftover capacity (.debugInfo info)) := by
  by_cases ha : info.acpi.length < lengthLimit
  · simp only [breakOff, begun, ha, if_true] at hp
    simp only [Request.leftover, hlen, ha, and_self, if_true]
    exact decode_broken ha hlen hp
  · simp only [breakOff, begun, ha, if_false, overwrite_nil] at hp
    simp only [Request.leftover, ha, and_false, if_false]
    refine decode_unanswered (r := .getHandlerDebugInfo guid) (show 0 < lengthLimit by decide) ?_ hp
    exact Nat.le_trans (Nat.le_add_right _ _) hlen

/-- The answer to a posted request can be read as a response to it. -/
theorem Dispatcher.readable_of_answer {d : Dispatcher σ} {n : Region} {y z : σ} {r : Request}
    {q : UInt64} {capacity : Nat} (hl : r.data.length < lengthLimit)
    (hc : debugInfoHeaderSize ≤ capacity)
    (h : d.answer (.posted r q capacity) y = (some n, z)) :
    ∃ w, Response.decode r.function n = .ok w := by
  rcases answer_eq_some h with ⟨status, hn⟩ | ⟨r', w, hr', hs, hne, hlen, hfit, hn⟩ |
    ⟨guid, info, hr', hlen, hn⟩
  · exact ⟨_, Response.decode_unanswered hl hc (by rw [hn]; rfl)⟩
  · obtain rfl := Except.ok.inj ((Request.decode_posted hl).symm.trans hr')
    exact ⟨w, Response.decode_writeTo hs.belongs hne hlen hfit (by rw [hn]; rfl)⟩
  · obtain rfl := Except.ok.inj ((Request.decode_posted hl).symm.trans hr')
    have hroom : Request.encodedLength (.getHandlerDebugInfo guid) ≤ capacity :=
      Nat.le_trans (show 16 ≤ debugInfoHeaderSize by decide) hc
    rw [Region.length_posted hroom] at hlen
    exact ⟨_, Response.decode_leftover hlen (by rw [hn]; rfl)⟩

end FirmwareHost
