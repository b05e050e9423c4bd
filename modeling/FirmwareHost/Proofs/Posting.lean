import FirmwareHost.Proofs.Layout
import FirmwareHost.Protocol.Producer

/-! Posted requests. What posting leaves depends on the request, its number and the size of the
mailbox alone, and it reads back as the request. One that is given up for the length of its data
leaves its function code, which reads as a request for nothing. -/

namespace FirmwareHost

@[simp] theorem FunctionCode.ofCode_code (f : FunctionCode) : ofCode f.code = .ok f := by
  cases f <;> rfl

namespace Request

/-- The request with zeros for its GUID and its data. -/
def blank : Request → Request
  | .installPackage _ => .installPackage []
  | .enumerateHandlers => .enumerateHandlers
  | .invokeHandler .. => .invokeHandler .zero []
  | .uninstallModule _ => .uninstallModule .zero
  | .getHandlerDebugInfo _ => .getHandlerDebugInfo .zero

theorem layout_blank (r : Request) : r.blank.layout = List.replicate r.blank.encodedLength 0 := by
  cases r <;> rfl

theorem function_blank (r : Request) : r.blank.function = r.function := by
  cases r <;> rfl

theorem data_blank (r : Request) : r.blank.data = [] := by
  cases r <;> rfl

theorem encodedLength_blank (r : Request) : r.blank.encodedLength ≤ r.encodedLength := by
  cases r with
  | installPackage | invokeHandler => exact Nat.add_le_add_left (Nat.zero_le _) _
  | _ => exact Nat.le_refl _

end Request

namespace Region

/-- The region that a posted request leaves: its code and number, its layout, and zeros. -/
def posted (r : Request) (sequence : UInt64) (capacity : Nat) : Region :=
  ⟨⟨r.function.code, 0, sequence, 0⟩,
    r.layout ++ List.replicate (capacity - r.encodedLength) 0⟩

theorem length_posted {r : Request} {q : UInt64} {capacity : Nat}
    (h : r.encodedLength ≤ capacity) : (posted r q capacity).payload.length = capacity := by
  simp [posted, Request.length_layout]
  omega

/-- The region that a refused request leaves: zeros, and its code if only its data are too many. -/
def refused (r : Request) (m : Region) : Region :=
  if m.payload.length < r.encodedLength then m.clear else m.clear.setFunction r.function.code

@[simp] theorem length_refused (r : Request) (m : Region) :
    (refused r m).payload.length = m.payload.length := by
  rw [refused]
  split <;> exact length_clear m

theorem refused_of_overlong {r : Request} {m : Region} (h : r.encodedLength ≤ m.payload.length) :
    refused r m = posted r.blank 0 m.payload.length := by
  have hz : r.blank.layout ++ List.replicate (m.payload.length - r.blank.encodedLength) 0 =
      List.replicate m.payload.length 0 := by
    have hle := r.encodedLength_blank
    rw [Request.layout_blank, List.replicate_append_replicate]
    congr 1
    omega
  rw [refused, if_neg (Nat.not_lt.mpr h), posted, hz, Request.function_blank]
  rfl

theorem sequences_refused (r : Request) (m : Region) :
    (refused r m).header.answeredSequence = (refused r m).header.requestSequence := by
  rw [refused]
  split <;> rfl

theorem post_eq (r : Request) (q : UInt64) (m : Region) :
    m.post r q =
      if m.payload.length < r.encodedLength ∨ lengthLimit ≤ r.data.length then
        (.error .badBufferSize, refused r m)
      else (.ok (), posted r q m.payload.length) := by
  have hp : overwrite 0 r.layout m.clear.payload =
      r.layout ++ List.replicate (m.payload.length - r.encodedLength) 0 := by
    rw [clear, zero, overwrite_zero_zeros, Request.length_layout]
  simp only [post, Request.encode, length_clear, refused]
  by_cases hc : m.payload.length < r.encodedLength
  · simp only [hc, true_or, if_true]
  · by_cases hl : r.data.length < lengthLimit
    · have hp' : overwrite 0 r.layout (m.clear.setFunction r.function.code).payload = _ := hp
      simp only [hc, hl, Nat.not_le.mpr hl, or_self, if_false, if_true, hp']
      rfl
    · simp only [hc, hl, Nat.not_lt.mp hl, or_true, if_false, if_true]

theorem posted_of_post {r : Request} {q : UInt64} {m n : Region} (h : m.post r q = (.ok (), n)) :
    r.data.length < lengthLimit ∧ r.encodedLength ≤ m.payload.length ∧
      n = posted r q m.payload.length := by
  rw [post_eq] at h
  split at h
  · cases h
  · next hr =>
    obtain ⟨hc, hl⟩ := not_or.mp hr
    exact ⟨by omega, by omega, (Prod.mk.inj h).2.symm⟩

theorem refused_of_post {r : Request} {q : UInt64} {m n : Region} {e : Failure}
    (h : m.post r q = (.error e, n)) : e = .badBufferSize ∧ n = refused r m ∧
      (m.payload.length < r.encodedLength ∨ lengthLimit ≤ r.data.length) := by
  rw [post_eq] at h
  split at h
  · next hr =>
    cases h
    exact ⟨rfl, rfl, hr⟩
  · cases h

end Region

theorem Request.layout_invoke_append (guid : Guid) (parameters after : Bytes) :
    layout (.invokeHandler guid parameters) ++ after = (guid.toBytes ++ littleEndian 8 0) ++
      (littleEndian 4 parameters.length ++ (parameters ++ after)) := by
  simp only [layout, List.append_assoc]

/-- Of the 24 bytes in front of an invocation's length, the last eight are not read. -/
theorem Request.decode_invokeHandler {guid : Guid} {parameters front rest : Bytes} {m : Region}
    (hl : parameters.length < lengthLimit) (hf : m.header.function = FunctionCode.invokeHandler.code)
    (hfront : front.length = 24) (hguid : front.take 16 = guid.toBytes)
    (hp : m.payload = front ++ (littleEndian 4 parameters.length ++ (parameters ++ rest))) :
    decode m = .ok (.invokeHandler guid parameters) := by
  obtain ⟨hh, ht⟩ := read_invoke hfront hp hl
  have hg : m.payload.take 16 = guid.toBytes := by
    rw [hp, List.take_append_of_le_length (by omega), hguid]
  unfold decode
  simp only [hf, FunctionCode.ofCode_code, bind, Except.bind, hh, ht, hg, Guid.ofBytes_toBytes]
  rfl

/-- A request is read back from in front of any bytes. -/
theorem Request.decode_layout {r : Request} {m : Region} {rest : Bytes}
    (hl : r.data.length < lengthLimit) (hf : m.header.function = r.function.code)
    (hp : m.payload = r.layout ++ rest) : decode m = .ok r := by
  cases r with
  | installPackage package =>
    have hw : wordAt 0 4 ([] ++ (littleEndian 4 package.length ++ (package ++ rest))) =
        package.length := wordAt_layout rfl hl
    have ht : takeExactly package.length (package ++ rest) = .ok package := takeExactly_append rfl
    rw [List.nil_append] at hw
    unfold decode
    simp [hf, hp, bind, Except.bind, function, layout, requireHeader, hw, ht]
    rfl
  | enumerateHandlers =>
    unfold decode
    rw [hf]
    rfl
  | invokeHandler guid parameters =>
    rw [layout_invoke_append] at hp
    exact decode_invokeHandler hl hf (by simp) (List.take_left' (by simp)) hp
  | uninstallModule guid | getHandlerDebugInfo guid =>
    unfold decode
    simp [hf, hp, bind, Except.bind, function, layout, requireHeader, Guid.ofBytes_toBytes]
    rfl

/-- The consumer reads a posted request unchanged. -/
theorem Request.decode_posted {r : Request} {q : UInt64} {capacity : Nat}
    (h : r.data.length < lengthLimit) : decode (.posted r q capacity) = .ok r :=
  decode_layout h rfl rfl

/-- Of a refused request at most the function is read. -/
theorem Request.blank_of_decode_refused {r k : Request} {m : Region}
    (h : decode (.refused r m) = .ok k) : r.encodedLength ≤ m.payload.length ∧ k = r.blank := by
  by_cases hc : m.payload.length < r.encodedLength
  · rw [Region.refused, if_pos hc] at h
    cases h
  · have hl : r.blank.data.length < lengthLimit := by
      rw [data_blank]
      decide
    rw [Region.refused_of_overlong (Nat.not_lt.mp hc), decode_posted hl] at h
    exact ⟨Nat.not_lt.mp hc, (Except.ok.inj h).symm⟩

end FirmwareHost
