import FirmwareHost.Proofs.MessageRoundTrips

/-! The format of requests. A region is read as a request if and only if it begins with the layout of
that request, the status bytes of an invocation apart, which are not read. So what was accepted can
be written again, and gives the same bytes with these zeroed. -/

namespace FirmwareHost

theorem Mailbox.le_capacity_of_ofSize {size : Nat} {b : Mailbox} (h : ofSize size = .ok b) :
    32 ≤ b.capacity := by
  unfold ofSize at h
  split at h
  · cases h
  · next hs =>
    cases h
    simp only [minSize] at hs
    simp only [capacity, Region.zero, List.length_replicate, Header.size]
    omega

namespace FunctionCode

variable {word : UInt64} {f : FunctionCode} {e : Failure}

theorem ofCode_eq_ok_iff : ofCode word = .ok f ↔ word = f.code := by
  constructor
  · intro h
    unfold ofCode at h
    split at h
    · next g hg =>
      obtain rfl : g = f := Except.ok.inj h
      have hcode := List.find?_some hg
      exact (of_decide_eq_true hcode).symm
    · cases h
  · rintro rfl
    exact ofCode_code f

theorem exists_code_iff : (∃ f : FunctionCode, word = f.code) ↔ 1 ≤ word ∧ word ≤ 5 := by
  constructor
  · rintro ⟨f, rfl⟩
    cases f <;> decide
  · rintro ⟨hlow, hhigh⟩
    have hlow : 1 ≤ word.toNat := hlow
    have hhigh : word.toNat ≤ 5 := hhigh
    have hword (n : Nat) (hn : word.toNat = n) : word = .ofNat n := by
      rw [← hn, UInt64.ofNat_toNat]
    obtain h | h | h | h | h : word.toNat = 1 ∨ word.toNat = 2 ∨ word.toNat = 3 ∨
      word.toNat = 4 ∨ word.toNat = 5 := by omega
    · exact ⟨.installPackage, hword 1 h⟩
    · exact ⟨.enumerateHandlers, hword 2 h⟩
    · exact ⟨.invokeHandler, hword 3 h⟩
    · exact ⟨.uninstallModule, hword 4 h⟩
    · exact ⟨.getHandlerDebugInfo, hword 5 h⟩

theorem eq_invalidParameter_of_ofCode (h : ofCode word = .error e) : e = .invalidParameter := by
  unfold ofCode at h
  split at h <;> cases h
  rfl

theorem ofCode_eq_error_iff :
    ofCode word = .error e ↔ e = .invalidParameter ∧ ¬(1 ≤ word ∧ word ≤ 5) := by
  rw [← exists_code_iff]
  constructor
  · intro h
    refine ⟨eq_invalidParameter_of_ofCode h, fun ⟨f, hf⟩ => ?_⟩
    rw [ofCode_eq_ok_iff.mpr hf] at h
    cases h
  · rintro ⟨rfl, hno⟩
    cases h : ofCode word with
    | ok f => exact absurd ⟨f, ofCode_eq_ok_iff.mp h⟩ hno
    | error e => rw [eq_invalidParameter_of_ofCode h]

/-- The fixed part of a request, in front of its data. -/
def headerSize : FunctionCode → Nat
  | .installPackage => 4
  | .enumerateHandlers => 0
  | .invokeHandler => invokeHeaderSize
  | .uninstallModule | .getHandlerDebugInfo => 16

theorem headerSize_le_invoke (f : FunctionCode) : f.headerSize ≤ invokeHeaderSize := by
  cases f <;> decide

end FunctionCode

namespace Request

variable {m : Region} {r : Request} {f : FunctionCode}

/-- The bytes of a request with those zeroed that hold the status of a handler. -/
def canonical (f : FunctionCode) (bytes : Bytes) : Bytes :=
  if f = .invokeHandler then overwrite 16 (List.replicate 8 0) bytes else bytes

theorem canonical_invokeHandler (bytes : Bytes) : canonical .invokeHandler bytes =
    bytes.take 16 ++ (List.replicate 8 0 ++ bytes.drop 24) := by
  simp only [canonical, if_true, overwrite, List.length_replicate, List.append_assoc]

/-- Decodes with every access checked: nothing if a byte is asked for that the payload has not. -/
def decodeChecked (m : Region) : Option (Outcome Request) :=
  match FunctionCode.ofCode m.header.function with
  | .error e => some (.error e)
  | .ok .installPackage => do
    let length := ofLittleEndian (← m.read? 0 4)
    if m.payload.length - 4 < length then some (.error .badBufferSize)
    else (m.read? 4 length).map fun package => .ok (.installPackage package)
  | .ok .enumerateHandlers => some (.ok .enumerateHandlers)
  | .ok .invokeHandler => do
    let guid := Guid.ofBytes (← m.read? 0 16)
    let length := ofLittleEndian (← m.read? 24 4)
    if m.payload.length - invokeHeaderSize < length then some (.error .badBufferSize)
    else (m.read? invokeHeaderSize length).map fun parameters => .ok (.invokeHandler guid parameters)
  | .ok .uninstallModule => (m.read? 0 16).map fun guid => .ok (.uninstallModule (.ofBytes guid))
  | .ok .getHandlerDebugInfo =>
    (m.read? 0 16).map fun guid => .ok (.getHandlerDebugInfo (.ofBytes guid))

theorem encodedLength_eq (r : Request) :
    r.encodedLength = r.function.headerSize + r.data.length := by
  cases r <;> rfl

/-- Decoding where the payload holds the fixed part of the request: only the length of its data can
be wrong. -/
theorem decode_eq (hc : ∀ f, FunctionCode.ofCode m.header.function = .ok f →
      f.headerSize ≤ m.payload.length) : decode m =
    match FunctionCode.ofCode m.header.function with
    | .error e => .error e
    | .ok .installPackage =>
      if m.payload.length - 4 < wordAt 0 4 m.payload then .error .badBufferSize
      else .ok (.installPackage ((m.payload.drop 4).take (wordAt 0 4 m.payload)))
    | .ok .enumerateHandlers => .ok .enumerateHandlers
    | .ok .invokeHandler =>
      if m.payload.length - invokeHeaderSize < wordAt 24 4 m.payload then .error .badBufferSize
      else .ok (.invokeHandler (.ofBytes (m.payload.take 16))
        ((m.payload.drop invokeHeaderSize).take (wordAt 24 4 m.payload)))
    | .ok .uninstallModule => .ok (.uninstallModule (.ofBytes (m.payload.take 16)))
    | .ok .getHandlerDebugInfo => .ok (.getHandlerDebugInfo (.ofBytes (m.payload.take 16))) := by
  unfold decode
  cases hf : FunctionCode.ofCode m.header.function with
  | error e => rfl
  | ok f =>
    have hh : requireHeader f.headerSize m.payload = .ok () := requireHeader_of_le (hc f hf)
    cases f with
    | enumerateHandlers => rfl
    | uninstallModule | getHandlerDebugInfo =>
      have hh : requireHeader 16 m.payload = .ok () := hh
      simp only [bind, Except.bind, hh]
      rfl
    | installPackage =>
      have hh : requireHeader 4 m.payload = .ok () := hh
      simp only [bind, Except.bind, hh, takeExactly, List.length_drop]
      by_cases hl : m.payload.length - 4 < wordAt 0 4 m.payload
      · simp only [hl, Nat.not_le.mpr hl, if_true, if_false]
      · simp only [hl, Nat.not_lt.mp hl, if_true, if_false]
        rfl
    | invokeHandler =>
      have hh : requireHeader invokeHeaderSize m.payload = .ok () := hh
      simp only [bind, Except.bind, hh, takeExactly, List.length_drop]
      by_cases hl : m.payload.length - invokeHeaderSize < wordAt 24 4 m.payload
      · simp only [hl, Nat.not_le.mpr hl, if_true, if_false]
      · simp only [hl, Nat.not_lt.mp hl, if_true, if_false]
        rfl

theorem read?_of_le (offset length : Nat) (h : offset + length ≤ m.payload.length) :
    m.read? offset length = some ((m.payload.drop offset).take length) := by
  simp [Region.read?, h]

/-- Where the payload holds the fixed part of every request, no byte outside of it is asked for. -/
theorem decodeChecked_eq (hc : invokeHeaderSize ≤ m.payload.length) :
    decodeChecked m = some (decode m) := by
  have hroom : 28 ≤ m.payload.length := hc
  have h4 := read?_of_le (m := m) 0 4 (by omega)
  have h16 := read?_of_le (m := m) 0 16 (by omega)
  have h24 := read?_of_le (m := m) 24 4 (by omega)
  rw [decode_eq fun f _ => Nat.le_trans f.headerSize_le_invoke hc]
  unfold decodeChecked
  cases hf : FunctionCode.ofCode m.header.function with
  | error e => rfl
  | ok f =>
    cases f with
    | enumerateHandlers => rfl
    | uninstallModule | getHandlerDebugInfo =>
      rw [h16]
      rfl
    | installPackage =>
      have hw : ofLittleEndian ((m.payload.drop 0).take 4) = wordAt 0 4 m.payload := rfl
      simp only [h4, Option.bind_eq_bind, Option.bind_some, hw]
      split
      · rfl
      · next hl =>
        have hdata := read?_of_le (m := m) 4 (wordAt 0 4 m.payload) (by omega)
        rw [hdata]
        rfl
    | invokeHandler =>
      have hw : ofLittleEndian ((m.payload.drop 24).take 4) = wordAt 24 4 m.payload := rfl
      simp only [h16, h24, Option.bind_eq_bind, Option.bind_some, hw]
      split
      · rfl
      · next hl =>
        have hdata := read?_of_le (m := m) invokeHeaderSize (wordAt 24 4 m.payload)
          (by omega)
        rw [hdata]
        rfl

theorem layout_of_decode (h : decode m = .ok r) :
    canonical r.function (m.payload.take r.encodedLength) = r.layout := by
  have hf := function_of_decode h
  have hroom : r.function.headerSize ≤ m.payload.length := by
    have hlen := (bounds_of_decode h).1
    rw [encodedLength_eq] at hlen
    omega
  rw [decode_eq fun f hf' => by rwa [← Except.ok.inj (hf.symm.trans hf')], hf] at h
  cases r with
  | enumerateHandlers => rfl
  | uninstallModule guid | getHandlerDebugInfo guid =>
    cases h
    have hroom : 16 ≤ m.payload.length := hroom
    exact (Guid.toBytes_ofBytes (List.length_take_of_le (by omega))).symm
  | installPackage package =>
    simp only [function] at h
    split at h
    · cases h
    · next hl =>
      cases h
      have hroom : 4 ≤ m.payload.length := hroom
      have hfield : (m.payload.take 4).length = 4 := List.length_take_of_le (by omega)
      have hdata : ((m.payload.drop 4).take (wordAt 0 4 m.payload)).length =
          wordAt 0 4 m.payload := List.length_take_of_le (by rw [List.length_drop]; omega)
      have hword : littleEndian 4 (wordAt 0 4 m.payload) = m.payload.take 4 :=
        littleEndian_of_length hfield
      simp only [canonical, function, encodedLength, layout, hdata, hword, List.take_add]
      rfl
  | invokeHandler guid parameters =>
    simp only [function] at h
    split at h
    · cases h
    · next hl =>
      cases h
      have hroom : 28 ≤ m.payload.length := hroom
      have hfield : ((m.payload.drop 24).take 4).length = 4 :=
        List.length_take_of_le (by rw [List.length_drop]; omega)
      have hdata : ((m.payload.drop invokeHeaderSize).take (wordAt 24 4 m.payload)).length =
          wordAt 24 4 m.payload := List.length_take_of_le (by rw [List.length_drop]; omega)
      have hword : littleEndian 4 (wordAt 24 4 m.payload) = (m.payload.drop 24).take 4 :=
        littleEndian_of_length hfield
      have hguid : (Guid.ofBytes (m.payload.take 16)).toBytes = m.payload.take 16 :=
        Guid.toBytes_ofBytes (List.length_take_of_le (by omega))
      have hlen : encodedLength (.invokeHandler (.ofBytes (m.payload.take 16))
          ((m.payload.drop invokeHeaderSize).take (wordAt 24 4 m.payload))) =
            24 + (4 + wordAt 24 4 m.payload) := by
        rw [encodedLength, hdata, invokeHeaderSize]
        omega
      have hfront : (m.payload.take (24 + (4 + wordAt 24 4 m.payload))).take 16 =
          m.payload.take 16 := by rw [List.take_take, Nat.min_eq_left (by omega)]
      have hback : (m.payload.take (24 + (4 + wordAt 24 4 m.payload))).drop 24 =
          (m.payload.drop 24).take 4 ++
            (m.payload.drop invokeHeaderSize).take (wordAt 24 4 m.payload) := by
        rw [List.drop_take, Nat.add_sub_cancel_left, List.take_add, List.drop_drop]
        rfl
      rw [hlen, function, canonical_invokeHandler, hfront, hback, layout, hguid, hdata, hword]
      simp only [List.append_assoc]
      rfl

theorem decode_of_canonical_invoke {guid : Guid} {parameters : Bytes}
    (hlimit : parameters.length < lengthLimit)
    (hf : m.header.function = FunctionCode.invokeHandler.code)
    (hlen : encodedLength (.invokeHandler guid parameters) ≤ m.payload.length)
    (h : canonical .invokeHandler (m.payload.take (encodedLength (.invokeHandler guid parameters))) =
      layout (.invokeHandler guid parameters)) :
    decode m = .ok (.invokeHandler guid parameters) := by
  let read := m.payload.take (encodedLength (.invokeHandler guid parameters))
  let rest := m.payload.drop (encodedLength (.invokeHandler guid parameters))
  have hread : read.length = invokeHeaderSize + parameters.length := List.length_take_of_le hlen
  have hroom : 28 ≤ read.length := by rw [hread, invokeHeaderSize]; omega
  have hpayload : m.payload = read ++ rest := (List.take_append_drop ..).symm
  have hlayout : read.take 16 ++ (List.replicate 8 0 ++ read.drop 24) =
      guid.toBytes ++ (littleEndian 8 0 ++ (littleEndian 4 parameters.length ++ parameters)) := by
    rw [← canonical_invokeHandler, h, layout]
    simp only [List.append_assoc]
  obtain ⟨hguid, htail⟩ := List.append_inj hlayout
    (by rw [List.length_take_of_le (by omega), Guid.length_toBytes])
  have hback := List.append_inj_right htail rfl
  have hfront : (read.take 24).length = 24 := List.length_take_of_le (by omega)
  have hfirst : (read.take 24).take 16 = guid.toBytes := by rw [List.take_take]; exact hguid
  have hparts := calc m.payload
    _ = read.take 24 ++ (read.drop 24 ++ rest) := by
      rw [← List.append_assoc, List.take_append_drop, ← hpayload]
    _ = read.take 24 ++ (littleEndian 4 parameters.length ++ (parameters ++ rest)) := by
      rw [hback, List.append_assoc]
  exact decode_invokeHandler hlimit hf hfront hfirst hparts

/-- A region is read as a request if and only if it has its code and begins with its layout. -/
theorem decode_eq_ok_iff : decode m = .ok r ↔ m.header.function = r.function.code ∧
    r.encodedLength ≤ m.payload.length ∧ r.data.length < lengthLimit ∧
      canonical r.function (m.payload.take r.encodedLength) = r.layout := by
  constructor
  · intro h
    obtain ⟨hlen, hlimit⟩ := bounds_of_decode h
    exact ⟨FunctionCode.ofCode_eq_ok_iff.mp (function_of_decode h), hlen, hlimit,
      layout_of_decode h⟩
  · rintro ⟨hf, hlen, hlimit, hlayout⟩
    by_cases hi : r.function = .invokeHandler
    · cases r with
      | invokeHandler guid parameters =>
        exact decode_of_canonical_invoke hlimit hf hlen hlayout
      | _ => cases hi
    · rw [canonical, if_neg hi] at hlayout
      have hp : m.payload = r.layout ++ m.payload.drop r.encodedLength := by
        rw [← hlayout, List.take_append_drop]
      exact decode_layout hlimit hf hp

/-- A length field tells of more data than the payload has room for behind it. -/
def Overlong (m : Region) : Prop :=
  m.header.function = FunctionCode.installPackage.code ∧
      m.payload.length - 4 < wordAt 0 4 m.payload ∨
    m.header.function = FunctionCode.invokeHandler.code ∧
      m.payload.length - invokeHeaderSize < wordAt 24 4 m.payload

theorem decode_eq_error_iff {e : Failure} (hc : invokeHeaderSize ≤ m.payload.length) :
    decode m = .error e ↔
      e = .invalidParameter ∧ ¬(1 ≤ m.header.function ∧ m.header.function ≤ 5) ∨
        e = .badBufferSize ∧ Overlong m := by
  rw [decode_eq fun f _ => Nat.le_trans f.headerSize_le_invoke hc]
  cases hf : FunctionCode.ofCode m.header.function with
  | error e' =>
    obtain ⟨rfl, hno⟩ := FunctionCode.ofCode_eq_error_iff.mp hf
    have hunknown (f : FunctionCode) : m.header.function ≠ f.code :=
      fun hcode => hno (FunctionCode.exists_code_iff.mp ⟨f, hcode⟩)
    simp [hno, Overlong, hunknown, eq_comm]
  | ok f =>
    have hcode := FunctionCode.ofCode_eq_ok_iff.mp hf
    have hknown := FunctionCode.exists_code_iff.mp ⟨f, hcode⟩
    have hlong : Overlong m ↔
        f = .installPackage ∧ m.payload.length - 4 < wordAt 0 4 m.payload ∨
          f = .invokeHandler ∧ m.payload.length - invokeHeaderSize < wordAt 24 4 m.payload := by
      rw [Overlong, hcode]
      cases f <;> simp [FunctionCode.code]
    rw [hlong]
    simp only [hknown, and_self, not_true_eq_false, and_false, false_or]
    cases f with
    | installPackage | invokeHandler =>
      simp only
      split <;> simp_all [eq_comm]
    | _ => simp

theorem encode_of_decode (h : decode m = .ok r) : r.encode (.zero m.payload.length) =
    (.ok (), ⟨⟨m.header.function, 0, 0, 0⟩, canonical r.function (m.payload.take r.encodedLength) ++
      List.replicate (m.payload.length - r.encodedLength) 0⟩) := by
  obtain ⟨hf, hlen, hlimit, hlayout⟩ := decode_eq_ok_iff.mp h
  have hsize : (Region.zero m.payload.length).payload.length = m.payload.length := by
    simp [Region.zero]
  rw [encode_of_fits (by rw [hsize]; exact ⟨hlen, hlimit⟩), hlayout, ← hf]
  simp only [Region.zero, List.drop_replicate]
  rfl

/-- Whatever a mailbox holds, decoding looks at no byte outside of it, and it fails only where there
is no such function or its data would not end within the payload. What it accepts it finds in the
function word and the first bytes, and written to a cleared mailbox that gives them again. -/
theorem accepted_exactly {size : Nat} {b : Mailbox} (hs : Mailbox.ofSize size = .ok b)
    (hm : m.payload.length = b.capacity) :
    decodeChecked m = some (decode m) ∧
    (∀ e, decode m = .error e ↔
      e = .invalidParameter ∧ ¬(1 ≤ m.header.function ∧ m.header.function ≤ 5) ∨
        e = .badBufferSize ∧ Overlong m) ∧
    ∀ r, decode m = .ok r →
      (∀ n : Region, n.header.function = m.header.function →
        n.payload.take r.encodedLength = m.payload.take r.encodedLength → decode n = .ok r) ∧
      r.encode (.zero b.capacity) = (.ok (), ⟨⟨m.header.function, 0, 0, 0⟩,
        canonical r.function (m.payload.take r.encodedLength) ++
          List.replicate (b.capacity - r.encodedLength) 0⟩) := by
  have hc : invokeHeaderSize ≤ m.payload.length := by
    have hsize := Mailbox.le_capacity_of_ofSize hs
    rw [hm, invokeHeaderSize]
    omega
  refine ⟨decodeChecked_eq hc, fun e => decode_eq_error_iff hc, fun r hr => ⟨?_, ?_⟩⟩
  · intro n hf hp
    obtain ⟨hcode, hlen, hlimit, hlayout⟩ := decode_eq_ok_iff.mp hr
    have hlen' : r.encodedLength ≤ n.payload.length := by
      have := congrArg List.length hp
      simp only [List.length_take] at this
      omega
    exact decode_eq_ok_iff.mpr ⟨hf.trans hcode, hlen', hlimit, by rw [hp, hlayout]⟩
  · rw [← hm]
    exact encode_of_decode hr

/-- An invocation over stale bytes, in the place of the status and behind its end. -/
theorem accepted_exactly_sample :
    let guid : Bytes := [1, 2, 3, 4, 5, 6, 7, 8, 9, 10, 11, 12, 13, 14, 15, 16]
    let m : Region :=
      ⟨⟨3, 4, 5, 6⟩, guid ++ List.replicate 8 0xEE ++ [3, 0, 0, 0, 7, 8, 9, 0xDD]⟩
    let r : Request := .invokeHandler (.ofBytes guid) [7, 8, 9]
    Mailbox.ofSize 64 = .ok ⟨.zero 32, .free, 0⟩ ∧ m.payload.length = 32 ∧ decode m = .ok r ∧
      r.encode (.zero 32) =
        (.ok (), ⟨⟨3, 0, 0, 0⟩, guid ++ List.replicate 8 0 ++ [3, 0, 0, 0, 7, 8, 9, 0]⟩) := by
  intro guid m r
  have hs : Mailbox.ofSize 64 = .ok ⟨.zero 32, .free, 0⟩ := rfl
  have hm : m.payload.length = 32 := rfl
  have hr : decode m = .ok r := rfl
  obtain ⟨-, hencode⟩ := (accepted_exactly hs hm).2.2 r hr
  exact ⟨hs, hm, hr, hencode⟩

end Request

end FirmwareHost
