import FirmwareHost.Proofs.Outcomes

/-! Messages in a mailbox that holds anything. What is written is read back, and nothing outside of
it changes; what does not fit is refused before anything is written. -/

namespace FirmwareHost

variable {m : Region}

namespace Request

variable {r : Request}

theorem encode_of_not_fits (h : m.payload.length < r.encodedLength) :
    r.encode m = (.error .badBufferSize, m) := by
  simp [encode, h]

theorem encode_of_fits (h : r.Fits m.payload.length) : r.encode m = (.ok (),
    ⟨{ m.header with function := r.function.code },
      r.layout ++ m.payload.drop r.encodedLength⟩) := by
  simp only [encode, Nat.not_lt.mpr h.1, if_false, h.2, if_true, overwrite_zero, length_layout]
  rfl

/-- A request that fits is read back as it was, and beyond it only the function word changes. One
that is too long changes nothing. -/
theorem written_or_refused (r : Request) (m : Region) (hl : r.data.length < lengthLimit) :
    (r.encodedLength ≤ m.payload.length → ∃ n, r.encode m = (.ok (), n) ∧ decode n = .ok r ∧
      n.header = { m.header with function := r.function.code } ∧
      n.payload.length = m.payload.length ∧
      n.payload.drop r.encodedLength = m.payload.drop r.encodedLength) ∧
    (m.payload.length < r.encodedLength → r.encode m = (.error .badBufferSize, m)) := by
  refine ⟨fun hc => ?_, encode_of_not_fits⟩
  refine ⟨_, encode_of_fits ⟨hc, hl⟩, decode_layout hl rfl rfl, rfl, ?_, ?_⟩
  · rw [List.length_append, length_layout, List.length_drop]
    omega
  · exact List.drop_left' r.length_layout

/-- A package that fills the smallest mailbox to the last byte, over stale contents, and one that is
a byte longer. -/
theorem written_or_refused_sample :
    let m : Region := ⟨⟨3, 4, 5, 6⟩, List.replicate 32 0xEE⟩
    let full : Request := .installPackage (List.replicate 28 7)
    let larger : Request := .installPackage (List.replicate 29 7)
    full.data.length < lengthLimit ∧ larger.data.length < lengthLimit ∧
      (∃ n, full.encode m = (.ok (), n) ∧ decode n = .ok full ∧ n.header = ⟨1, 4, 5, 6⟩) ∧
      larger.encode m = (.error .badBufferSize, m) := by
  intro m full larger
  have hf : full.data.length < lengthLimit := by decide
  have ho : larger.data.length < lengthLimit := by decide
  obtain ⟨n, hn, hd, hh, -⟩ := (written_or_refused full m hf).1 (by decide)
  exact ⟨hf, ho, ⟨n, hn, hd, hh⟩, (written_or_refused larger m ho).2 (by decide)⟩

end Request

namespace Response

/-- A response that fits is written over the request behind its GUID and read back as it was, and it
leaves the header and whatever lies beyond it. One that is too long changes nothing. -/
theorem overwritten_or_refused (w : Response) (f : FunctionCode) (m : Region) (hb : w.Belongs f)
    (hl : w.fitsLengths = true) :
    (w.encodedLength ≤ m.payload.length → ∃ n, w.encode m = (.ok (), n) ∧ decode f n = .ok w ∧
      n.header = m.header ∧ n.payload.length = m.payload.length ∧
      n.payload.take 16 = m.payload.take 16 ∧
      n.payload.drop w.encodedLength = m.payload.drop w.encodedLength) ∧
    (m.payload.length < w.encodedLength → w.encode m = (.error .badBufferSize, m)) := by
  refine ⟨fun hc => ?_, encode_of_short⟩
  by_cases hw : w = .empty
  · subst hw
    exact ⟨m, encode_empty m, decode_empty hb, rfl, rfl, rfl, rfl⟩
  · have hlen := length_layout hw
    have hguid : 16 ≤ m.payload.length := by omega
    refine ⟨w.writeTo m, encode_of_fits hw ⟨hc, hl⟩, decode_writeTo hb hw hc hl rfl, rfl,
      length_writeTo hw hc, take_overwrite hguid, ?_⟩
    rw [← hlen]
    exact drop_overwrite hguid

/-- The answer to a request for debug information in the smallest mailbox, with a name of two bytes
a character, to the last byte and one byte beyond. -/
theorem overwritten_or_refused_sample :
    let m : Region := ⟨⟨5, 0, 9, 8⟩, List.replicate 32 0xEE⟩
    let full : Response := .debugInfo ⟨[1, 2, 3, 4], "éé"⟩
    let larger : Response := .debugInfo ⟨[1, 2, 3, 4, 5], "éé"⟩
    full.fitsLengths = true ∧ larger.fitsLengths = true ∧ full.Belongs .getHandlerDebugInfo ∧
      (∃ n, full.encode m = (.ok (), n) ∧ decode .getHandlerDebugInfo n = .ok full ∧
        n.header = m.header) ∧
      larger.encode m = (.error .badBufferSize, m) := by
  intro m full larger
  have hf : full.fitsLengths = true := by decide
  have ho : larger.fitsLengths = true := by decide
  obtain ⟨n, hn, hd, hh, -⟩ :=
    (overwritten_or_refused full .getHandlerDebugInfo m rfl hf).1 (by decide)
  exact ⟨hf, ho, rfl, ⟨n, hn, hd, hh⟩,
    (overwritten_or_refused larger .getHandlerDebugInfo m rfl ho).2 (by decide)⟩

end Response

end FirmwareHost
