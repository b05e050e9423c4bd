import FirmwareHost.Proofs.Answering
import Mathlib.Logic.Basic

/-! What a round trip brings back, read off the dispatcher alone. A failure comes back as its status
word, with whatever the mailbox reads as beside it. -/

namespace FirmwareHost

variable {σ : Type}

def Request.Fits (capacity : Nat) (r : Request) : Prop :=
  r.encodedLength ≤ capacity ∧ r.data.length < lengthLimit

instance (capacity : Nat) (r : Request) : Decidable (r.Fits capacity) :=
  inferInstanceAs (Decidable (_ ∧ _))

def Response.Fits (capacity : Nat) (w : Response) : Prop :=
  w.encodedLength ≤ capacity ∧ w.fitsLengths = true

instance (capacity : Nat) (w : Response) : Decidable (w.Fits capacity) :=
  inferInstanceAs (Decidable (_ ∧ _))

/-- What a round trip brings back when its request, once posted, is answered before anyone else
comes. After a panic nothing does. -/
def Dispatcher.outcome (d : Dispatcher σ) (capacity : Nat) (r : Request) (y : σ) :
    Option (Outcome Exchanged) × σ :=
  if r.Fits capacity then
    match d.handle r y with
    | (.panicked, z) => (none, z)
    | (.returned (.error e), z) => (some (.ok (e.status, r.unanswered)), z)
    | (.returned (.ok w), z) =>
      if w.Fits capacity then (some (.ok (.success, w)), z)
      else (some (.ok (.badBufferSize, r.leftover capacity w)), z)
  else (some (.error .badBufferSize), y)

theorem Request.not_fits {capacity : Nat} {r : Request} :
    ¬ r.Fits capacity ↔ capacity < r.encodedLength ∨ lengthLimit ≤ r.data.length := by
  simp only [Fits]
  omega

theorem Response.not_fits {capacity : Nat} {w : Response} :
    ¬ w.Fits capacity ↔ capacity < w.encodedLength ∨ w.fitsLengths = false := by
  rw [Fits, not_and_or, Nat.not_le, Bool.not_eq_true]

namespace Dispatcher

variable {d : Dispatcher σ} {capacity : Nat} {r : Request} {w : Response} {e : Failure} {y z : σ}

theorem outcome_of_not_fits (hf : ¬ r.Fits capacity) :
    d.outcome capacity r y = (some (.error .badBufferSize), y) := by
  simp [outcome, hf]

theorem outcome_of_panic (hf : r.Fits capacity) (h : d.handle r y = (.panicked, z)) :
    d.outcome capacity r y = (none, z) := by
  simp [outcome, hf, h]

theorem outcome_of_error (hf : r.Fits capacity) (h : d.handle r y = (.returned (.error e), z)) :
    d.outcome capacity r y = (some (.ok (e.status, r.unanswered)), z) := by
  simp [outcome, hf, h]

theorem outcome_of_ok (hf : r.Fits capacity) (hw : w.Fits capacity)
    (h : d.handle r y = (.returned (.ok w), z)) :
    d.outcome capacity r y = (some (.ok (.success, w)), z) := by
  simp [outcome, hf, h, hw]

theorem outcome_of_outgrown (hf : r.Fits capacity) (hw : ¬ w.Fits capacity)
    (h : d.handle r y = (.returned (.ok w), z)) :
    d.outcome capacity r y = (some (.ok (.badBufferSize, r.leftover capacity w)), z) := by
  simp [outcome, hf, h, hw]

end Dispatcher

namespace Response

variable {r : Request} {q : UInt64} {capacity : Nat} {m : Region}

theorem encode_of_short {w : Response} (h : m.payload.length < w.encodedLength) :
    w.encode m = (.error .badBufferSize, m) := by
  simp [encode, h]

theorem encode_of_overlong {w : Response} (h : w.encodedLength ≤ m.payload.length)
    (hl : w.fitsLengths = false) : w.encode m = (.error .badBufferSize, w.breakOff m) := by
  simp [encode, Nat.not_lt.mpr h, hl, breakOff]

theorem encode_empty (m : Region) : encode .empty m = (.ok (), m) := by
  simp [encode, encodedLength, fitsLengths]

theorem encode_of_fits {w : Response} (hw : w ≠ .empty) (h : w.Fits m.payload.length) :
    w.encode m = (.ok (), w.writeTo m) := by
  have hc := Nat.not_lt.mpr h.1
  cases w with
  | empty => exact absurd rfl hw
  | _ => simp only [encode, hc, if_false, h.2, if_true, writeTo]

theorem decode_empty {f : FunctionCode} (hb : Belongs f .empty) : decode f m = .ok .empty := by
  cases f with
  | invokeHandler => exact absurd rfl hb.1
  | getHandlerDebugInfo => exact absurd rfl hb.2
  | _ => rfl

theorem exists_encode {f : FunctionCode} {w : Response} (hb : w.Belongs f)
    (h : w.Fits m.payload.length) : ∃ k, w.encode m = (.ok (), k) ∧
      ∀ {n : Region}, n.payload = k.payload → decode f n = .ok w := by
  by_cases hw : w = .empty
  · subst hw
    exact ⟨m, encode_empty m, fun _ => decode_empty hb⟩
  · exact ⟨w.writeTo m, encode_of_fits hw h, decode_writeTo hb hw h.1 h.2⟩

theorem encode_of_not_fits {w : Response} (h : ¬ w.Fits m.payload.length) :
    w.encode m = (.error .badBufferSize,
      if w.encodedLength ≤ m.payload.length then w.breakOff m else m) := by
  by_cases hlen : w.encodedLength ≤ m.payload.length
  · have hl : w.fitsLengths = false := by
      rw [← Bool.not_eq_true]
      exact fun hl => h ⟨hlen, hl⟩
    rw [encode_of_overlong hlen hl, if_pos hlen]
  · rw [encode_of_short (Nat.not_le.mp hlen), if_neg hlen]

end Response

namespace Region

variable {r : Request} {q : UInt64} {capacity : Nat} {m : Region} {s : Status}

theorem post_of_fits (hf : r.Fits m.payload.length) :
    m.post r q = (.ok (), posted r q m.payload.length) := by
  rw [post_eq, if_neg (mt Request.not_fits.mpr (not_not_intro hf))]

theorem post_of_not_fits (hf : ¬ r.Fits m.payload.length) :
    m.post r q = (.error .badBufferSize, refused r m) := by
  rw [post_eq, if_pos (Request.not_fits.mp hf)]

theorem collect_of_decode {f : FunctionCode} {w : Response} (h : Response.decode f m = .ok w) :
    m.collect f = .ok (m.status, w) := by
  simp [collect, h]

theorem collect_unanswered (hl : r.data.length < lengthLimit)
    (hc : debugInfoHeaderSize ≤ capacity) :
    (((posted r q capacity).setStatus s).markAnswered).collect r.function =
      .ok (s, r.unanswered) := by
  apply collect_of_decode
  exact Response.decode_unanswered hl hc rfl

theorem collect_leftover {w : Response} (hr : r.Fits capacity) (hc : debugInfoHeaderSize ≤ capacity)
    (hs : w.Suits r) (hw : ¬ w.Fits capacity) :
    (((if w.encodedLength ≤ capacity then w.breakOff (posted r q capacity)
      else posted r q capacity).setStatus s).markAnswered).collect r.function =
        .ok (s, r.leftover capacity w) := by
  by_cases hlen : w.encodedLength ≤ capacity
  · have hl : w.fitsLengths = false := by
      rw [← Bool.not_eq_true]
      exact fun hl => hw ⟨hlen, hl⟩
    have hread : Request.decode (posted r q capacity) = .ok r := Request.decode_posted hr.2
    obtain ⟨guid, info, rfl, rfl⟩ := Dispatcher.debugInfo_of_overlong hread hs hl
    rw [if_pos hlen]
    apply collect_of_decode
    exact Response.decode_leftover hlen rfl
  · have hleft : r.leftover capacity w = r.unanswered := by
      cases w with
      | debugInfo info => simp only [Request.leftover, hlen, false_and, if_false]
      | _ => rfl
    rw [if_neg hlen, hleft]
    exact collect_unanswered hr.2 hc

end Region

theorem Dispatcher.answer_posted (d : Dispatcher σ) {r : Request} {q : UInt64} {capacity : Nat}
    {y : σ} (hf : r.Fits capacity) (hc : debugInfoHeaderSize ≤ capacity) :
    (d.answer (.posted r q capacity) y).2 = (d.outcome capacity r y).2 ∧
      (d.answer (.posted r q capacity) y).1.map (Region.collect r.function) =
        (d.outcome capacity r y).1 := by
  have hlen := Region.length_posted (q := q) hf.1
  simp only [answer, outcome, Request.decode_posted hf.2, hf, if_true]
  cases hh : d.handle r y with
  | mk ended z =>
    cases ended with
    | panicked => exact ⟨rfl, rfl⟩
    | returned result =>
      cases result with
      | error e => exact ⟨rfl, congrArg some (Region.collect_unanswered hf.2 hc)⟩
      | ok w =>
        have hs := suits_of_handle hh
        by_cases hw : w.Fits capacity
        · simp only [hw, if_true]
          obtain ⟨k, hk, hread⟩ := Response.exists_encode (m := .posted r q capacity) hs.belongs
            (by rwa [hlen])
          rw [hk]
          exact ⟨rfl, congrArg some (Region.collect_of_decode (hread rfl))⟩
        · simp only [hw, if_false]
          rw [Response.encode_of_not_fits (by rwa [hlen]), hlen]
          exact ⟨rfl, congrArg some (Region.collect_leftover hf hc hs hw)⟩

theorem Dispatcher.answers_of_outcome {d : Dispatcher σ} {r : Request} {q : UInt64} {capacity : Nat}
    {y : σ} (hf : r.Fits capacity) (hc : debugInfoHeaderSize ≤ capacity)
    (ho : (d.outcome capacity r y).1 ≠ none) :
    ∃ n z, d.answer (.posted r q capacity) y = (some n, z) := by
  have hx := (d.answer_posted (q := q) (y := y) hf hc).2
  cases ha : d.answer (.posted r q capacity) y with
  | mk answer z =>
    cases answer with
    | some n => exact ⟨n, z, rfl⟩
    | none =>
      rw [ha] at hx
      exact absurd hx.symm ho

end FirmwareHost
