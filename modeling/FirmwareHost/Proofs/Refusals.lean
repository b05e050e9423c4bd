import FirmwareHost.Proofs.Outcomes
import FirmwareHost.Proofs.Provenance
import FirmwareHost.Service

/-! Refused calls. Some calls have their reply without any traffic: it waits for nobody, and the
channel never learns of them. Every other call comes to post one request, which is its own. -/

namespace FirmwareHost

namespace Call

/-- The request that a call stands for, with the caller's own GUID and bytes. -/
inductive Means : Call → Request → Prop
  | installPackage {package} (h : package ≠ []) :
      Means (.installPackage package) (.installPackage package)
  | invokeHandler {text guid parameters} (hg : Guid.parse text = .ok guid) (h : parameters ≠ []) :
      Means (.invokeHandler text parameters) (.invokeHandler guid parameters)
  | getHandlerDebugInfo {text guid} (hg : Guid.parse text = .ok guid) :
      Means (.getHandlerDebugInfo text) (.getHandlerDebugInfo guid)

/-- The calls that are refused at a mailbox of a given capacity, each with its wire status. -/
inductive Refused (capacity : Nat) : Call → UInt32 → Prop
  | emptyPackage : Refused capacity (.installPackage []) 0x80000002
  | emptyBuffer {text} : Refused capacity (.invokeHandler text []) 0x80000002
  | unparsable {text parameters e} (hg : Guid.parse text = .error e) :
      Refused capacity (.invokeHandler text parameters) 0x80000002
  | unparsableDebug {text e} (hg : Guid.parse text = .error e) :
      Refused capacity (.getHandlerDebugInfo text) 0x80000002
  | enumerateHandlers : Refused capacity .enumerateHandlers 0x80000003
  | uninstallModule {text} : Refused capacity (.uninstallModule text) 0x80000003
  | oversized {c r} (h : Means c r) (hl : capacity < r.encodedLength) :
      Refused capacity c 0x80000004

/-- A wire status with nothing beside it. -/
def bare (wire : UInt32) : Call → Reply
  | .installPackage _ | .uninstallModule _ => .status wire
  | .enumerateHandlers => .handlers ⟨wire, []⟩
  | .invokeHandler .. => .invoke ⟨[], 0, wire⟩
  | .getHandlerDebugInfo _ => .debugInfo ⟨[], "", wire⟩

/-- The field of a call that has no bound of its own. -/
def data : Call → Bytes
  | .installPackage package => package
  | .invokeHandler _ parameters => parameters
  | _ => []

variable {c : Call} {r : Request} {e : Failure} {capacity : Nat} {wire : UInt32}

theorem Means.request (h : c.Means r) : c.request = .ok r := by
  cases h with
  | installPackage h => rw [request_installPackage, if_neg h]
  | invokeHandler hg h => simp only [request_invokeHandler, hg, h, if_false]
  | getHandlerDebugInfo hg => simp only [request_getHandlerDebugInfo, hg]

theorem Means.data (h : c.Means r) : r.data = c.data := by
  cases h <;> rfl

/-- A refused call makes no request, or one that is too long. -/
theorem Refused.request (h : c.Refused capacity wire) :
    (∃ e, c.request = .error e ∧ e.wire = wire) ∨
      ∃ r, c.request = .ok r ∧ capacity < r.encodedLength ∧ Failure.badBufferSize.wire = wire := by
  cases h with
  | emptyPackage => exact .inl ⟨.invalidParameter, rfl, rfl⟩
  | emptyBuffer =>
    refine .inl ⟨.invalidParameter, ?_, rfl⟩
    rw [request_invokeHandler]
    split <;> rfl
  | unparsable hg => exact .inl ⟨.invalidParameter, by simp only [request_invokeHandler, hg], rfl⟩
  | unparsableDebug hg =>
    exact .inl ⟨.invalidParameter, by simp only [request_getHandlerDebugInfo, hg], rfl⟩
  | enumerateHandlers | uninstallModule => exact .inl ⟨.unsupported, rfl, rfl⟩
  | oversized hm hl => exact .inr ⟨_, hm.request, hl, rfl⟩

end Call

variable {σ : Type} {d : Dispatcher σ} {I : Machine σ → Prop} {s t u : Machine σ} {a : Action}
  {h es : List Event} {p : Nat} {c : Call} {r : Request} {q : UInt64} {limit : Option Nat}
  {x : Option Reply} {n : Nat}

def Machine.replyTo (t : Machine σ) (p : Nat) (c : Call) : Option Reply :=
  match (t.producers p).phase with
  | .done result => some (c.reply result)
  | _ => none

/-- A call that producer `p` makes in `s`, everybody else going on as they please: the history
since then, the machine, and the reply if it has been given. Steps are taken where `I` holds. -/
inductive Calling (d : Dispatcher σ) (I : Machine σ → Prop) (limit : Option Nat) (p : Nat)
    (c : Call) (s : Machine σ) : List Event → Machine σ → Option Reply → Prop
  | refused {e} (hc : c.request = .error e) : Calling d I limit p c s [] s (some (c.fail e))
  | begun {r v} (hc : c.request = .ok r) (hs : s.step d (.call p r limit) = some v) :
      Calling d I limit p c s [] v none
  | next {h v x a w} (hv : Calling d I limit p c s h v x) (hI : I v) (ha : a.Leaves p)
      (hs : v.step d a = some w) :
      Calling d I limit p c s (h ++ v.events d a) w (x <|> w.replyTo p c)

theorem Calling.capacity (h : Calling d I limit p c s es t x) :
    t.channel.mailbox.capacity = s.channel.mailbox.capacity := by
  induction h with
  | refused => rfl
  | begun _ hs => exact (Machine.step_inv hs).capacity
  | next _ _ _ hs ih => exact (Machine.step_inv hs).capacity.trans ih

variable {reply : Reply}

def Event.isPostBy (p : Nat) : Event → Bool
  | .posted e .. => e = p
  | _ => false

def postsBy (p : Nat) (h : List Event) : List Event := h.filter (Event.isPostBy p)

namespace ProducerPhase

/-- The phases of a producer on its way to the post of `r`. -/
def Prepares (r : Request) : ProducerPhase → Prop
  | .sizing r' | .queueing r' | .numbering r' => r' = r
  | .acquiring r' _ | .discarding r' _ | .writing r' _ => r' = r
  | _ => False

end ProducerPhase

/-- Until the post nothing but a poisoned lock can keep a request that fits from it. -/
theorem ProducerPhase.Step.prepares {ch ch' : Channel} {x y : ProducerPhase}
    (hs : Step p ch x es y ch') (hx : x.Prepares r) (hf : r.Fits ch.mailbox.capacity)
    (hin : ch.inFlight ≠ .poisoned) (hl : ch.mailbox.lock ≠ .poisoned) :
    (y.Prepares r ∧ postsBy p es = []) ∨
      ∃ q, y = .releasing r q ∧ es = [.posted p r q (.posted r q ch.mailbox.capacity)] := by
  cases hs with
  | oversized h =>
    cases hx
    exact absurd hf.1 (Nat.not_le.mpr h)
  | turnedAway h => exact absurd h hin
  | shutOut h => exact absurd h hl
  | rejected h =>
    cases hx
    obtain ⟨-, -, hlong⟩ := Region.refused_of_post h
    exact absurd hf (Request.not_fits.mpr hlong)
  | posted h =>
    cases hx
    obtain ⟨-, -, rfl⟩ := Region.posted_of_post h
    exact .inr ⟨_, rfl, rfl⟩
  | sized | admitted | numbered | locked | discarded => exact .inl ⟨hx, rfl⟩
  | _ => exact hx.elim

end FirmwareHost
