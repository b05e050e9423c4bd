import FirmwareHost.Proofs.Completion
import FirmwareHost.Proofs.WireStatus

/-! What a caller is told of a dispatcher's failure. A failure is carried as its status word and
found again by the error bit of that word, which a failure of no known class need not have. -/

namespace FirmwareHost

def Reply.statusWord : Reply → UInt32
  | .status wire => wire
  | .handlers r => r.status
  | .invoke r => r.status
  | .debugInfo r => r.status

variable {σ : Type} {d : Dispatcher σ} {s t : Machine σ} {capacity : Nat} {y z : σ} {c : Call}
  {r : Request} {e : Failure} {cs : List Call} {xs : List Reply}

theorem roundTrip_of_error {f : Status} {w : Response} (h : f.isError = true) :
    roundTrip (.ok (f, w)) = .error (.ofStatus f) := by
  simp [roundTrip, h, bind, Except.bind]

theorem roundTrip_of_not_error {f : Status} {w : Response} (h : f.isError = false) :
    roundTrip (.ok (f, w)) = .ok w := by
  simp [roundTrip, h, bind, Except.bind]
  rfl

/-- The reply that an unanswered request's status makes. -/
theorem Call.statusWord_reply (hc : c.request = .ok r) (f : Status) :
    (c.reply (.ok (f, r.unanswered))).statusWord =
      if r.function = .invokeHandler ∨ f.isError = true then f.toWire else 0 := by
  cases c with
  | enumerateHandlers | uninstallModule => cases hc
  | installPackage package =>
    rw [request_installPackage] at hc
    split at hc <;> cases hc
    cases hf : f.isError with
    | true =>
      simp [reply, roundTrip_of_error hf, fail, Reply.statusWord, Failure.wire,
        Failure.status_ofStatus]
    | false =>
      simp [reply, roundTrip_of_not_error hf, Reply.statusWord, Request.function]
      rfl
  | invokeHandler text parameters =>
    rw [request_invokeHandler] at hc
    split at hc
    · cases hc
    · split at hc <;> cases hc
      simp [reply, Request.unanswered, Request.function, Reply.statusWord]
  | getHandlerDebugInfo text =>
    rw [request_getHandlerDebugInfo] at hc
    split at hc <;> cases hc
    cases hf : f.isError with
    | true =>
      simp [reply, roundTrip_of_error hf, fail, Reply.statusWord, Failure.wire,
        Failure.status_ofStatus]
    | false =>
      simp [reply, roundTrip_of_not_error hf, Request.unanswered, Reply.statusWord,
        Request.function]
      rfl

theorem Call.settle_of_error (hc : c.request = .ok r) (hf : r.Fits capacity)
    (he : d.handle r y = (.returned (.error e), z)) :
    c.settle d capacity y = some (c.reply (.ok (e.status, r.unanswered)), z) := by
  simp only [settle, hc, Dispatcher.outcome_of_error hf he]

/-- Whatever was called before, a call whose posted request the dispatcher fails has one reply. It
carries the failure's status if the status has the error bit or the call is an invocation, and
success otherwise. -/
theorem Conversation.failure_reported (hs : s.Fresh) (hr : Conversation d s cs xs t)
    (hc : c.request = .ok r) (hf : r.Fits s.channel.mailbox.capacity)
    (he : d.handle r (t.consumers 0).dispatcher = (.returned (.error e), z)) :
    ∃ x, (∃ u, Exchange d t c x u) ∧ (∀ x' u, Exchange d t c x' u → x' = x) ∧
      x.statusWord =
        (if r.function = .invokeHandler ∨ e.status.isError = true then e.wire else 0) ∧
      (x.statusWord = e.wire ∧ x.statusWord ≠ 0 ↔
        e.status.isError = true ∨ r.function = .invokeHandler ∧ e.wire ≠ 0) := by
  obtain ⟨y, -, ht⟩ := hr.settles hs.spacious hs.resting
  rw [ht.quiet.dispatcher] at he
  have hsettle := Call.settle_of_error hc hf he
  have hword := Call.statusWord_reply hc e.status
  refine ⟨_, ht.exchanges hs.spacious hsettle, fun x' u hx => ?_, hword, ?_⟩
  · obtain ⟨w, hw, -⟩ := Exchange.settles ht hs.spacious hx
    rw [hsettle] at hw
    exact (Prod.mk.inj (Option.some.inj hw)).1.symm
  · have hbit : e.status.isError = true → e.wire ≠ 0 := Status.toWire_ne_zero
    rw [hword]
    by_cases htold : r.function = .invokeHandler ∨ e.status.isError = true
    · rw [if_pos htold]
      constructor
      · rintro ⟨-, hne⟩
        exact htold.symm.imp_right fun hi => ⟨hi, hne⟩
      · rintro (hb | ⟨-, hne⟩)
        · exact ⟨rfl, hbit hb⟩
        · exact ⟨rfl, hne⟩
    · obtain ⟨hi, hb⟩ := not_or.mp htold
      rw [if_neg htold]
      constructor
      · rintro ⟨-, hne⟩
        exact absurd rfl hne
      · rintro (hb' | ⟨hi', -⟩)
        · exact absurd hb' hb
        · exact absurd hi' hi

def Dispatcher.failing (e : Failure) : Dispatcher Unit where
  installPackage _ y := (.returned (.error e), y)
  enumerateHandlers y := (.returned (.error e), y)
  invokeHandler _ _ y := (.returned (.error e), y)
  uninstallModule _ y := (.returned (.error e), y)
  debugInfo _ y := (.returned (.error e), y)

theorem Conversation.failure_reported_sample : ∃ x u,
    Exchange (.failing .notFound) (.initial .smallest ()) (.installPackage [1]) x u ∧
      x.statusWord = Failure.notFound.wire ∧ x.statusWord ≠ 0 := by
  obtain ⟨x, ⟨u, hu⟩, -, -, hx⟩ := Conversation.failure_reported
    (c := .installPackage [1]) (d := .failing .notFound) (z := ()) (Machine.fresh_smallest ()) .nil
    rfl (by decide) rfl
  obtain ⟨hword, hne⟩ := hx.mpr (.inl (by decide))
  exact ⟨x, u, hu, hword, hne⟩

/-- A failure with a word that is neither success nor an error is told as success. -/
theorem Conversation.failure_as_success : ∃ u,
    Exchange (.failing (.other ⟨4⟩)) (.initial .smallest ()) (.installPackage [1]) (.status 0) u ∧
      (Failure.other ⟨4⟩).wire = 4 := by
  have hs := Machine.fresh_smallest ()
  obtain ⟨u, hu⟩ := hs.resting.exchanges (d := .failing (.other ⟨4⟩)) (c := .installPackage [1])
    (x := .status 0) (z := ()) hs.spacious (by rfl)
  exact ⟨u, hu, by decide⟩

end FirmwareHost
