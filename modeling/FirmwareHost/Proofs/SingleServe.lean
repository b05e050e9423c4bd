import FirmwareHost.Proofs.Outcomes
import FirmwareHost.Proofs.Serving

/-! One request served, whatever the mailbox holds. The consumer wakes, waits for the mailbox, and
from then on goes through with its answer; the answer is told by the first step of it that fails. -/

namespace FirmwareHost

variable {σ : Type}

namespace Dispatcher

/-- What a consumer makes of a region `m` in any state at all: it leaves the region `n`, and the
dispatcher goes from `y` to `z`. -/
structure Responds (d : Dispatcher σ) (m : Region) (y : σ) (n : Region) (z : σ) : Prop where
  called : ∀ calls, d.recording.answer m (y, calls) =
    (some n, z, calls ++ (Request.decode m).toOption.toList)
  header : n.header = ⟨m.header.function, n.status.word, m.header.requestSequence,
    m.header.requestSequence⟩
  undecoded : ∀ e, Request.decode m = .error e →
    n.status = e.status ∧ n.payload = m.payload ∧ z = y
  refused : ∀ r e, Request.decode m = .ok r → (d.handle r y).1 = .returned (.error e) →
    n.status = e.status ∧ n.payload = m.payload
  -- a part too long for its length field is noticed behind a first length that is written already
  outgrown : ∀ r w, Request.decode m = .ok r → (d.handle r y).1 = .returned (.ok w) →
    ¬ w.Fits m.payload.length → n.status = .badBufferSize ∧
      (m.payload.length < w.encodedLength → n.payload = m.payload)
  written : ∀ r w, Request.decode m = .ok r → (d.handle r y).1 = .returned (.ok w) →
    w.Fits m.payload.length → n.status = .success ∧ Response.decode r.function n = .ok w
  invoked : ∀ guid parameters x, Request.decode m = .ok (.invokeHandler guid parameters) →
    (d.invokeHandler guid parameters y).1 = .returned (.ok x) → n.status = .success

variable {d : Dispatcher σ} {m n : Region} {y z : σ} {r : Request} {w : Response} {e : Failure}

theorem answer_of_undecoded (hr : Request.decode m = .error e) :
    d.answer m y = (some (m.setStatus e.status).markAnswered, y) := by
  simp [answer, hr]

theorem answer_of_refused (hr : Request.decode m = .ok r)
    (hh : d.handle r y = (.returned (.error e), z)) :
    d.answer m y = (some (m.setStatus e.status).markAnswered, z) := by
  simp [answer, hr, hh]

theorem answer_of_outgrown {k : Region} (hr : Request.decode m = .ok r)
    (hh : d.handle r y = (.returned (.ok w), z)) (hw : w.encode m = (.error e, k)) :
    d.answer m y = (some (k.setStatus e.status).markAnswered, z) := by
  simp [answer, hr, hh, hw]

theorem answer_of_written {k : Region} (hr : Request.decode m = .ok r)
    (hh : d.handle r y = (.returned (.ok w), z)) (hw : w.encode m = (.ok (), k)) :
    d.answer m y = (some (k.setStatus .success).markAnswered, z) := by
  simp [answer, hr, hh, hw]

theorem fits_of_invoked {guid : Guid} {parameters : Bytes}
    {x : Status × Buffer parameters.length}
    (hr : Request.decode m = .ok (.invokeHandler guid parameters)) :
    (Response.invoke x.1 x.2.val).Fits m.payload.length := by
  -- the parameters go back, edited but as long as they were, to where they came from
  obtain ⟨hlen, hlimit⟩ := Request.bounds_of_decode hr
  have hx := x.2.property
  simp only [Response.Fits, Response.encodedLength, Response.fitsLengths, Request.encodedLength,
    Request.data, decide_eq_true_eq, hx] at *
  exact ⟨hlen, hlimit⟩

theorem written_of_fits (h : d.answer m y = (some n, z)) (hr : Request.decode m = .ok r)
    (hh : (d.handle r y).1 = .returned (.ok w)) (hw : w.Fits m.payload.length) :
    n.status = .success ∧ Response.decode r.function n = .ok w := by
  have hh : d.handle r y = (.returned (.ok w), (d.handle r y).2) := Prod.ext hh rfl
  obtain ⟨k, hk, hread⟩ := Response.exists_encode (suits_of_handle hh).belongs hw
  rw [answer_of_written hr hh hk] at h
  cases h
  exact ⟨rfl, hread rfl⟩

theorem responds_of_answer (h : d.answer m y = (some n, z)) : d.Responds m y n z where
  called calls := by rw [answer_recording, h]
  header := by
    obtain ⟨hf, hq, ha⟩ := header_of_answer h
    calc n.header
      _ = ⟨n.header.function, n.status.word, n.header.requestSequence,
          n.header.answeredSequence⟩ := rfl
      _ = _ := by rw [hf, hq, ha]
  undecoded e hr := by
    rw [answer_of_undecoded hr] at h
    cases h
    exact ⟨rfl, rfl, rfl⟩
  refused r e hr hh := by
    rw [answer_of_refused hr (Prod.ext hh rfl)] at h
    cases h
    exact ⟨rfl, rfl⟩
  outgrown r w hr hh hw := by
    rw [answer_of_outgrown hr (Prod.ext hh rfl) (Response.encode_of_not_fits hw)] at h
    cases h
    refine ⟨rfl, fun hlen => ?_⟩
    rw [if_neg (Nat.not_le.mpr hlen)]
    rfl
  written r w := written_of_fits h
  invoked guid parameters x hr hx := by
    have hh : (d.handle (.invokeHandler guid parameters) y).1 =
        .returned (.ok (.invoke x.1 x.2.val)) := congrArg (Ended.map _) hx
    exact (written_of_fits h hr hh (fits_of_invoked hr)).1

end Dispatcher

/-- Whatever one consumer leaves to the others. -/
def Action.Spares (c : Nat) : Action → Prop
  | .consume e | .idle e | .restart e | .serve e => e ≠ c
  | _ => True

theorem Run.consumer_of_spares {d : Dispatcher σ} {c : Nat} {s t : Machine σ} {h : List Event}
    (hr : Run d (Action.Spares c) s h t) : t.consumers c = s.consumers c := by
  refine Run.preserves (I := fun _ t => t.consumers c = s.consumers c) rfl ?_ hr
  intro _ t a _ u hi ha hs
  cases hs with
  | consumed => exact (Machine.withConsumer_ne _ _ (Ne.symm ha)).trans hi
  | @turned _ e _ hc =>
    have ha : e ≠ c := by rcases hc with rfl | rfl | rfl <;> exact ha
    exact (Machine.withConsumer_ne _ _ (Ne.symm ha)).trans hi
  | _ => exact hi

namespace Machine

variable {d : Dispatcher σ} {s u : Machine σ} {c : Nat}

/-- A consumer that was asked for one request has taken the token. -/
def roused (s : Machine σ) (c : Nat) : Machine σ :=
  s.advanced c ⟨.woken, 0, (s.consumers c).dispatcher⟩ { s.channel with messageReady := ⟨false⟩ }

theorem play_rouse
    (hx : (s.consumers c).phase = .checking ∨ ∃ v, (s.consumers c).phase = .stopped v)
    (hm : s.channel.messageReady.isSet = true) :
    s.play d [.serve c, .consume c] = some ([], s.roused c) := by
  have hs : s.step d (.serve c) = some (s.advanced c (s.consumers c).serve s.channel) :=
    step_serve hx
  have htook : Consumer.Step d c s.channel (s.consumers c).serve []
      ⟨.woken, 0, (s.consumers c).dispatcher⟩ { s.channel with messageReady := ⟨false⟩ } :=
    .took rfl hm
  have hrest : (s.advanced c (s.consumers c).serve s.channel).play d [.consume c] =
      some ([], s.roused c) := play_advanced htook (by simp [Consumer.serve]) rfl rfl
  rw [play]
  simp only [hs, hrest]
  rfl

/-- A consumer that is asked for one request takes the token that is there, however long it would
have waited for one. It stays out while others have the mailbox, and then goes through with its
answer to what it finds, with one call of the dispatcher or none. -/
theorem answers_any_contents (hd : d.Calm)
    (hx : (s.consumers c).phase = .checking ∨ ∃ v, (s.consumers c).phase = .stopped v)
    (hm : s.channel.messageReady.isSet = true) :
    s.play d [.serve c, .consume c] = some ([], s.roused c) ∧
      ∀ {h u}, Run d (Action.Spares c) (s.roused c) h u → u.channel.mailbox.lock = .free →
        ∃ n z, u.play d (List.replicate 4 (.consume c)) =
            some ([.served c u.channel.mailbox.region n],
              u.advanced c ⟨.checking, 1, z⟩ { u.channel with
                mailbox := ⟨n, .free, u.channel.mailbox.acquisitions + 1⟩
                responseReady := ⟨true⟩ }) ∧
          d.Responds u.channel.mailbox.region (s.consumers c).dispatcher n z := by
  refine ⟨play_rouse hx hm, fun {h u} hr hfree => ?_⟩
  have hu : u.consumers c = ⟨.woken, 0, (s.consumers c).dispatcher⟩ :=
    (Run.consumer_of_spares hr).trans (withConsumer_self s c _)
  obtain ⟨n, z, hn⟩ := hd.answers u.channel.mailbox.region (s.consumers c).dispatcher
  have hplay := play_answer (c := c) (by rw [hu]) hfree (by rwa [hu])
  rw [hu] at hplay
  exact ⟨n, z, hplay, Dispatcher.responds_of_answer hn⟩

/-- Bytes that are no request at all get an answer, and stay as they are. -/
theorem answers_any_contents_sample :
    let stale : Region := ⟨⟨0xBAD, 7, 9, 4⟩, List.replicate 32 0xEE⟩
    let ch : Channel := ⟨⟨stale, .free, 0⟩, ⟨true⟩, .initial, .free, 0⟩
    let s : Machine Unit := .initial ch ()
    let d := Dispatcher.adding 1
    d.Calm ∧ (s.consumers 0).phase = .checking ∧ s.channel.messageReady.isSet = true ∧
      s.play d [.serve 0, .consume 0] = some ([], s.roused 0) ∧
      ∃ t, (s.roused 0).play d (List.replicate 4 (.consume 0)) =
        some ([.served 0 stale
          ⟨⟨0xBAD, Status.invalidParameter.word, 9, 9⟩, stale.payload⟩], t) := by
  intro stale ch s d
  have hd : d.Calm := Dispatcher.calm_adding 1
  obtain ⟨hrouse, hanswer⟩ := answers_any_contents (s := s) (c := 0) hd (.inl rfl) rfl
  obtain ⟨n, z, hplay, ha⟩ := hanswer .start rfl
  have hr : Request.decode stale = .error .invalidParameter := by decide
  obtain ⟨hstatus, hpayload, -⟩ := ha.undecoded _ hr
  have hheader := ha.header
  rw [hstatus] at hheader
  have hn : n = ⟨⟨0xBAD, Status.invalidParameter.word, 9, 9⟩, stale.payload⟩ :=
    congrArg₂ Region.mk hheader hpayload
  exact ⟨hd, rfl, rfl, hrouse, _, hn ▸ hplay⟩

end Machine

end FirmwareHost
