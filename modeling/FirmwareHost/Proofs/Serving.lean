import FirmwareHost.Proofs.Wakeups

/-! A consumer by itself. Where a message waits it can wake, and once awake it can go through with
its answer and come back to rest. -/

namespace FirmwareHost

variable {σ : Type} {d : Dispatcher σ} {v : Machine σ} {es : List Event}

namespace Machine

variable {s u : Machine σ} {c : Nat}

/-- A machine with one consumer and the channel as a step of that consumer leaves them. -/
def advanced (s : Machine σ) (c : Nat) (x : Consumer σ) (ch : Channel) : Machine σ :=
  { s.withConsumer c x with channel := ch }

theorem advanced_self (s : Machine σ) (c : Nat) : s.advanced c (s.consumers c) s.channel = s := by
  have hc : (fun e => if e = c then s.consumers c else s.consumers e) = s.consumers := by
    funext e
    split <;> simp_all
  simp only [advanced, withConsumer, hc]

theorem advanced_advanced (s : Machine σ) (c : Nat) (x y : Consumer σ) (ch ch' : Channel) :
    (s.advanced c x ch).advanced c y ch' = s.advanced c y ch' := by
  simp only [advanced, withConsumer, Machine.mk.injEq, true_and]
  funext e
  split <;> rfl

theorem play_advanced {x y : Consumer σ} {ch ch' : Channel} {es h g : List Event}
    {rest : List Action} {t : Machine σ} (hs : Consumer.Step d c ch x es y ch')
    (hx : x.phase ≠ .checking) (hrest : (s.advanced c y ch').play d rest = some (h, t))
    (hg : es ++ h = g) : (s.advanced c x ch).play d (.consume c :: rest) = some (g, t) := by
  subst hg
  have hself : (s.advanced c x ch).consumers c = x := withConsumer_self s c x
  obtain ⟨hstep, he⟩ := step_consume (s := s.advanced c x ch) (by rwa [hself]) (by rwa [hself])
  have hnext : { (s.advanced c x ch).withConsumer c y with channel := ch' } = s.advanced c y ch' :=
    advanced_advanced s c x y ch ch'
  simp only [play, hstep, he, hnext, hrest, Option.map_some]

theorem play_answer {n : Region} {z : σ} (hx : (u.consumers c).phase = .woken)
    (hfree : u.channel.mailbox.lock = .free)
    (hn : d.answer u.channel.mailbox.region (u.consumers c).dispatcher = (some n, z)) :
    u.play d (List.replicate 4 (.consume c)) = some ([.served c u.channel.mailbox.region n],
      u.advanced c ⟨.checking, (u.consumers c).served + 1, z⟩ { u.channel with
        mailbox := ⟨n, .free, u.channel.mailbox.acquisitions + 1⟩, responseReady := ⟨true⟩ }) := by
  suffices h : (u.advanced c (u.consumers c) u.channel).play d
      (List.replicate 4 (.consume c)) = _ by
    rwa [advanced_self] at h
  refine play_advanced (.locked hx hfree) (by simp [hx]) ?_ rfl
  refine play_advanced (.served rfl hn) nofun ?_ rfl
  refine play_advanced (.signalled rfl) nofun ?_ rfl
  exact play_advanced (.released rfl) nofun rfl rfl

end Machine

theorem Run.consumes {y : Consumer σ} {ch : Channel}
    (hs : Consumer.Step d 0 v.channel (v.consumers 0) es y ch)
    (hx : (v.consumers 0).phase ≠ .checking) :
    ∃ w, Run d Action.Consumes v es w ∧ w.producers = v.producers ∧ w.channel = ch ∧
      w.consumers 0 = y := by
  obtain ⟨hstep, rfl⟩ := Machine.step_consume hx hs
  exact ⟨_, Run.start.next (.inl rfl) hstep, rfl, rfl, by simp⟩

theorem Run.wakes (d : Dispatcher σ) (hm : v.channel.messageReady.isSet = true)
    (hat : (v.consumers 0).phase.atRest = true) : ∃ w, Run d Action.Consumes v [] w ∧
      w.producers = v.producers ∧ w.channel = { v.channel with messageReady := ⟨false⟩ } ∧
      (w.consumers 0).phase = .woken ∧ (w.consumers 0).dispatcher = (v.consumers 0).dispatcher := by
  obtain ⟨w, hr, hprod, hch, hw, hd⟩ : ∃ w, Run d Action.Consumes v [] w ∧
      w.producers = v.producers ∧ w.channel = v.channel ∧ (w.consumers 0).phase = .waiting ∧
      (w.consumers 0).dispatcher = (v.consumers 0).dispatcher := by
    obtain ⟨y, hy⟩ : ∃ y, (v.consumers 0).phase = y := ⟨_, rfl⟩
    rw [hy] at hat
    cases y with
    | waiting => exact ⟨v, .start, rfl, rfl, hy, rfl⟩
    | checking | stopped =>
      refine ⟨_, .next .start (.inr rfl) (Machine.step_serve (by simp [hy])), rfl, rfl, ?_⟩
      rw [Machine.withConsumer_self]
      exact ⟨rfl, rfl⟩
    | _ => cases hat
  have hm' : w.channel.messageReady.isSet = true := by
    rw [hch]
    exact hm
  obtain ⟨u, hu, hprod', hch', hy⟩ := Run.consumes (d := d) (.took hw hm') (by simp [hw])
  exact ⟨u, hr.trans hu, hprod'.trans hprod, by rw [hch', hch], by rw [hy], by rw [hy, hd]⟩

theorem Run.serves {n : Region} {z : σ} (hw : (v.consumers 0).phase = .woken)
    (hfree : v.channel.mailbox.lock = .free)
    (hn : d.answer v.channel.mailbox.region (v.consumers 0).dispatcher = (some n, z)) :
    ∃ w, Run d Action.Consumes v [.served 0 v.channel.mailbox.region n] w ∧
      w.producers = v.producers ∧ w.channel = { v.channel with
        mailbox := ⟨n, .free, v.channel.mailbox.acquisitions + 1⟩, responseReady := ⟨true⟩ } ∧
      (w.consumers 0).phase = .checking := by
  have hplay := Machine.play_answer hw hfree hn
  have hl : ∀ a ∈ List.replicate 4 (Action.consume 0), a.Consumes :=
    fun a ha => .inl (List.eq_of_mem_replicate ha)
  exact ⟨_, Run.of_play hl hplay, rfl, rfl, by simp [Machine.advanced]⟩

end FirmwareHost
