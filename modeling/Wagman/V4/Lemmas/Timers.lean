import Wagman.V4.Lemmas.Setup

/-!
# 心拍の計時

心拍の計時は、最後の心拍か状態の変化の時刻に始め直したものである。操作ごとに、計時と記録が対応し続けることと、
状態か `managed` が変われば計時も始め直されることを、一つの推移的な関係として示す。
-/

namespace Wagman.V4

open Machine

/-- 心拍の計時を始め直す事象。 -/
def Event.beats (p : Port) : Event → Bool
  | .state q _ => q == p
  | .heartbeat q => q == p
  | _ => false

/-- 記録の中で最後の、`devices[p]` の心拍か状態の変化の時刻。 -/
def lastBeat (p : Port) (log : Log) : Nat := ((log.find? (·.event.beats p)).map Entry.time).getD 0

theorem lastBeat_cons_self {p : Port} {x : Entry Event} (h : x.event.beats p = true) (l : Log) :
    lastBeat p (x :: l) = x.time := by simp [lastBeat, h]

theorem lastBeat_cons_of_not {p : Port} {x : Entry Event} (h : x.event.beats p = false) (l : Log) :
    lastBeat p (x :: l) = lastBeat p l := by simp [lastBeat, h]

theorem beats_eq_false_of_not_about {p : Port} {e : Event} (h : ¬ e.About p) : e.beats p = false := by
  cases e with
  | state q s => exact beq_eq_false_iff_ne.mpr h
  | heartbeat q => exact beq_eq_false_iff_ne.mpr h
  | _ => rfl

/-- 心拍の計時は、記録にある最後の心拍か状態の変化の時刻に始まる。 -/
structure TimerOk (p : Port) (w : World) : Prop where
  timer : (dev w p).heartbeatTimer = DurationTimer.reset (lastBeat p w.log)
  le_now : lastBeat p w.log ≤ w.now

theorem lastBeat_changeState (p : Port) (w : World) (s : State) :
    lastBeat p (Device.changeState p s w).log = w.now := lastBeat_cons_self (by simp [Event.beats]) _

theorem timerOk_changeState (p : Port) (w : World) (s : State) :
    TimerOk p (Device.changeState p s w) := by
  refine ⟨?_, by rw [lastBeat_changeState]; exact Nat.le_refl _⟩
  rw [lastBeat_changeState]
  simp [dev, Device.enter, timerNow]

/-- 監視の仕方を決める欄。 -/
def Device.mode (d : Device) : State × Bool := (d.state, d.managed)

/-- 計時と記録の対応を保ち、監視の仕方が変わるなら計時も始め直す。 -/
structure Timed (p : Port) (w w' : World) : Prop where
  now_le : w.now ≤ w'.now
  ok : TimerOk p w → TimerOk p w'
  keeps : (lastBeat p w'.log = lastBeat p w.log ∧ (dev w' p).mode = (dev w p).mode) ∨ w.now ≤ lastBeat p w'.log

namespace Timed

variable {p : Port} {w w' w'' : World}

theorem trans (h₁ : Timed p w w') (h₂ : Timed p w' w'') : Timed p w w'' := by
  refine ⟨Nat.le_trans h₁.now_le h₂.now_le, fun h => h₂.ok (h₁.ok h), ?_⟩
  rcases h₂.keeps with ⟨hb₂, hm₂⟩ | h
  · rcases h₁.keeps with ⟨hb₁, hm₁⟩ | h
    · exact Or.inl ⟨hb₂.trans hb₁, hm₂.trans hm₁⟩
    · exact Or.inr (hb₂ ▸ h)
  · exact Or.inr (Nat.le_trans h₁.now_le h)

theorem of_trail (h : Trail (fun e => e.beats p = false) w w')
    (ht : (dev w' p).heartbeatTimer = (dev w p).heartbeatTimer) (hm : (dev w' p).mode = (dev w p).mode) :
    Timed p w w' := by
  have hlog : lastBeat p w'.log = lastBeat p w.log := h.log_eq fun x l hx => lastBeat_cons_of_not hx l
  refine ⟨h.now_le, fun hok => ⟨by rw [ht, hlog, hok.timer], ?_⟩, Or.inl ⟨hlog, hm⟩⟩
  rw [hlog]
  exact Nat.le_trans hok.le_now h.now_le

theorem refl (w : World) : Timed p w w := of_trail (Trail.refl w) rfl rfl

theorem of_frame (h : Frame p w w') : Timed p w w' :=
  of_trail (h.trail.mono fun _ he => beats_eq_false_of_not_about he) (by rw [h.dev]) (by rw [h.dev])

theorem of_still (h : Still (fun e => e.beats p = false) w w') : Timed p w w' :=
  of_trail h.trail (by simp only [dev, h.ram]) (by simp only [dev, h.ram])

theorem of_setDev {d : Device} (ht : d.heartbeatTimer = (dev w p).heartbeatTimer)
    (hm : d.mode = (dev w p).mode) :
    Timed p w (setDev p d w) :=
  of_trail (trail_setDev p d) (by simpa using ht) (by simpa using hm)

theorem changeState (h : w.now ≤ w'.now) (s : State) : Timed p w (Device.changeState p s w') :=
  ⟨h, fun _ => timerOk_changeState p w' s, Or.inr (by rw [lastBeat_changeState]; exact h)⟩

theorem beat (w : World) : Timed p w (Device.beat p w) := by
  have hlog : lastBeat p (Device.beat p w).log = w.now := lastBeat_cons_self (by simp [Event.beats]) _
  refine ⟨Nat.le_refl _, fun _ => ⟨?_, by rw [hlog]; exact Nat.le_refl _⟩, Or.inr (by rw [hlog])⟩
  rw [hlog, Device.dev_beat]
  rfl

end Timed

/-! ## 操作ごとの関係 -/

section Operations

variable (env : Env) (p : Port) (w : World)

theorem timed_powerDown : Timed p w (Device.powerDown env p w) := by
  have hle : w.now ≤ (Device.driveRelay env p relayTurningOff false relayOff w).now :=
    (still_driveRelay (A := fun _ => True) trivial (fun _ => trivial) (fun _ => trivial)
      (fun _ => trivial)).trail.now_le
  refine (Timed.changeState hle .stopped).trans ?_
  exact Timed.of_trail (((Trail.refl _).setRam _).mark rfl) rfl rfl

theorem timed_enable : Timed p w (Device.enable env p w) :=
  Timed.changeState (Device.acts_setDeviceEnabled env w p true).trail.now_le .stopped

theorem timed_setNextBootMedia (m : Media) : Timed p w (Device.setNextBootMedia env p m w) :=
  Timed.of_trail (trail_setNextBootMedia rfl fun _ _ => rfl) (by simp) (by simp [Device.mode])

theorem timed_powerUp : Timed p w (Device.powerUp env p w) :=
  Timed.changeState (Device.acts_energize env w p).trail.now_le .started

variable {env p w} in
theorem timed_prim {w' : World} (h : Prim env p (Frame p) w w') : Timed p w w' := by
  cases h with
  | frame hf => exact Timed.of_frame hf
  | tweak d hd =>
      refine Timed.of_setDev (Device.steady_heartbeatTimer hd) ?_
      rw [Device.mode, Device.mode, Device.steady_state hd, Device.steady_managed hd]
  | beat => exact Timed.beat w
  | refuse _ _ => exact Timed.changeState (Device.acts_setDeviceEnabled env w p false).trail.now_le .disabled
  | halt _ => exact Timed.changeState (Nat.le_refl _) .stopping
  | revive _ _ => exact timed_enable env p w
  | off _ => exact timed_powerDown env p w
  | on _ => exact timed_powerUp env p w
  | fail _ => exact Timed.of_still (still_put (fun _ _ _ _ => rfl) _)
  | media m => exact timed_setNextBootMedia env p w m

theorem timed_sense : Timed p w (Device.sense env p w) :=
  prim_sense (P := Timed p w) (fun _ _ hp h => h.trans (timed_prim hp.ofTick))
    (fun _ _ _ _ h => h.trans (Timed.changeState (Nat.le_refl _) .started)) (Timed.refl w)

theorem timed_updateState : Timed p w (Device.updateState env p w) :=
  prim_updateState (P := Timed p w) (fun _ _ hp h => h.trans (timed_prim hp.ofTick)) (Timed.refl w)

end Operations

theorem timed_step {env : Env} {p : Port} {o : Op} {w w' : World} (h : StepOn env p o w w') :
    Timed p w w' :=
  h.induct (P := Timed p w) (fun _ _ hp h => h.trans (timed_prim hp)) (fun _ h => h.trans (timed_enable env p w))
    (fun _ _ _ _ h => h.trans (Timed.changeState (Nat.le_refl _) .started)) (Timed.refl w)

theorem timerOk_booted (env : Env) (h : Hardware) (p : Port) : TimerOk p (booted env h) := by
  refine booted_induct (p := p) (fun w w' hf hok => (Timed.of_frame hf).ok hok) h ?_ ?_
  · intro w hd _
    rw [Device.init_eq]
    exact timerOk_changeState p _ _
  · intro w _ _ hok
    exact (timed_powerUp env p w).ok hok

end Wagman.V4
