import Wagman.V4.Lemmas.Local

/-!
# 機器の操作の分解

`devices[p]` の操作は、少数の基本の操作を続けたものである。どの基本の操作にも保たれる性質は、どの操作にも保たれる。
心拍で `STARTED` に入る操作と、要求による `enable` は、条件を付けて扱う性質があるので、基本の操作に含めない。
-/

namespace Wagman.V4

open Machine

/-- 停止の待ち時間と、停止の知らせ、電流の計時を除いた欄。 -/
def Device.steady (d : Device) : Device :=
  { d with stopTimeout := 0, stopMessageTimer := {}, currentLevel := .normal, currentLevelTimer := {} }

section Steady

variable {d d' : Device} (h : d.steady = d'.steady)

include h

theorem Device.steady_state : d.state = d'.state := by
  have hs := congrArg Device.state h
  exact hs

theorem Device.steady_managed : d.managed = d'.managed := by
  have hm := congrArg Device.managed h
  exact hm

theorem Device.steady_heartbeatTimer : d.heartbeatTimer = d'.heartbeatTimer := by
  have ht := congrArg Device.heartbeatTimer h
  exact ht

end Steady

/-- `devices[p]` についての基本の操作。`F` は操作の間に起きる、`devices[p]` に関わらない部分である。 -/
inductive Prim (env : Env) (p : Port) (F : World → World → Prop) : World → World → Prop
  | frame {w w'} : F w w' → Prim env p F w w'
  | tweak {w} (d : Device) : d.steady = (dev w p).steady → Prim env p F w (setDev p d w)
  | beat {w} : Prim env p F w (Device.beat p w)
  | refuse {w} : p ≠ 0 → (dev w p).state = .disabled →
      Prim env p F w (Device.changeState p .disabled (Record.setDeviceEnabled env p false w))
  | halt {w} : (dev w p).state = .started ∨ (dev w p).state = .disabled →
      Prim env p F w (Device.changeState p .stopping w)
  | revive {w} : p = 0 → (dev w p).state = .disabled → Prim env p F w (Device.enable env p w)
  | off {w} : (dev w p).state ≠ .disabled → Prim env p F w (Device.powerDown env p w)
  | on {w} : (dev w p).state ≠ .stopping → Prim env p F w (Device.powerUp env p w)
  | fail {w} : (dev w p).state = .started → Prim env p F w (Record.incrementBootFailures env p w)
  | media {w} (m : Media) : Prim env p F w (Device.setNextBootMedia env p m w)

theorem Prim.ofTick {env : Env} {p : Port} {w w' : World} (h : Prim env p Tick w w') :
    Prim env p (Frame p) w w' := by
  cases h with
  | frame ht => exact .frame (Frame.ofTick ht)
  | tweak d hd => exact .tweak d hd
  | beat => exact .beat
  | refuse hp hs => exact .refuse hp hs
  | halt hs => exact .halt hs
  | revive hp hs => exact .revive hp hs
  | off hs => exact .off hs
  | on hs => exact .on hs
  | fail hs => exact .fail hs
  | media m => exact .media m

section Operations

variable {env : Env} {p : Port} {w : World} {P : World → Prop} (hP : ∀ v v', Prim env p Tick v v' → P v → P v')

include hP

theorem prim_kill (h : P w) : P (Device.kill env p w).2 := by
  by_cases hs : (dev w p).state = .disabled
  · rw [Device.kill_of_disabled env hs]
    exact h
  · rw [Device.kill_of_ne env hs]
    exact hP _ _ (.off hs) h

theorem prim_stop (h : P w) : P (Device.stop env p w).2 := by
  cases hs : (dev w p).state with
  | disabled =>
      simp only [Device.stop, hs]
      exact hP _ _ (.halt (Or.inr hs)) h
  | stopped =>
      simp only [Device.stop, hs]
      exact prim_kill hP h
  | started =>
      simp only [Device.stop, hs]
      exact hP _ _ (.halt (Or.inl hs)) h
  | stopping =>
      simp only [Device.stop, hs]
      exact h

theorem prim_start (h : P w) : P (Device.start env p w).2 := by
  by_cases hs : (dev w p).state = .stopping
  · rw [Device.start_of_stopping env hs]
    exact h
  · rw [Device.start_of_ne env hs]
    exact hP _ _ (.on hs) h

theorem prim_setStopTimeout (t : UInt32) (h : P w) : P (Device.setStopTimeout p t w) :=
  hP _ _ (.tweak _ rfl) h

theorem prim_ioRead (h : P w) : P (ioRead env w) := hP _ _ (.frame (Idle.tick still_ioRead)) h

theorem prim_updateFault (h : P w) : P (Device.updateFault env p w) := by
  have hread := prim_ioRead hP h
  simp only [Device.updateFault]
  split
  · exact hread
  · split
    · exact hP _ _ (.tweak _ rfl) hread
    · exact hread

theorem prim_updateStarted (hs : (dev w p).state = .started) (h : P w) :
    P (Device.updateStarted env p w) := by
  unfold Device.updateStarted
  split
  · have hb : P (Device.checkHeartbeat env p w) := by
      unfold Device.checkHeartbeat
      split
      · exact prim_stop hP (hP _ _ (.fail hs) h)
      · exact h
    simp only [Device.updateStartedManaged]
    unfold Device.checkCurrent
    split
    · exact hP _ _ (.tweak _ rfl) hb
    · exact hb
  · simp only [Device.updateStartedUnmanaged]
    split
    · exact prim_stop hP (hP _ _ (.media _) (prim_ioRead hP h))
    · exact h

theorem prim_updateStopping (h : P w) : P (Device.updateStopping env p w) := by
  have hmsg : P (Device.sendStopMessage p w) := by
    unfold Device.sendStopMessage
    split
    · exact hP _ _ (.tweak _ rfl) h
    · exact h
  simp only [Device.updateStopping]
  unfold Device.checkStopTimeout
  split
  · exact prim_kill hP (prim_setStopTimeout hP 60000 hmsg)
  · exact hmsg

theorem prim_updateState (h : P w) : P (Device.updateState env p w) := by
  cases hs : (dev w p).state with
  | disabled =>
      simp only [Device.updateState, hs]
      unfold Device.updateDisabled
      split
      · rename_i hc
        exact hP _ _ (.revive hc.1 hs) h
      · exact h
  | stopped =>
      simp only [Device.updateState, hs]
      exact h
  | started =>
      simp only [Device.updateState, hs]
      exact prim_updateStarted hP hs h
  | stopping =>
      simp only [Device.updateState, hs]
      exact prim_updateStopping hP h

/-- 心拍は、止まっている機器を `STARTED` に入れるほかは、基本の操作の続きである。 -/
theorem prim_onHeartbeat (hwake : (dev w p).state = .stopped → P (Device.beat p w) →
      P (Device.changeState p .started (Device.beat p w)))
    (h : P w) : P (Device.onHeartbeat env p w) := by
  have hb := hP _ _ .beat h
  cases hs : (dev w p).state with
  | disabled =>
      rw [Device.onHeartbeat_of_disabled env hs]
      split
      · exact hb
      · rename_i hp
        exact hP _ _ (.refuse hp (by simpa using hs)) hb
  | stopped =>
      rw [Device.onHeartbeat_of_stopped env hs]
      exact hwake hs hb
  | started =>
      rw [Device.onHeartbeat_of_powered env (Or.inl hs)]
      exact hb
  | stopping =>
      rw [Device.onHeartbeat_of_powered env (Or.inr hs)]
      exact hb

theorem prim_sense (hwake : ∀ v, Tick w v → 4 ≤ w.ram.heartbeatCounters p → (dev w p).state = .stopped →
      P (Device.beat p v) → P (Device.changeState p .started (Device.beat p v)))
    (h : P w) : P (Device.sense env p w) := by
  have hh : P (Device.updateHeartbeat env p w) := by
    unfold Device.updateHeartbeat
    split
    · rename_i hc
      have hset : Tick w (w.setRam { w.ram with
          heartbeatCounters := Function.update w.ram.heartbeatCounters p 0 }) :=
        Tick.setRam w rfl rfl rfl rfl rfl Or.inl
      exact prim_onHeartbeat hP (fun hs hb => hwake _ hset hc hs hb) (hP _ _ (.frame hset) h)
    · exact h
  exact prim_updateFault hP hh

end Operations

/-! ## 実行の一歩 -/

/-- 操作 `o` は、`devices[p]` への心拍を伝える。 -/
def Beats (p : Port) (o : Op) (w : World) : Prop :=
  match o with
  | .request a port r => Req.ofId r.id = some .ping ∧ (a = true ∨ port = r.subId - 1) ∧ r.Targets p
  | .update i => i = p ∧ 4 ≤ w.ram.heartbeatCounters p
  | _ => False

instance (p : Port) (o : Op) (w : World) : Decidable (Beats p o w) :=
  match o with
  | .request _ _ _ => inferInstanceAs (Decidable (_ ∧ _ ∧ _))
  | .update _ => inferInstanceAs (Decidable (_ ∧ _))
  | .idle _ | .pinHB _ | .startNext | .resetAll | .status | .reset | .leds => isFalse id

/-- 一歩に保たれることを、基本の操作、要求による `enable`、心拍で `STARTED` に入る操作について調べればよい。 -/
theorem StepOn.induct {env : Env} {p : Port} {o : Op} {w w' : World} (hs : StepOn env p o w w')
    {P : World → Prop}
    (hP : ∀ v v', Prim env p (Frame p) v v' → P v → P v')
    (henable : o.Enables p → P w → P (Device.enable env p w))
    (hwake : ∀ v, Frame p w v → Beats p o w → (dev w p).state = .stopped →
      P (Device.beat p v) → P (Device.changeState p .started (Device.beat p v)))
    (h : P w) : P w' := by
  have hT : ∀ v v', Prim env p Tick v v' → P v → P v' := fun v v' hp => hP v v' hp.ofTick
  cases hs with
  | frame hf => exact hP _ _ (.frame hf) h
  | update =>
      exact prim_updateState hT
        (prim_sense hT (fun v hv hc hst hb => hwake v (Frame.ofTick hv) ⟨rfl, hc⟩ hst hb) h)
  | next _ _ h₁ h₂ => exact hP _ _ (.frame h₂) (prim_start hT (hP _ _ (.frame h₁) h))
  | ping hr ha ht h₁ h₂ =>
      have hb :=
        prim_onHeartbeat hT (fun hst hb => hwake _ h₁ ⟨hr, ha, ht⟩ (h₁.dev ▸ hst) hb) (hP _ _ (.frame h₁) h)
      exact hP _ _ (.frame h₂) hb
  | stop t _ _ h₁ => exact hP _ _ (.frame h₁) (prim_stop hT (prim_setStopTimeout hT t h))
  | enable hr ht h₁ => exact hP _ _ (.frame h₁) (henable ⟨hr, ht⟩ h)
  | media m _ _ _ h₁ => exact hP _ _ (.frame h₁) (hP _ _ (.media m) h)

end Wagman.V4
