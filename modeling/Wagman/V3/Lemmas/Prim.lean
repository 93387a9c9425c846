import Wagman.V3.Lemmas.Effects

/-!
# 機器の操作の分解

`devices[i]` の操作は、少数の基本の操作を続けたものである。どの基本の操作にも保たれる性質は、どの一歩にも保たれる。
基本の操作はほかのポートに関わらないので、ポート `p` の性質は、`devices[p]` の基本の操作と、`p` に関わらない部分に
ついてだけ調べればよい。
-/

namespace Wagman.V3

open Machine

/-- ポート `i` の領域のうち、有効の印でない番地への書き込み。 -/
def Event.Records (i : Port) : Event → Prop
  | .eeprom a _ => ∃ o, 0 < o ∧ o < 128 ∧ a = Record.deviceRegion i + o
  | _ => False

theorem Event.Records.of {i : Port} {e : Event} (h : e.Records i) : e.Of i := by
  cases e with
  | eeprom a v =>
      obtain ⟨o, -, ho, ha⟩ := h
      exact Event.of_eeprom ⟨o, ho, ha⟩ v
  | _ => exact h.elim

/-- `devices[i]` についての基本の操作。 -/
inductive Prim (env : Env) (i : Port) : World → World → Prop
  | quiet {w w'} : Quiet w w' → Prim env i w w'
  | tweak {w} (d : Device) : d.state = (dev w i).state → Prim env i w (setDev i d w)
  | beat {w} : Prim env i w (Device.beat i w)
  | record {w w'} : Still (Event.Records i) w w' → Prim env i w w'
  | media {w} (m : Media) : Prim env i w (Device.setNextBootMedia env i m w)
  | wake {w} : (dev w i).state = .stopped ∨ (dev w i).state = .starting →
      Prim env i w (Device.changeState i .started w)
  | halt {w} : (dev w i).state = .started → Prim env i w (Device.changeState i .stopping w)
  | on {w} : (dev w i).state = .stopped → Prim env i w (Device.powerUp env i w)
  | off {w} : (dev w i).state ≠ .disabled → Prim env i w (Device.powerDown env i w)
  | enable {w} : Prim env i w (Device.enable env i w)
  | disable {w} : Prim env i w (Device.disable env i w)

/-- 機器の記録への書き込みを除いた基本の操作。`update` のほかの一歩は、これだけを続ける。 -/
inductive Act (env : Env) (i : Port) : World → World → Prop
  | quiet {w w'} : Quiet w w' → Act env i w w'
  | tweak {w} (d : Device) : d.state = (dev w i).state → Act env i w (setDev i d w)
  | beat {w} : Act env i w (Device.beat i w)
  | media {w} (m : Media) : Act env i w (Device.setNextBootMedia env i m w)
  | wake {w} : (dev w i).state = .stopped ∨ (dev w i).state = .starting →
      Act env i w (Device.changeState i .started w)
  | halt {w} : (dev w i).state = .started → Act env i w (Device.changeState i .stopping w)
  | on {w} : (dev w i).state = .stopped → Act env i w (Device.powerUp env i w)
  | off {w} : (dev w i).state ≠ .disabled → Act env i w (Device.powerDown env i w)
  | enable {w} : Act env i w (Device.enable env i w)
  | disable {w} : Act env i w (Device.disable env i w)

theorem Act.prim {env : Env} {i : Port} {w w' : World} (h : Act env i w w') : Prim env i w w' := by
  cases h with
  | quiet hq => exact .quiet hq
  | tweak d hd => exact .tweak d hd
  | beat => exact .beat
  | media m => exact .media m
  | wake hs => exact .wake hs
  | halt hs => exact .halt hs
  | on hs => exact .on hs
  | off hs => exact .off hs
  | enable => exact .enable
  | disable => exact .disable

/-! ## ほかのポート -/

section Frame

variable {env : Env} {i p : Port} {w w' : World} (hp : p ≠ i)

include hp

theorem frame_driveRelay (t s : UInt8) (on : Bool) : Frame p w (Device.driveRelay env i t on s w) :=
  Frame.ofStill (still_driveRelay (Event.of_relay i on) (fun k b => (Event.global_pin k b).of i)
    (fun v => Event.of_eeprom ⟨_, by simp, rfl⟩ v)) hp

theorem frame_setBootMedia (s : Nat) (m : Media) : Frame p w (setBootMedia env s m w) :=
  Frame.ofStill (still_setBootMedia fun k b => (Event.global_pin k b).of i) hp

theorem frame_selectMedia : Frame p w (Device.selectMedia env i w) :=
  (Frame.setDev _ hp).trans <| (Frame.setDev _ hp).trans (frame_setBootMedia hp _ _)

theorem frame_recordBoot : Frame p w (Device.recordBoot env i w) :=
  Frame.ofStill (still_recordBoot fun o v ho => Event.of_eeprom ⟨o, by omega, rfl⟩ v) hp

theorem frame_powerUp : Frame p w (Device.powerUp env i w) :=
  (frame_selectMedia hp).trans <| (frame_recordBoot hp).trans <| (frame_driveRelay hp _ _ _).trans
    (Frame.changeState .started hp)

theorem frame_powerDown : Frame p w (Device.powerDown env i w) :=
  (frame_driveRelay hp _ _ _).trans <| (Frame.changeState .stopped hp).trans (Frame.setRam rfl)

theorem frame_kill : Frame p w (Device.kill env i w).2 := by
  unfold Device.kill
  split
  · exact Frame.refl w
  · exact frame_powerDown hp

theorem frame_setDeviceEnabled (b : Bool) : Frame p w (Record.setDeviceEnabled env i b w) :=
  Frame.ofStill (still_write (Event.of_eeprom ⟨0, by simp, rfl⟩ _)) hp

theorem frame_enable : Frame p w (Device.enable env i w) :=
  (Frame.mark (Event.of_enable i) hp).trans <| (frame_setDeviceEnabled hp true).trans (Frame.changeState .stopped hp)

theorem frame_disable : Frame p w (Device.disable env i w) := by
  by_cases hi : i = 0
  · simp only [Device.disable, hi, ne_eq, not_true_eq_false, if_false]
    exact frame_kill (hi ▸ hp)
  · simp only [Device.disable, ne_eq, hi, not_false_eq_true, if_true]
    exact (frame_setDeviceEnabled hp false).trans <| (frame_kill hp).trans (Frame.changeState .disabled hp)

/-- 基本の操作は、ほかのポートに関わらない。 -/
theorem Prim.frame (h : Prim env i w w') : Frame p w w' := by
  cases h with
  | quiet hq => exact hq.frame p
  | tweak d _ => exact Frame.setDev d hp
  | beat => exact (Frame.setDev _ hp).trans (Frame.mark (Event.of_heartbeat i) hp)
  | record hs => exact Frame.ofStill (hs.mono fun _ he => he.of) hp
  | media m => exact (Frame.setDev _ hp).trans (frame_setBootMedia hp _ _)
  | wake _ => exact Frame.changeState .started hp
  | halt _ => exact Frame.changeState .stopping hp
  | on _ => exact frame_powerUp hp
  | off _ => exact frame_powerDown hp
  | enable => exact frame_enable hp
  | disable => exact frame_disable hp

end Frame

/-! ## 機器の操作 -/

section Act

variable {env : Env} {i : Port} {w : World} {P : World → Prop} (hP : ∀ v v', Act env i v v' → P v → P v')

include hP

theorem act_ioRead (h : P w) : P (ioRead env w) := hP _ _ (.quiet (Quiet.ofStill still_ioRead)) h

theorem act_kill (h : P w) : P (Device.kill env i w).2 := by
  by_cases hs : (dev w i).state = .disabled
  · simp only [Device.kill, hs, if_true]
    exact h
  · simp only [Device.kill, hs, if_false]
    exact hP _ _ (.off hs) h

theorem act_stop (h : P w) : P (Device.stop i w).2 := by
  by_cases hs : (dev w i).state = .started
  · simp only [Device.stop, hs, ne_eq, not_true_eq_false, if_false]
    exact hP _ _ (.halt hs) h
  · simp only [Device.stop, ne_eq, hs, not_false_eq_true, if_true]
    exact h

theorem act_start (h : P w) : P (Device.start env i w).2 := by
  by_cases hs : (dev w i).state = .stopped
  · simp only [Device.start, hs, ne_eq, not_true_eq_false, if_false]
    exact hP _ _ (.on hs) h
  · simp only [Device.start, ne_eq, hs, not_false_eq_true, if_true]
    exact h

theorem act_setStopTimeout (t : UInt32) (h : P w) : P (Device.setStopTimeout i t w) :=
  hP _ _ (.tweak _ rfl) h

theorem act_onHeartbeat (h : P w) : P (Device.onHeartbeat env i w) := by
  have hb := hP _ _ .beat h
  have hst : (dev (Device.beat i w) i).state = (dev w i).state := by simp
  cases hs : (dev w i).state with
  | disabled =>
      simp only [Device.onHeartbeat, hst, hs]
      exact hP _ _ .disable hb
  | stopped =>
      simp only [Device.onHeartbeat, hst, hs]
      exact hP _ _ (.wake (Or.inl (hst.trans hs))) hb
  | starting =>
      simp only [Device.onHeartbeat, hst, hs]
      exact hP _ _ (.wake (Or.inr (hst.trans hs))) hb
  | started =>
      simp only [Device.onHeartbeat, hst, hs]
      exact hb
  | stopping =>
      simp only [Device.onHeartbeat, hst, hs]
      exact hb

theorem act_updateHeartbeat (h : P w) : P (Device.updateHeartbeat env i w) := by
  unfold Device.updateHeartbeat
  split
  · have hset : Quiet w (w.setRam { w.ram with
        heartbeatCounters := Function.update w.ram.heartbeatCounters i 0 }) := Quiet.setRam rfl
    exact act_onHeartbeat hP (hP _ _ (.quiet hset) h)
  · exact h

theorem act_updateFault (h : P w) : P (Device.updateFault env i w) := by
  have hread := act_ioRead hP h
  simp only [Device.updateFault]
  split
  · exact hread
  · split
    · exact hP _ _ (.tweak _ rfl) hread
    · exact hread

theorem act_updateStopping (h : P w) : P (Device.updateStopping env i w) := by
  have hmsg : P (Device.sendStopMessage i w) := by
    unfold Device.sendStopMessage
    split
    · exact hP _ _ (.tweak _ rfl) h
    · exact h
  simp only [Device.updateStopping]
  unfold Device.checkStopTimeout
  split
  · exact act_kill hP (act_setStopTimeout hP 60000 hmsg)
  · exact hmsg

end Act

/-! ## 失敗を数える操作 -/

section Update

variable {env : Env} {i : Port} {w : World} {P : World → Prop} (hP : ∀ v v', Act env i v v' → P v → P v')
  (hF : ∀ v, P v → P (Record.incrementBootFailures env i v))

include hP hF

theorem act_updateStarting (h : P w) : P (Device.updateStarting env i w) := by
  unfold Device.updateStarting
  split
  · exact act_kill hP (hF _ h)
  · exact h

theorem act_updateStarted (h : P w) : P (Device.updateStarted env i w) := by
  unfold Device.updateStarted
  split
  · have hb : P (Device.checkHeartbeat env i w) := by
      unfold Device.checkHeartbeat
      split
      · exact act_stop hP (hF _ h)
      · exact h
    simp only [Device.updateStartedManaged]
    unfold Device.checkCurrent
    split
    · exact hP _ _ (.tweak _ rfl) hb
    · exact hb
  · simp only [Device.updateStartedUnmanaged]
    split
    · exact act_stop hP (hP _ _ (.media _) (act_ioRead hP h))
    · exact h

theorem act_updateState (h : P w) : P (Device.updateState env i w) := by
  unfold Device.updateState
  split
  · unfold Device.updateDisabled
    split
    · exact hP _ _ .enable h
    · exact h
  · exact h
  · exact act_updateStarting hP hF h
  · exact act_updateStarted hP hF h
  · exact act_updateStopping hP h

/-- `update` は、失敗を数えることのほかは、機器の記録に書かない。 -/
theorem act_update (h : P w) : P (Device.update env i w) :=
  act_updateState hP hF (act_updateFault hP (act_updateHeartbeat hP h))

end Update

section Operations

variable {env : Env} {i : Port} {w : World} {P : World → Prop} (hP : ∀ v v', Prim env i v v' → P v → P v')

include hP

theorem prim_incrementBootFailures (h : P w) : P (Record.incrementBootFailures env i w) := by
  refine hP _ _ (.record (still_put (fun b v h₁ h₂ => ⟨b - Record.deviceRegion i, ?_, ?_, ?_⟩) _)) h
  · simp only [Record.portBootFailures] at h₁
    omega
  · simp only [Record.portBootFailures] at h₂
    omega
  · omega

theorem prim_setRelayState (v : UInt8) (h : P w) : P (Record.setRelayState env i v w) :=
  hP _ _ (.record (still_write ⟨38, by simp, by simp, rfl⟩)) h

theorem prim_update (h : P w) : P (Device.update env i w) :=
  act_update (fun v v' ha => hP v v' ha.prim) (fun _ hv => prim_incrementBootFailures hP hv) h

theorem prim_recoverRelay (h : P w) : P (recoverRelay env i w) := by
  have hread := act_ioRead (fun v v' h => hP v v' h.prim) h
  simp only [recoverRelay]
  split
  · have hoff := prim_setRelayState hP relayOff hread
    split
    · exact hP _ _ .disable hoff
    · exact act_kill (fun v v' h => hP v v' h.prim) hoff
  · exact hread

end Operations

end Wagman.V3
