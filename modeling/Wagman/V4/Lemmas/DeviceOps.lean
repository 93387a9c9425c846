import Wagman.V4.Lemmas.Footprint

/-!
# 機器の操作の記憶への作用と、事象の範囲

操作ごとに、記憶がどう変わるかの等式と、起こす事象の範囲を示す。`Device.cpp` の関数を変えたときに直すのは、
この補題だけである。
-/

namespace Wagman.V4

open Machine

@[simp] theorem Ram.setDevice_devices_self (r : Ram) (i : Port) (d : Device) :
    (r.setDevice i d).devices i = d := by
  simp [Ram.setDevice]

theorem Ram.setDevice_devices_of_ne (r : Ram) {i j : Port} (h : j ≠ i) (d : Device) :
    (r.setDevice i d).devices j = r.devices j := by
  simp [Ram.setDevice, h]

@[simp] theorem Ram.setDevice_setDevice (r : Ram) (i : Port) (d d' : Device) :
    (r.setDevice i d).setDevice i d' = r.setDevice i d' := by
  simp [Ram.setDevice]

variable (env : Env) (w : World) (i : Port)

@[simp] theorem setDev_ram (d : Device) : (setDev i d w).ram = w.ram.setDevice i d := rfl

@[simp] theorem setDev_hw (d : Device) : (setDev i d w).hw = w.hw := rfl

@[simp] theorem dev_setDev_self (d : Device) : dev (setDev i d w) i = d := by simp [dev]

namespace Device

/-! ## 記憶への作用 -/

@[simp] theorem changeState_ram (s : State) :
    (changeState i s w).ram = w.ram.setDevice i ((dev w i).enter s (timerNow w)) := rfl

@[simp] theorem changeState_now (s : State) : (changeState i s w).now = w.now := rfl

@[simp] theorem changeState_log (s : State) : (changeState i s w).log = ⟨w.now, .state i s⟩ :: w.log :=
  rfl

@[simp] theorem beat_ram :
    (beat i w).ram = w.ram.setDevice i { dev w i with heartbeatTimer := timerNow w } := rfl

@[simp] theorem dev_beat :
    dev (beat i w) i = { dev w i with heartbeatTimer := timerNow w } := by simp [dev]

@[simp] theorem dev_setNextBootMedia (m : Media) : dev (setNextBootMedia env i m w) i =
    { dev w i with shouldForceBootMedia := true, forceBootMedia := m } := by
  simp [dev, setNextBootMedia]

theorem powerDown_ram :
    (powerDown env i w).ram =
      { w.ram.setDevice i ((dev w i).enter .stopped (timerNow (powerDown env i w))) with
        startTimer := timerNow (powerDown env i w) } := by
  simp [powerDown, timerNow, dev]

@[simp] theorem recordBoot_ram : (recordBoot env i w).ram = w.ram := by
  simp [recordBoot]

theorem selectMedia_ram :
    (selectMedia env i w).ram = w.ram.setDevice i { dev w i with
      managed := decide (Record.getBootFailures w.hw.eeprom i < 30), shouldForceBootMedia := false } := by
  simp [selectMedia, manage, dev]

theorem powerUp_ram :
    (powerUp env i w).ram = w.ram.setDevice i
      ({ dev w i with
          managed := decide (Record.getBootFailures w.hw.eeprom i < 30)
          shouldForceBootMedia := false }.enter .started (timerNow (powerUp env i w))) := by
  simp [powerUp, selectMedia_ram, timerNow, dev]

theorem enable_ram :
    (enable env i w).ram = w.ram.setDevice i ((dev w i).enter .stopped (timerNow (enable env i w))) := rfl

variable {w i}

theorem kill_of_disabled (h : (dev w i).state = .disabled) : kill env i w = (errorInvalidAction, w) := by
  simp [kill, h]

theorem kill_of_ne (h : (dev w i).state ≠ .disabled) : kill env i w = (0, powerDown env i w) := by
  simp [kill, h]

theorem start_of_stopping (h : (dev w i).state = .stopping) :
    start env i w = (errorInvalidAction, w) := by
  simp [start, h]

theorem start_of_ne (h : (dev w i).state ≠ .stopping) : start env i w = (0, powerUp env i w) := by
  simp [start, h]

theorem disable_of_disabled (h : (dev w i).state = .disabled) :
    disable env i w =
      if i = 0 then w else changeState i .disabled (Record.setDeviceEnabled env i false w) := by
  by_cases hi : i = 0
  · simp [disable, hi, kill_of_disabled env (hi ▸ h)]
  · have h' : (dev (Record.setDeviceEnabled env i false w) i).state = .disabled := h
    simp [disable, hi, kill_of_disabled env h']

theorem onHeartbeat_of_disabled (h : (dev w i).state = .disabled) :
    onHeartbeat env i w =
      if i = 0 then beat i w else changeState i .disabled (Record.setDeviceEnabled env i false (beat i w)) := by
  have hb : (dev (beat i w) i).state = .disabled := by simp [h]
  rw [← disable_of_disabled env hb]
  simp only [onHeartbeat, hb]

theorem onHeartbeat_of_stopped (h : (dev w i).state = .stopped) :
    onHeartbeat env i w = changeState i .started (beat i w) := by
  have hb : (dev (beat i w) i).state = .stopped := by simp [h]
  simp only [onHeartbeat, hb]

theorem onHeartbeat_of_powered (h : (dev w i).state = .started ∨ (dev w i).state = .stopping) :
    onHeartbeat env i w = beat i w := by
  have hb : (dev (beat i w) i).state = (dev w i).state := by simp
  rcases h with h | h <;> simp only [onHeartbeat, hb, h]

/-! ## 操作の及ぶ範囲 -/

/-- `setupDevices` が定め、以後変わらない欄。 -/
def config (d : Device) : Nat × Media × Media × Bool × Bool :=
  (d.bootSelector, d.primaryMedia, d.secondaryMedia, d.watchHeartbeat, d.watchCurrent)

@[simp] theorem config_enter (d : Device) (s : State) (t : DurationTimer) :
    (d.enter s t).config = d.config := rfl

/-- 次の起動で強制する媒体。 -/
def forced (d : Device) : Option Media := if d.shouldForceBootMedia then some d.forceBootMedia else none

end Device

/-- 機器の操作が変えうる部分を除いた記憶。 -/
def Ram.globals (r : Ram) : Ram :=
  { r with devices := fun _ => {}, startTimer := {}, heartbeatCounters := fun _ => 0 }

/-- `w` から `w'` まで、範囲 `F` の操作だけで進む。 -/
structure Acts (F : Footprint) (w w' : World) : Prop where
  trail : Trail F.Allows w w'
  other : ∀ j, j ≠ F.port → dev w' j = dev w j
  config : (dev w' F.port).config = (dev w F.port).config
  managed : ¬ F.on → (dev w' F.port).managed = (dev w F.port).managed
  forced : ¬ F.on → ¬ F.force → (dev w' F.port).forced = (dev w F.port).forced
  globals : w'.ram.globals = w.ram.globals

namespace Acts

variable {F G : Footprint} {w w' w'' : World}

theorem refl (w : World) : Acts F w w :=
  ⟨Trail.refl w, fun _ _ => rfl, rfl, fun _ => rfl, fun _ _ => rfl, rfl⟩

theorem trans (h₁ : Acts F w w') (h₂ : Acts F w' w'') : Acts F w w'' where
  trail := h₁.trail.trans h₂.trail
  other j hj := (h₂.other j hj).trans (h₁.other j hj)
  config := h₂.config.trans h₁.config
  managed hn := (h₂.managed hn).trans (h₁.managed hn)
  forced hn hf := (h₂.forced hn hf).trans (h₁.forced hn hf)
  globals := h₂.globals.trans h₁.globals

theorem mono (h : Acts F w w') (hle : Footprint.Le F G) : Acts G w w' where
  trail := h.trail.mono hle.allows
  other j hj := h.other j (hle.port ▸ hj)
  config := hle.port ▸ h.config
  managed hn := hle.port ▸ h.managed (fun ho => hn (hle.on ho))
  forced hn hf := hle.port ▸ h.forced (fun ho => hn (hle.on ho)) (fun ho => hf (hle.force ho))
  globals := h.globals

theorem wants_eq (h : Acts F w w') : w'.ram.deviceWantsStart = w.ram.deviceWantsStart := by
  have hg := congrArg Ram.deviceWantsStart h.globals
  exact hg

theorem resetSystem_eq (h : Acts F w w') : w'.ram.shouldResetSystem = w.ram.shouldResetSystem := by
  have hg := congrArg Ram.shouldResetSystem h.globals
  exact hg

theorem resetAll_eq (h : Acts F w w') : w'.ram.shouldResetAll = w.ram.shouldResetAll := by
  have hg := congrArg Ram.shouldResetAll h.globals
  exact hg

theorem halted_eq (h : Acts F w w') : w'.ram.halted = w.ram.halted := by
  have hg := congrArg Ram.halted h.globals
  exact hg

theorem ofStill (h : Still F.Allows w w') : Acts F w w' := by
  have hd : ∀ j, dev w' j = dev w j := fun j => by simp only [dev, h.ram]
  exact ⟨h.trail, fun j _ => hd j, by rw [hd], fun _ => by rw [hd], fun _ _ => by rw [hd], by rw [h.ram]⟩

theorem setDev {d : Device} (hc : d.config = (dev w F.port).config)
    (hm : ¬ F.on → d.managed = (dev w F.port).managed)
    (hf : ¬ F.on → ¬ F.force → d.forced = (dev w F.port).forced) : Acts F w (setDev F.port d w) where
  trail := trail_setDev F.port d
  other j hj := Ram.setDevice_devices_of_ne _ hj d
  config := by simpa using hc
  managed := by simpa using hm
  forced := by simpa using hf
  globals := rfl

theorem changeState (s : State) : Acts F w (Device.changeState F.port s w) where
  trail := trail_changeState rfl
  other j hj := Ram.setDevice_devices_of_ne _ hj _
  config := by simp [dev]
  managed _ := by simp [dev, Device.enter]
  forced _ _ := by
    simp only [dev, Device.changeState_ram, Ram.setDevice_devices_self]
    rfl
  globals := rfl

theorem setTimers {d : Device} (hc : d.config = (dev w F.port).config)
    (hm : d.managed = (dev w F.port).managed)
    (hf : d.forced = (dev w F.port).forced) : Acts F w (V4.setDev F.port d w) :=
  setDev hc (fun _ => hm) (fun _ _ => hf)

end Acts

namespace Device

variable (env : Env) (w : World) (i : Port)

theorem acts_powerDown : Acts (.relay i) w (powerDown env i w) := by
  have h₁ : Acts (.relay i) w (driveRelay env i relayTurningOff false relayOff w) :=
    .ofStill (still_driveRelay ⟨rfl, by simp⟩ (fun _ => Or.inl rfl) (fun _ => Or.inr (Or.inl rfl))
      (fun _ => ⟨38, rfl, rfl⟩))
  have h₂ := h₁.trans (Acts.changeState .stopped)
  exact ⟨(h₂.trail.setRam _).mark rfl, h₂.other, h₂.config, h₂.managed, h₂.forced, h₂.globals⟩

theorem acts_kill : Acts (.relay i) w (kill env i w).2 := by
  unfold kill
  split
  · exact Acts.refl w
  · exact acts_powerDown env w i

theorem acts_stop : Acts (.relay i) w (stop env i w).2 := by
  unfold stop
  split
  · exact acts_kill env w i
  · exact Acts.refl w
  · exact Acts.changeState .stopping

theorem acts_setDeviceEnabled (b : Bool) : Acts (.power i) w (Record.setDeviceEnabled env i b w) :=
  .ofStill (still_write ⟨0, Or.inl rfl, rfl⟩)

theorem acts_enable : Acts (.power i) w (enable env i w) :=
  (acts_setDeviceEnabled env w i true).trans (Acts.changeState .stopped)

theorem acts_beat : Acts (.power i) w (beat i w) where
  trail := (trail_setDev i _).mark rfl
  other j hj := Ram.setDevice_devices_of_ne _ hj _
  config := by simp [Footprint.power, Footprint.relay, Device.config]
  managed _ := by simp [Footprint.power, Footprint.relay]
  forced _ _ := by
    simp only [Footprint.power, Footprint.relay, dev_beat]
    rfl
  globals := rfl

theorem acts_onHeartbeat : Acts (.power i) w (onHeartbeat env i w) := by
  have hb := acts_beat w i
  cases hs : (dev w i).state with
  | disabled =>
      rw [onHeartbeat_of_disabled env hs]
      split
      · exact hb
      · exact (hb.trans (acts_setDeviceEnabled env _ i false)).trans (Acts.changeState .disabled)
  | stopped =>
      rw [onHeartbeat_of_stopped env hs]
      exact hb.trans (Acts.changeState .started)
  | started => rw [onHeartbeat_of_powered env (Or.inl hs)]; exact hb
  | stopping => rw [onHeartbeat_of_powered env (Or.inr hs)]; exact hb

theorem acts_updateHeartbeat : Acts (.power i) w (updateHeartbeat env i w) := by
  unfold updateHeartbeat
  split
  · refine Acts.trans ?_ (acts_onHeartbeat env _ i)
    exact ⟨(Trail.refl w).setRam _, fun _ _ => rfl, rfl, fun _ => rfl, fun _ _ => rfl, rfl⟩
  · exact Acts.refl w

theorem acts_updateFault : Acts (.power i) w (updateFault env i w) := by
  have hr : Acts (.power i) w (ioRead env w) := .ofStill still_ioRead
  simp only [updateFault]
  split
  · exact hr
  · split
    · exact hr.trans (Acts.setTimers rfl rfl rfl)
    · exact hr

theorem acts_updateDisabled : Acts (.power i) w (updateDisabled env i w) := by
  unfold updateDisabled
  split
  · exact acts_enable env w i
  · exact Acts.refl w

theorem acts_sendStopMessage : Acts (.relay i) w (sendStopMessage i w) := by
  unfold sendStopMessage
  split
  · exact Acts.setTimers rfl rfl rfl
  · exact Acts.refl w

theorem acts_setStopTimeout (t : UInt32) : Acts (.relay i) w (setStopTimeout i t w) :=
  Acts.setTimers rfl rfl rfl

theorem acts_checkStopTimeout : Acts (.relay i) w (checkStopTimeout env i w) := by
  unfold checkStopTimeout
  split
  · exact (acts_setStopTimeout w i 60000).trans (acts_kill env _ i)
  · exact Acts.refl w

theorem acts_updateStopping : Acts (.relay i) w (updateStopping env i w) :=
  (acts_sendStopMessage w i).trans (acts_checkStopTimeout env _ i)

theorem acts_setNextBootMedia (m : Media) :
    Acts (.switch i (dev w i).bootSelector) w (setNextBootMedia env i m w) := by
  have h₁ : Acts (.switch i (dev w i).bootSelector) w
      (setDev i { dev w i with shouldForceBootMedia := true, forceBootMedia := m } w) :=
    Acts.setDev rfl (fun _ => rfl) (fun _ hf => absurd trivial hf)
  refine (h₁.trans (.ofStill (Still.mark ⟨rfl, trivial⟩ _))).trans (.ofStill (still_setBootMedia fun hs b => ?_))
  exact Or.inr (Or.inr ⟨⟨_, hs⟩, by simp [Footprint.switch, dev], rfl⟩)

theorem acts_updateStartedUnmanaged :
    Acts (.switch i (dev w i).bootSelector) w (updateStartedUnmanaged env i w) := by
  simp only [updateStartedUnmanaged]
  split
  · have h₁ : Acts (.switch i (dev w i).bootSelector) w (ioRead env w) := .ofStill still_ioRead
    exact (h₁.trans (acts_setNextBootMedia env (ioRead env w) i _)).trans
      ((acts_stop env _ i).mono ((Footprint.relay_le_power _).trans (Footprint.power_le_switch _ _)))
  · exact Acts.refl w

theorem acts_incrementBootFailures : Acts (.watch i) w (Record.incrementBootFailures env i w) := by
  refine .ofStill (still_put (fun b v h₁ h₂ => ⟨b - Record.deviceRegion i, ?_, ?_⟩) _)
  · simp only [Footprint.watch, Record.portBootFailures] at h₁ h₂ ⊢; omega
  · simp only [Footprint.watch, Footprint.power, Footprint.relay] at h₁ ⊢; omega

theorem acts_checkHeartbeat : Acts (.watch i) w (checkHeartbeat env i w) := by
  unfold checkHeartbeat
  split
  · exact (acts_incrementBootFailures env w i).trans ((acts_stop env _ i).mono
      ((Footprint.relay_le_power i).trans (Footprint.power_le_watch i)))
  · exact Acts.refl w

theorem acts_checkCurrent : Acts (.power i) w (checkCurrent i w) := by
  unfold checkCurrent
  split
  · exact Acts.setTimers rfl rfl rfl
  · exact Acts.refl w

theorem acts_updateStartedManaged : Acts (.watch i) w (updateStartedManaged env i w) :=
  (acts_checkHeartbeat env w i).trans ((acts_checkCurrent _ i).mono (Footprint.power_le_watch i))

/-- 監視されていない機器が、媒体を切り替える時間に達している。 -/
def SwitchDue (i : Port) (w : World) : Prop :=
  (dev w i).state = .started ∧ (dev w i).managed = false ∧
    (dev w i).stateTimer.exceeds w.now unmanagedSwitchTime = true

instance (i : Port) (w : World) : Decidable (SwitchDue i w) := inferInstanceAs (Decidable (_ ∧ _ ∧ _))

variable {w i} in
/-- 媒体を切り替える時間でなければ、`updateState` は媒体に関わらない。 -/
theorem acts_updateState_of_not_due (h : ¬ SwitchDue i w) : Acts (.watch i) w (updateState env i w) := by
  unfold updateState
  split
  · exact (acts_updateDisabled env w i).mono (Footprint.power_le_watch i)
  · exact Acts.refl w
  · rename_i hs
    unfold updateStarted
    split
    · exact acts_updateStartedManaged env w i
    · rename_i hm
      simp only [updateStartedUnmanaged]
      split
      · rename_i he
        exact absurd ⟨hs, by simpa using hm, he⟩ h
      · exact Acts.refl w
  · exact (acts_updateStopping env w i).mono ((Footprint.relay_le_power i).trans (Footprint.power_le_watch i))

variable {w i} in
theorem updateState_of_due (h : SwitchDue i w) :
    updateState env i w = updateStartedUnmanaged env i w := by
  obtain ⟨hs, hm, -⟩ := h
  simp only [updateState, hs, updateStarted, hm, Bool.false_eq_true, if_false]

theorem acts_updateState : Acts (.supervise i (dev w i).bootSelector) w (updateState env i w) := by
  by_cases h : SwitchDue i w
  · rw [updateState_of_due env h]
    exact (acts_updateStartedUnmanaged env w i).mono (Footprint.switch_le_supervise i _)
  · exact (acts_updateState_of_not_due env h).mono (Footprint.watch_le_supervise i _)

/-- `update` のうち、`updateState` の直前までの部分。 -/
def sense (i : Port) (w : World) : World := updateFault env i (updateHeartbeat env i w)

theorem update_eq : update env i w = updateState env i (sense env i w) := rfl

theorem acts_sense : Acts (.power i) w (sense env i w) :=
  (acts_updateHeartbeat env w i).trans (acts_updateFault env _ i)

theorem acts_update : Acts (.supervise i (dev w i).bootSelector) w (update env i w) := by
  have h₁ := (acts_sense env w i).mono ((Footprint.power_le_watch i).trans
    (Footprint.watch_le_supervise i (dev w i).bootSelector))
  have hsel : (dev (sense env i w) i).bootSelector = (dev w i).bootSelector := congrArg Prod.fst h₁.config
  exact h₁.trans (hsel ▸ acts_updateState env (sense env i w) i)

theorem acts_selectMedia : Acts (.boot i (dev w i).bootSelector) w (selectMedia env i w) := by
  have h₁ : Acts (.boot i (dev w i).bootSelector) w (manage i w) :=
    Acts.setDev rfl (fun hn => absurd trivial hn) (fun hn => absurd trivial hn)
  have h₂ : Acts (.boot i (dev w i).bootSelector) w
      (setDev i { dev (manage i w) i with shouldForceBootMedia := false } (manage i w)) :=
    h₁.trans (Acts.setDev rfl (fun _ => rfl) (fun hn => absurd trivial hn))
  have hsel : (dev (setDev i { dev (manage i w) i with shouldForceBootMedia := false } (manage i w)) i).bootSelector =
      (dev w i).bootSelector := by simp [manage]
  unfold selectMedia
  simp only [hsel]
  refine (h₂.trans (.ofStill (Still.mark ⟨rfl, trivial⟩ _))).trans (.ofStill (still_setBootMedia fun hs b => ?_))
  exact Or.inr (Or.inr ⟨⟨_, hs⟩, rfl, rfl⟩)

theorem acts_recordBoot (s : Nat) : Acts (.boot i s) w (recordBoot env i w) :=
  .ofStill (still_recordBoot fun o _ ho => ⟨o, ho.imp_right Or.inr, rfl⟩)

theorem acts_energize : Acts (.boot i (dev w i).bootSelector) w
    (driveRelay env i relayTurningOn true relayOn (recordBoot env i (selectMedia env i w))) := by
  have hdrive :
      ∀ w', Acts (.boot i (dev w i).bootSelector) w' (driveRelay env i relayTurningOn true relayOn w') :=
    fun w' => .ofStill (still_driveRelay ⟨rfl, fun _ => trivial⟩ (fun _ => Or.inl rfl)
      (fun _ => Or.inr (Or.inl rfl)) (fun _ => ⟨38, Or.inr (Or.inl rfl), rfl⟩))
  exact ((acts_selectMedia env w i).trans (acts_recordBoot env _ i _)).trans (hdrive _)

theorem acts_powerUp : Acts (.boot i (dev w i).bootSelector) w (powerUp env i w) :=
  (acts_energize env w i).trans (Acts.changeState .started)

theorem acts_start : Acts (.boot i (dev w i).bootSelector) w (start env i w).2 := by
  unfold start
  split
  · exact Acts.refl w
  · exact acts_powerUp env w i

end Device

end Wagman.V4
