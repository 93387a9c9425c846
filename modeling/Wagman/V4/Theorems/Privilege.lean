import Wagman.V4.Lemmas.Setup

/-!
# 管理者でない直列ポート

管理者でないポート `q` からの要求の並びは、どの到達可能な状態からでも、`devices[q]` への心拍のほかには何も変えない。
無効な機器への心拍は有効の印を消すので、無効な機器の印が既に消えていることを、実行を通した不変条件として使う。
-/

namespace Wagman.V4

open Machine

/-! ## 無効な機器の有効の印 -/

/-- 無効な機器の有効の印は 0 である。 -/
def EnabledOk (p : Port) (w : World) : Prop :=
  p ≠ 0 → (dev w p).state = .disabled → w.hw.eeprom (Record.deviceRegion p + Record.portEnabled) = 0

namespace EnabledOk

variable {env : Env} {p : Port} {w w' : World}

theorem of_ne (h : (dev w p).state ≠ .disabled) : EnabledOk p w := fun _ hs => absurd hs h

theorem of_eq (hw : EnabledOk p w) (hs : (dev w' p).state = (dev w p).state)
    (he : w'.hw.eeprom (Record.deviceRegion p + Record.portEnabled) =
      w.hw.eeprom (Record.deviceRegion p + Record.portEnabled)) : EnabledOk p w' := by
  intro hp hd
  rw [he]
  exact hw hp (hs ▸ hd)

theorem enable : EnabledOk p (Device.enable env p w) :=
  of_ne (by simp [dev, Device.enable_ram, Device.enter])

theorem prim (hs : Prim env p (Frame p) w w') (hw : EnabledOk p w) : EnabledOk p w' := by
  cases hs with
  | frame hf => exact hw.of_eq (by rw [hf.dev]) (hf.byte_eq (by simp))
  | tweak d hd => exact hw.of_eq (by simpa using Device.steady_state hd) rfl
  | beat => exact hw.of_eq (by simp) rfl
  | refuse _ _ => exact fun _ _ => Bytes.store_self _ _ _
  | halt _ => exact of_ne (by simp [dev, Device.enter])
  | revive _ _ => exact enable
  | off _ => exact of_ne (by simp [dev, Device.powerDown_ram, Device.enter])
  | on _ => exact of_ne (by simp [dev, Device.powerUp_ram, Device.enter])
  | fail hst =>
      refine of_ne ?_
      simp only [dev, incrementBootFailures_ram] at hst ⊢
      rw [hst]
      decide
  | media m =>
      refine hw.of_eq (by simp) ?_
      have hp : Trail (fun e => ∀ a v, e ≠ .eeprom a v) w (Device.setNextBootMedia env p m w) :=
        trail_setNextBootMedia (by simp) (by simp)
      exact trail_eeprom hp fun v hv => hv _ v rfl

theorem step {o : Op} (hs : StepOn env p o w w') (hw : EnabledOk p w) : EnabledOk p w' :=
  hs.induct (P := EnabledOk p) (fun _ _ hp hw => hw.prim hp) (fun _ _ => enable)
    (fun _ _ _ _ _ => of_ne (by simp [dev, Device.enter])) hw

theorem booted (env : Env) (h : Hardware) (p : Port) : EnabledOk p (V4.booted env h) := by
  have hprim : ∀ w w', Prim env p (Frame p) w w' → EnabledOk p w → EnabledOk p w' := fun _ _ => prim
  refine booted_induct (p := p) (fun w w' hf => hprim w w' (.frame hf)) h ?_ ?_
  · intro w _ _ hp hs
    rw [Device.dev_init] at hs
    simp only [Device.enter, initialState] at hs
    have he : w.hw.eeprom (Record.deviceRegion p + Record.portEnabled) = 0 := by
      by_contra hne
      have hon : Record.getDeviceEnabled w.hw.eeprom p = true := by
        rw [Record.getDeviceEnabled, if_neg hp]
        exact bne_iff_ne.mpr hne
      rw [if_pos hon] at hs
      cases hs
    rw [Device.init_eq]
    exact he
  · intro w _ hst
    exact hprim _ _ (.on (by simp [hst]))

theorem run {ops : List Op} {h : Hardware} (hrun : V4.run env ops (V4.booted env h) = some w) (p : Port) :
    EnabledOk p w :=
  run_invariant_on (fun _ _ _ hs hw => EnabledOk.step hs hw) hrun (EnabledOk.booted env h p)

end EnabledOk

/-! ## 心拍だけの変化 -/

/-- 計時 `t'` は `t` のままか、`a` と `b` の間に始め直したものである。 -/
def Restarted (a b : Nat) (t t' : DurationTimer) : Prop :=
  t' = t ∨ ∃ n, a ≤ n ∧ n ≤ b ∧ t' = DurationTimer.reset n

/-- 計時と状態を除いた欄。 -/
def Device.untimed (d : Device) : Device := d.enter .disabled {}

/-- 計時を始め直すことと、`STOPPED` から `STARTED` に移ることのほかには、何も変わらない。 -/
structure OnlyBeats (a b : Nat) (d d' : Device) : Prop where
  untimed : d'.untimed = d.untimed
  state : d'.state = d.state ∨ (d.state = .stopped ∧ d'.state = .started)
  stateTimer : Restarted a b d.stateTimer d'.stateTimer
  stopMessageTimer : Restarted a b d.stopMessageTimer d'.stopMessageTimer
  heartbeatTimer : Restarted a b d.heartbeatTimer d'.heartbeatTimer
  currentLevelTimer : Restarted a b d.currentLevelTimer d'.currentLevelTimer

theorem Restarted.trans {a b c : Nat} {t t' t'' : DurationTimer} (h₁ : Restarted a b t t')
    (h₂ : Restarted b c t' t'')
    (hab : a ≤ b) (hbc : b ≤ c) : Restarted a c t t'' := by
  rcases h₂ with rfl | ⟨n, h₁', h₂', rfl⟩
  · rcases h₁ with rfl | ⟨n, h₁', h₂', rfl⟩
    · exact Or.inl rfl
    · exact Or.inr ⟨n, h₁', by omega, rfl⟩
  · exact Or.inr ⟨n, by omega, h₂', rfl⟩

namespace OnlyBeats

variable {a b c : Nat} {d d' d'' : Device}

theorem refl (a b : Nat) (d : Device) : OnlyBeats a b d d :=
  ⟨rfl, Or.inl rfl, Or.inl rfl, Or.inl rfl, Or.inl rfl, Or.inl rfl⟩

theorem trans (h₁ : OnlyBeats a b d d') (h₂ : OnlyBeats b c d' d'') (hab : a ≤ b) (hbc : b ≤ c) :
    OnlyBeats a c d d'' where
  untimed := h₂.untimed.trans h₁.untimed
  state := by
    rcases h₂.state with hs₂ | ⟨hs₂, ht₂⟩
    · rw [hs₂]
      exact h₁.state
    · rcases h₁.state with hs₁ | ⟨-, ht₁⟩
      · exact Or.inr ⟨hs₁ ▸ hs₂, ht₂⟩
      · rw [ht₁] at hs₂
        cases hs₂
  stateTimer := h₁.stateTimer.trans h₂.stateTimer hab hbc
  stopMessageTimer := h₁.stopMessageTimer.trans h₂.stopMessageTimer hab hbc
  heartbeatTimer := h₁.heartbeatTimer.trans h₂.heartbeatTimer hab hbc
  currentLevelTimer := h₁.currentLevelTimer.trans h₂.currentLevelTimer hab hbc

theorem beat {n : Nat} (ha : a ≤ n) (hb : n ≤ b) :
    OnlyBeats a b d { d with heartbeatTimer := DurationTimer.reset n } :=
  ⟨rfl, Or.inl rfl, Or.inl rfl, Or.inl rfl, Or.inr ⟨n, ha, hb, rfl⟩, Or.inl rfl⟩

theorem enter {n : Nat} (ha : a ≤ n) (hb : n ≤ b) {s : State}
    (hs : s = d.state ∨ (d.state = .stopped ∧ s = .started)) :
    OnlyBeats a b d (d.enter s (DurationTimer.reset n)) :=
  ⟨rfl, hs, Or.inr ⟨n, ha, hb, rfl⟩, Or.inr ⟨n, ha, hb, rfl⟩, Or.inr ⟨n, ha, hb, rfl⟩, Or.inr ⟨n, ha, hb, rfl⟩⟩

end OnlyBeats

/-- `devices[q]` への心拍だけの変化。`devices` のほかの記憶と、LED のほかの装置は変わらない。 -/
structure Unprivileged (q : Port) (w w' : World) : Prop where
  now_le : w.now ≤ w'.now
  eeprom : w'.hw.eeprom = w.hw.eeprom
  latch : w'.hw.latch = w.hw.latch
  pin : ∀ k, k ∉ ledPins → w'.hw.pin k = w.hw.pin k
  ram : w'.ram = { w.ram with devices := w'.ram.devices }
  other : ∀ j, j ≠ q → dev w' j = dev w j
  dev : OnlyBeats w.now w'.now (dev w q) (dev w' q)

namespace Unprivileged

variable {env : Env} {q : Port} {w w' w'' : World}

theorem trans (h₁ : Unprivileged q w w') (h₂ : Unprivileged q w' w'') : Unprivileged q w w'' where
  now_le := Nat.le_trans h₁.now_le h₂.now_le
  eeprom := h₂.eeprom.trans h₁.eeprom
  latch := h₂.latch.trans h₁.latch
  pin k hk := (h₂.pin k hk).trans (h₁.pin k hk)
  ram := by rw [h₂.ram, h₁.ram]
  other j hj := (h₂.other j hj).trans (h₁.other j hj)
  dev := h₁.dev.trans h₂.dev h₁.now_le h₂.now_le

theorem ofIdle (h : Idle w w') : Unprivileged q w w' where
  now_le := h.trail.now_le
  eeprom := h.eeprom_eq
  latch := h.latch_eq
  pin k hk := trail_pin h.trail fun _ hq => hk hq
  ram := by rw [h.ram]
  other j _ := h.dev_eq j
  dev := by
    rw [h.dev_eq]
    exact OnlyBeats.refl _ _ _

theorem enabledOk (h : Unprivileged q w w') (hw : EnabledOk q w) : EnabledOk q w' := by
  intro hq hs
  rw [h.eeprom]
  rcases h.dev.state with hst | ⟨-, hst⟩
  · exact hw hq (hst ▸ hs)
  · rw [hst] at hs
    cases hs

theorem beat : Unprivileged q w (Device.beat q w) where
  now_le := Nat.le_refl _
  eeprom := rfl
  latch := rfl
  pin _ _ := rfl
  ram := rfl
  other j hj := Ram.setDevice_devices_of_ne _ hj _
  dev := by
    rw [Device.dev_beat]
    exact OnlyBeats.beat (Nat.le_refl _) (Nat.le_refl _)

/-- 状態を変えずに計時を始め直すか、`STOPPED` から `STARTED` に移る。 -/
theorem changeState {s : State}
    (hs : s = (V4.dev w q).state ∨ ((V4.dev w q).state = .stopped ∧ s = .started)) :
    Unprivileged q w (Device.changeState q s w) where
  now_le := Nat.le_refl _
  eeprom := rfl
  latch := rfl
  pin _ _ := rfl
  ram := rfl
  other j hj := Ram.setDevice_devices_of_ne _ hj _
  dev := by
    simp only [V4.dev, Device.changeState_ram, Ram.setDevice_devices_self, Device.changeState_now]
    exact OnlyBeats.enter (Nat.le_refl _) (Nat.le_refl _) hs

theorem clearEnabled (h : w.hw.eeprom (Record.deviceRegion q + Record.portEnabled) = 0) :
    Unprivileged q w (Record.setDeviceEnabled env q false w) where
  now_le := Nat.le_add_right _ _
  eeprom := Function.update_eq_self_iff.mpr h.symm
  latch := rfl
  pin _ _ := rfl
  ram := rfl
  other _ _ := rfl
  dev := OnlyBeats.refl _ _ _

theorem onHeartbeat (hw : EnabledOk q w) : Unprivileged q w (Device.onHeartbeat env q w) := by
  have hb : Unprivileged q w (Device.beat q w) := beat
  cases hs : (V4.dev w q).state with
  | disabled =>
      rw [Device.onHeartbeat_of_disabled env hs]
      split
      · exact hb
      · rename_i hq
        have hclear :
            Unprivileged q (Device.beat q w) (Record.setDeviceEnabled env q false (Device.beat q w)) :=
          clearEnabled (hw hq hs)
        refine (hb.trans hclear).trans (changeState (Or.inl ?_))
        simpa [V4.dev] using hs.symm
  | stopped =>
      rw [Device.onHeartbeat_of_stopped env hs]
      exact hb.trans (changeState (Or.inr ⟨by simpa using hs, rfl⟩))
  | started =>
      rw [Device.onHeartbeat_of_powered env (Or.inl hs)]
      exact hb
  | stopping =>
      rw [Device.onHeartbeat_of_powered env (Or.inr hs)]
      exact hb

end Unprivileged

/-! ## 管理者でないポートの要求 -/

/-- ポート `q` の機器の心拍の要求。 -/
def Request.Pings (r : Request) (q : Port) : Prop := Req.ofId r.id = some .ping ∧ r.Targets q

theorem index?_self (q : Port) : index? (q.val : Int) = some q := by
  have hq := q.isLt
  have hin : (0 : Int) ≤ q.val ∧ (q.val : Int) < 5 := by omega
  simp [index?, hin]

theorem validPort_self (q : Port) : validPort (q.val : Int) = true := by
  have hq := q.isLt
  simp only [validPort, decide_eq_true_eq]
  omega

theorem Request.Targets.subId_sub_one {r : Request} {q : Port} (h : r.Targets q) :
    r.subId - 1 = (q.val : Int) := by
  rw [h, Int.add_sub_cancel]

/-- 自分の機器への心拍でない要求には、応答するだけである。 -/
theorem dispatch_of_not_pings (env : Env) {q : Port} {r : Request} (h : ¬ r.Pings q) (w : World) :
    ∃ w', dispatch env false q.val r w = some w' ∧ Answering w w' := by
  cases hr : Req.ofId r.id with
  | none => exact ⟨w, by simp only [dispatch, hr], Still.refl w⟩
  | some c =>
      cases c with
      | id => exact ⟨commandID env w, by simp only [dispatch, hr], answering_commandID⟩
      | cu => exact ⟨commandCurrent env r.subId w, by simp only [dispatch, hr], answering_commandCurrent r.subId⟩
      | hb => exact ⟨commandHeartbeat env r.subId w, by simp only [dispatch, hr], answering_resp (by decide) _ _⟩
      | boots => exact ⟨commandBoots env w, by simp only [dispatch, hr], answering_readResp (by decide) _ _⟩
      | fc => exact ⟨commandFailCount env r.subId w, by simp only [dispatch, hr], answering_commandFailCount r.subId⟩
      | th => exact ⟨commandThermistor env r.subId w, by simp only [dispatch, hr],
          answering_commandThermistor r.subId⟩
      | deviceState => exact ⟨commandState env r.subId w, by simp only [dispatch, hr], answering_resp (by decide) _ _⟩
      | getMediaSelect =>
          exact ⟨commandGetMediaSelect env r.subId w, by simp only [dispatch, hr], answering_readResp (by decide) _ _⟩
      | uptime => exact ⟨commandUptime env w, by simp only [dispatch, hr], answering_resp (by decide) _ _⟩
      | ping =>
          have hne : ¬ ((q.val : Int) = r.subId - 1) := by
            intro hq
            exact h ⟨hr, by unfold Request.Targets; omega⟩
          exact ⟨w, by simp [dispatch, hr, hne], Still.refl w⟩
      | start | stop | deviceEnable | setMediaSelect | eereset | reset =>
          -- 管理者でなければ無視する
          exact ⟨w, by simp [dispatch, hr], Still.refl w⟩

/-- 自分の機器への心拍の要求は、心拍を伝えて応答する。 -/
theorem dispatch_of_pings (env : Env) {q : Port} {r : Request} (h : r.Pings q) (w : World) :
    ∃ w₁ w', dispatch env false q.val r w = some w' ∧ Idle w w₁ ∧ Idle (Device.onHeartbeat env q w₁) w' := by
  obtain ⟨hr, ht⟩ := h
  have hsub := ht.subId_sub_one
  have hresp : ∀ w : World, Idle w (basicResp env pubWagmanPing r.subId (some 1)
      (setLED env (q.val + 1) true (delay env 50 w))) := fun w =>
    (still_delay 50).trans ((Idle.setLED _ _).trans (Idle.basicResp (by decide) _ _))
  refine ⟨setLED env (q.val + 1) false w, _, ?_, Idle.setLED _ _, hresp _⟩
  simp only [dispatch, hr, hsub, or_true, if_true, commandPing, commandPingMain, validPort_self, index?_self]
  rfl

theorem Answering.hw_eq {w w' : World} (h : Answering w w') : w'.hw = w.hw := by
  refine h.trail.hw_induct (P := fun s => s = w.hw) ?_ rfl
  intro e s he hs
  cases e with
  | resp id sub v => exact hs
  | respBytes id sub v => exact hs
  | _ => exact he.elim

theorem Unprivileged.dispatch (env : Env) {q : Port} {w : World} (hw : EnabledOk q w) (r : Request) :
    ∃ w', V4.dispatch env false q.val r w = some w' ∧ Unprivileged q w w' ∧
      (¬ r.Pings q → w'.ram = w.ram ∧ w'.hw = w.hw) := by
  by_cases hp : r.Pings q
  · obtain ⟨w₁, w', hd, h₁, h₂⟩ := dispatch_of_pings env hp w
    have hi : Unprivileged q w w₁ := ofIdle h₁
    exact ⟨w', hd, (hi.trans (onHeartbeat (hi.enabledOk hw))).trans (ofIdle h₂), fun hn => absurd hp hn⟩
  · obtain ⟨w', hd, h⟩ := dispatch_of_not_pings env hp w
    exact ⟨w', hd, ofIdle (Idle.ofAnswering h), fun _ => ⟨h.ram, Answering.hw_eq h⟩⟩

/-- 管理者でないポート `q` の要求の並びは、`devices[q]` への心拍のほかには何も変えず、その心拍の要求を含まなければ
記憶も装置も変えない。 -/
theorem processCommand_unprivileged {env : Env} {h : Hardware} {ops : List Op} {w : World}
    (hrun : run env ops (booted env h) = some w) (q : Port) (rs : List Request) :
    ∃ w', processCommand env false q.val rs w = some w' ∧ Unprivileged q w w' ∧
      ((∀ r ∈ rs, ¬ r.Pings q) → w'.ram = w.ram ∧ w'.hw = w.hw) := by
  have hw := EnabledOk.run hrun q
  clear hrun
  induction rs generalizing w with
  | nil => exact ⟨w, rfl, Unprivileged.ofIdle (Still.refl w), fun _ => ⟨rfl, rfl⟩⟩
  | cons r rs ih =>
      obtain ⟨w₁, hd, h₁, hsame₁⟩ := Unprivileged.dispatch env hw r
      obtain ⟨w₂, hr, h₂, hsame₂⟩ := ih (h₁.enabledOk hw)
      refine ⟨w₂, Run.run_cons.mpr ⟨w₁, hd, hr⟩, h₁.trans h₂, fun hn => ?_⟩
      obtain ⟨hram₁, hhw₁⟩ := hsame₁ (hn r (by simp))
      obtain ⟨hram₂, hhw₂⟩ := hsame₂ (fun r' hr' => hn r' (by simp [hr']))
      exact ⟨hram₂.trans hram₁, hhw₂.trans hhw₁⟩

/-- 無効なポート 2 の機器への心拍と、管理者の要求。 -/
theorem processCommand_unprivileged_ping :
    (dev (booted Env.ideal Hardware.ready) 2).state = .disabled ∧
    ∃ w', processCommand Env.ideal false (2 : Port).val [⟨0xff1e, 3, none⟩, ⟨0xc00a, 1, none⟩]
        (booted Env.ideal Hardware.ready) = some w' ∧ Unprivileged 2 (booted Env.ideal Hardware.ready) w' := by
  have hrun :
      run Env.ideal [] (booted Env.ideal Hardware.ready) = some (booted Env.ideal Hardware.ready) := rfl
  obtain ⟨w', hp, h, -⟩ := processCommand_unprivileged hrun 2 [⟨0xff1e, 3, none⟩, ⟨0xc00a, 1, none⟩]
  exact ⟨by decide +kernel, w', hp, h⟩

end Wagman.V4
