import Wagman.V4.Lemmas.DeviceOps

/-!
# 一歩でできること

実行の一歩を、機器の操作と、応答や時間の経過だけの部分に分ける。以後の不変条件は、この場合分けから示す。
-/

namespace Wagman.V4

open Machine

/-- 応答。リセットの応答は除く。 -/
def Event.Answers : Event → Prop
  | .resp id _ _ => id ≠ pubWagmanReset
  | .respBytes _ _ _ => True
  | _ => False

/-- 応答と LED の点滅。 -/
def Event.Quiet : Event → Prop
  | .pin k _ => k ∈ ledPins
  | e => e.Answers

/-- 記憶を変えず、応答だけを起こす。 -/
abbrev Answering (w w' : World) : Prop := Still Event.Answers w w'

/-- 記憶を変えず、応答と LED の点滅だけを起こす。 -/
abbrev Idle (w w' : World) : Prop := Still Event.Quiet w w'

theorem Event.Answers.quiet {e : Event} (h : e.Answers) : e.Quiet := by
  cases e with
  | resp id sub v => exact h
  | respBytes id sub v => exact h
  | _ => exact h.elim

namespace Idle

variable {w w' : World} {env : Env}

theorem ofAnswering (h : Answering w w') : Idle w w' := h.mono fun _ he => he.quiet

theorem setLED (led : Nat) (on : Bool) : Idle w (setLED env led on w) := still_setLED fun _ hk => hk

theorem basicResp {id : Nat} (h : id ≠ pubWagmanReset) (sub : Int) (v : Option UInt32) :
    Idle w (basicResp env id sub v w) := still_basicResp h

/-! ## 装置への作用 -/

theorem dev_eq (h : Idle w w') (i : Port) : dev w' i = dev w i := by simp only [dev, h.ram]

theorem eeprom_eq (h : Idle w w') : w'.hw.eeprom = w.hw.eeprom :=
  funext fun _ => trail_eeprom h.trail fun _ h => h

theorem latch_eq (h : Idle w w') : w'.hw.latch = w.hw.latch :=
  funext fun p => trail_latch h.trail fun _ hk => led_ne_relayClk hk p rfl

end Idle

section Commands

variable {env : Env} {w : World}

theorem answering_resp {id : Nat} (h : id ≠ pubWagmanReset) (sub : Int) (v : Option UInt32) :
    Answering w (basicResp env id sub v w) := still_basicResp h

theorem answering_readResp {id : Nat} (h : id ≠ pubWagmanReset) (sub : Int) (v : Option UInt32) :
    Answering w (basicResp env id sub v (ioRead env w)) := still_ioRead.trans (answering_resp h sub v)

theorem answering_commandID : Answering w (commandID env w) := still_ioRead.trans (Still.emit _ trivial _)

theorem answering_commandCurrent (sub : Int) : Answering w (commandCurrent env sub w) :=
  answering_readResp (by decide) _ _

theorem answering_commandVoltage (sub : Int) : Answering w (commandVoltage env sub w) :=
  answering_readResp (by decide) _ _

theorem answering_commandFailCount (sub : Int) : Answering w (commandFailCount env sub w) :=
  answering_readResp (by decide) _ _

theorem answering_commandThermistor (sub : Int) : Answering w (commandThermistor env sub w) :=
  answering_readResp (by decide) _ _

theorem answering_respEnvironment (sub : Int) (read : Nat → Option UInt32) :
    Answering w (respEnvironment env sub read w) := by
  simp only [respEnvironment]
  split
  · exact answering_readResp (by decide) _ _
  · exact still_ioRead

theorem answering_logStatus : Answering w (logStatus env w) :=
  answering_commandID.trans <| (Still.foldl (fun _ _ _ => answering_commandCurrent _) _).trans <|
    (Still.foldl (fun _ _ _ => answering_commandFailCount _) _).trans <|
    (Still.foldl (fun _ _ _ => answering_commandVoltage _) _).trans <|
    (Still.foldl (fun _ _ _ => answering_commandThermistor _) _).trans <|
    (answering_respEnvironment _ _).trans (answering_respEnvironment _ _)

theorem idle_blink (f : Port → Bool) (on : Bool) : Idle w (blink env f on w) := by
  refine Still.foldl (fun w i _ => ?_) w
  split
  · exact Idle.setLED _ _
  · exact Still.refl w

end Commands

/-! ## 場合分け -/

/-- 応答と LED の点滅のほかには、機器と起動の順序に関わらない記憶だけを変える。 -/
structure Tick (w w' : World) : Prop where
  trail : Trail Event.Quiet w w'
  devices : w'.ram.devices = w.ram.devices
  startTimer : w'.ram.startTimer = w.ram.startTimer
  wants : w'.ram.deviceWantsStart = w.ram.deviceWantsStart
  resetSystem : w'.ram.shouldResetSystem = w.ram.shouldResetSystem
  resetAll : w'.ram.shouldResetAll = w.ram.shouldResetAll
  halted : w'.ram.halted = true → w.ram.halted = true ∨ w.ram.shouldResetSystem = true

theorem Idle.tick {w w' : World} (h : Idle w w') : Tick w w' :=
  ⟨h.trail, by rw [h.ram], by rw [h.ram], by rw [h.ram], by rw [h.ram], by rw [h.ram],
    fun hh => Or.inl (by rwa [h.ram] at hh)⟩

theorem Tick.ofAnswering {w w' : World} (h : Answering w w') : Tick w w' := (Idle.ofAnswering h).tick

theorem Tick.refl (w : World) : Tick w w := Idle.tick (Still.refl w)

theorem Tick.trans {w w' w'' : World} (h₁ : Tick w w') (h₂ : Tick w' w'') : Tick w w'' where
  trail := h₁.trail.trans h₂.trail
  devices := h₂.devices.trans h₁.devices
  startTimer := h₂.startTimer.trans h₁.startTimer
  wants := h₂.wants.trans h₁.wants
  resetSystem := h₂.resetSystem.trans h₁.resetSystem
  resetAll := h₂.resetAll.trans h₁.resetAll
  halted hh := (h₂.halted hh).elim h₁.halted fun hr => Or.inr (h₁.resetSystem ▸ hr)

theorem Tick.setRam (w : World) {r : Ram} (hd : r.devices = w.ram.devices)
    (ht : r.startTimer = w.ram.startTimer)
    (hw : r.deviceWantsStart = w.ram.deviceWantsStart)
    (hs : r.shouldResetSystem = w.ram.shouldResetSystem)
    (ha : r.shouldResetAll = w.ram.shouldResetAll)
    (hh : r.halted = true → w.ram.halted = true ∨ w.ram.shouldResetSystem = true) : Tick w (w.setRam r) :=
  ⟨(Trail.refl w).setRam r, hd, ht, hw, hs, ha, hh⟩

/-- 要求 `r` がポート `i` を指す。配列の添字として正しい番号のときだけ成り立つ。 -/
def Request.Targets (r : Request) (i : Port) : Prop := r.subId = (i.val : Int) + 1

/-- 実行の一歩でできること。 -/
inductive Step (env : Env) : Op → World → World → Prop
  | tick {o w w'} : Tick w w' → Step env o w w'
  | update {w} (i : Port) : Step env (.update i) w (Device.update env i w)
  | next {w} : w.ram.shouldResetSystem = false → Step env .startNext w (startNextDevice env w)
  | ping {a port r w w₁ w'} (i : Port) :
      Req.ofId r.id = some .ping → (a = true ∨ port = r.subId - 1) → r.Targets i →
      Idle w w₁ → Idle (Device.onHeartbeat env i w₁) w' → Step env (.request a port r) w w'
  | start {port r w w'} (i : Port) :
      Req.ofId r.id = some .start → (r.subId - 1) % 256 = (i.val : Int) →
      Idle (w.setRam { w.ram with deviceWantsStart := UInt8.ofNat i.val }) w' → Step env (.request true port r) w w'
  | stop {port r w w'} (i : Port) (t : UInt32) :
      (Req.ofId r.id = some .stop ∧ r.value.isSome) → r.Targets i →
      Idle (Device.stop env i (Device.setStopTimeout i t w)).2 w' → Step env (.request true port r) w w'
  | enable {port r w w'} (i : Port) :
      Req.ofId r.id = some .deviceEnable → r.Targets i →
      Idle (Device.enable env i w) w' → Step env (.request true port r) w w'
  | media {port r w w'} (i : Port) (m : Media) :
      Req.ofId r.id = some .setMediaSelect → r.Targets i → i = 0 ∨ i = 1 →
      Idle (Device.setNextBootMedia env i m w) w' → Step env (.request true port r) w w'
  | eereset {port r w w'} :
      Req.ofId r.id = some .eereset → Idle (Record.clearMagic env w) w' → Step env (.request true port r) w w'
  | reset {port r w} : Req.ofId r.id = some .reset → Step env (.request true port r) w (commandReset env w)
  | resetAll {w} : w.ram.shouldResetAll = true → Step env .resetAll w (doResetAll env w)

theorem targets_of_index? {r : Request} {i : Port} (h : index? (r.subId - 1) = some i) : r.Targets i := by
  unfold index? at h
  split at h
  · rename_i hp
    have hi := congrArg Fin.val (Option.some.inj h)
    simp only at hi
    unfold Request.Targets
    omega
  · cases h

theorem commandSetMediaSelect_inv {env : Env} {port : Int} {r : Request} {m : UInt32} {w : World}
    (hr : Req.ofId r.id = some .setMediaSelect) :
    Step env (.request true port r) w (commandSetMediaSelect env r.subId m w) := by
  unfold commandSetMediaSelect commandSetMediaSelectMain
  by_cases hp : r.subId - 1 = 0 ∨ r.subId - 1 = 1
  · have hi : bytePort (r.subId - 1) = 0 ∨ bytePort (r.subId - 1) = 1 := by
      rcases hp with hp | hp <;> rw [hp] <;> decide
    have ht : r.Targets (bytePort (r.subId - 1)) := by
      rcases hp with hp | hp <;> rw [Request.Targets, hp] <;> simp [bytePort] <;> omega
    simp only [hp, if_true]
    by_cases h0 : m = 0
    · simp only [h0, if_true]
      exact .media _ .sd hr ht hi (Idle.basicResp (by decide) _ _)
    · by_cases h1 : m = 1
      · simp only [h1, if_true]
        exact .media _ .emmc hr ht hi (Idle.basicResp (by decide) _ _)
      · simp only [h0, h1]
        exact .tick (Tick.ofAnswering (answering_resp (by decide) _ _))
  · simp only [hp]
    exact .tick (Tick.ofAnswering (answering_resp (by decide) _ _))

theorem dispatch_inv {env : Env} {a : Bool} {port : Int} {r : Request} {w w' : World}
    (h : dispatch env a port r w = some w') : Step env (.request a port r) w w' := by
  unfold dispatch at h
  cases hr : Req.ofId r.id with
  | none => rw [hr] at h; cases h; exact .tick (Tick.refl w)
  | some q =>
      rw [hr] at h
      cases q with
      | id => cases h; exact .tick (Tick.ofAnswering answering_commandID)
      | cu => cases h; exact .tick (Tick.ofAnswering (answering_commandCurrent _))
      | hb => cases h; exact .tick (Tick.ofAnswering (answering_resp (by decide) _ _))
      | boots => cases h; exact .tick (Tick.ofAnswering (answering_readResp (by decide) _ _))
      | fc => cases h; exact .tick (Tick.ofAnswering (answering_commandFailCount _))
      | th => cases h; exact .tick (Tick.ofAnswering (answering_commandThermistor _))
      | deviceState => cases h; exact .tick (Tick.ofAnswering (answering_resp (by decide) _ _))
      | getMediaSelect => cases h; exact .tick (Tick.ofAnswering (answering_readResp (by decide) _ _))
      | uptime => cases h; exact .tick (Tick.ofAnswering (answering_resp (by decide) _ _))
      | start =>
          cases a with
          | false => cases h; exact .tick (Tick.refl w)
          | true =>
              simp only [if_true, Option.some.injEq] at h
              subst h
              unfold commandStart commandStartMain
              by_cases hv : validPort (r.subId - 1) = true
              · have hlt : (r.subId - 1) % 256 < 5 := of_decide_eq_true hv
                have hnn : 0 ≤ (r.subId - 1) % 256 := by omega
                simp only [hv, if_true]
                refine .start ⟨((r.subId - 1) % 256).toNat, by omega⟩ hr (Int.toNat_of_nonneg hnn).symm ?_
                exact Idle.basicResp (by decide) _ _
              · simp only [hv]
                exact .tick (Tick.ofAnswering (answering_resp (by decide) _ _))
      | stop =>
          cases a with
          | false => cases h; exact .tick (Tick.refl w)
          | true =>
              cases hv : r.value with
              | none =>
                  simp only [hv, if_true] at h
                  cases h
                  exact .tick (Tick.ofAnswering (answering_resp (by decide) _ _))
              | some t =>
                  simp only [hv, if_true, commandStop, commandStopMain] at h
                  split at h
                  · simp only [Option.map_map, Option.map_eq_some_iff] at h
                    obtain ⟨i, hi, rfl⟩ := h
                    exact .stop i (t * 1000) ⟨hr, by simp [hv]⟩ (targets_of_index? hi)
                      (Idle.basicResp (by decide) _ _)
                  · cases h; exact .tick (Tick.ofAnswering (answering_resp (by decide) _ _))
      | deviceEnable =>
          cases a with
          | false => cases h; exact .tick (Tick.refl w)
          | true =>
              simp only [if_true, commandEnable, commandEnableMain] at h
              split at h
              · simp only [Option.map_map, Option.map_eq_some_iff] at h
                obtain ⟨i, hi, rfl⟩ := h
                exact .enable i hr (targets_of_index? hi)
                  (Idle.basicResp (by decide) _ _)
              · cases h; exact .tick (Tick.ofAnswering (answering_resp (by decide) _ _))
      | setMediaSelect =>
          cases a with
          | false => cases h; exact .tick (Tick.refl w)
          | true =>
              cases hv : r.value with
              | none =>
                  simp only [hv, if_true] at h
                  cases h
                  exact .tick (Tick.ofAnswering (answering_resp (by decide) _ _))
              | some m =>
                  simp only [hv, if_true, Option.some.injEq] at h
                  subst h
                  exact commandSetMediaSelect_inv hr
      | eereset =>
          cases a with
          | false => cases h; exact .tick (Tick.refl w)
          | true => cases h; exact .eereset hr (Idle.basicResp (by decide) _ _)
      | reset =>
          cases a with
          | false => cases h; exact .tick (Tick.refl w)
          | true => cases h; exact .reset hr
      | ping =>
          simp only at h
          split at h
          · rename_i hc
            simp only [commandPing, commandPingMain] at h
            split at h
            · simp only [Option.map_map, Option.map_eq_some_iff] at h
              obtain ⟨i, hi, rfl⟩ := h
              have hled : Idle w (setLED env (i.val + 1) false w) := Idle.setLED _ _
              refine .ping i hr hc (targets_of_index? hi) hled ?_
              exact ((still_delay 50).trans (Idle.setLED _ _)).trans (Idle.basicResp (by decide) _ _)
            · cases h; exact .tick (Tick.ofAnswering (answering_resp (by decide) _ _))
          · cases h; exact .tick (Tick.refl w)

theorem tick_updateLEDs (env : Env) (w : World) : Tick w (updateLEDs env w) := by
  have hread : Idle w ((List.finRange 5).foldl (fun w _ => ioRead env w) w) :=
    Still.foldl (fun _ _ _ => still_ioRead) w
  have hblink : ∀ (w : World) (f : Port → Bool), Idle w (w |> setLED env 0 false |> blink env f false
      |> delay env 50 |> setLED env 0 true |> blink env f true) := fun w f =>
    (Idle.setLED _ _).trans <| (idle_blink _ _).trans <| (still_delay _).trans <| (Idle.setLED _ _).trans
      (idle_blink _ _)
  have hlast : ∀ (w : World) (g : Port → Bool), Idle w
      ((List.finRange 5).foldl (fun w i => setLED env (i.val + 1) (g i) w) w) := fun w g =>
    Still.foldl (fun _ _ _ => Idle.setLED _ _) w
  simp only [updateLEDs]
  refine hread.tick.trans (Tick.trans ?_ (hlast _ _).tick)
  refine Tick.trans ?_ (hblink _ _).tick
  exact Tick.setRam _ rfl rfl rfl rfl rfl Or.inl

theorem step_inv {env : Env} {o : Op} {w w' : World} (h : step env o w = some w') : Step env o w w' := by
  unfold step at h
  split at h
  · cases h; exact .tick (Tick.refl w)
  · cases o with
    | idle ms => cases h; exact .tick (Idle.tick (still_delay ms))
    | pinHB s => cases h; exact .tick (Tick.setRam w rfl rfl rfl rfl rfl Or.inl)
    | startNext =>
        simp only [Option.some.injEq] at h
        split at h
        · cases h; exact .tick (Tick.refl w)
        · rename_i hs
          cases h
          exact .next (by simpa using hs)
    | update i => cases h; exact .update i
    | request a port r => exact dispatch_inv h
    | resetAll =>
        simp only [Option.some.injEq] at h
        split at h
        · rename_i hs
          cases h
          exact .resetAll hs
        · cases h; exact .tick (Tick.refl w)
    | status =>
        simp only [Option.some.injEq, updateStatus] at h
        split at h
        · cases h
          refine .tick (Tick.trans ?_ (Tick.ofAnswering answering_logStatus))
          exact Tick.setRam w rfl rfl rfl rfl rfl Or.inl
        · cases h; exact .tick (Tick.refl w)
    | reset =>
        simp only [Option.some.injEq, updateReset] at h
        split at h
        · rename_i hs
          cases h
          exact .tick (Tick.setRam w rfl rfl rfl rfl rfl fun _ => Or.inr (Bool.and_eq_true_iff.mp hs).1)
        · cases h; exact .tick (Tick.refl w)
    | leds => cases h; exact .tick (tick_updateLEDs env w)

end Wagman.V4
