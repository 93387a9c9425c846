import Wagman.V3.Theorems.Recovery
import Wagman.V4.Lemmas.Local

/-!
# 無効な機器の心拍

`onHeartbeat` は、無効な機器の心拍に `disable()` を呼び、心拍がなくなるまで止めることを繰り返そうとする。しかし
`disable()` の呼ぶ `kill()` は、無効な機器では何もしない。v3 でも v4 でも、リレーは一度も切られない。
-/

namespace Wagman

open Machine

/-! ## v4 -/

namespace V4

variable {env : Env} {p : Port} {w : World}

/-- リレーも、ほかのどのピンも動かさない。 -/
def Event.Untouching : Event → Prop
  | .relay _ _ => False
  | .pin _ _ => False
  | _ => True

/-- 心拍がポート `p` のリレーを切り、機器を無効なまま保つ。 -/
structure KillsOnHeartbeat (env : Env) (p : Port) (w : World) : Prop where
  driven : ∃ new t, (Device.onHeartbeat env p w).log = new ++ w.log ∧ ⟨t, .relay p false⟩ ∈ new
  state : (dev (Device.onHeartbeat env p w) p).state = .disabled
  flag : (Device.onHeartbeat env p w).hw.eeprom (Record.deviceRegion p + Record.portEnabled) = 0

/-- 無効な機器の心拍は、有効の印を消し直すだけである。 -/
theorem trail_onHeartbeat (env : Env) (hp : p ≠ 0) (hs : (dev w p).state = .disabled) :
    Trail Event.Untouching w (Device.onHeartbeat env p w) := by
  rw [Device.onHeartbeat_of_disabled env hs, if_neg hp]
  have hbeat : Trail Event.Untouching w (Device.beat p w) := (trail_setDev p _).mark trivial
  have hclear : Still Event.Untouching (Device.beat p w) (Record.setDeviceEnabled env p false (Device.beat p w)) :=
    still_write trivial
  exact (hbeat.trans hclear.trail).trans ((trail_setDev p _).mark trivial)

theorem not_killsOnHeartbeat (env : Env) (hp : p ≠ 0) (hs : (dev w p).state = .disabled) :
    ¬ KillsOnHeartbeat env p w := by
  intro h
  obtain ⟨new, t, hlog, hmem⟩ := h.driven
  exact ((trail_onHeartbeat env hp hs).of_log hlog).2 _ hmem

/-- 無効な機器は、心拍の後も無効で、有効の印は消えている。 -/
theorem onHeartbeat_keeps_disabled (env : Env) (hp : p ≠ 0) (hs : (dev w p).state = .disabled) :
    (dev (Device.onHeartbeat env p w) p).state = .disabled ∧
      (Device.onHeartbeat env p w).hw.eeprom (Record.deviceRegion p + Record.portEnabled) = 0 := by
  rw [Device.onHeartbeat_of_disabled env hs, if_neg hp]
  exact ⟨by simp [dev, Device.enter], Bytes.store_self _ _ _⟩

end V4

/-! ## v3 -/

namespace V3

variable {env : Env} {p : Port} {w : World}

/-- リレーも、ほかのどのピンも動かさない。 -/
def Event.Untouching : Event → Prop
  | .relay _ _ => False
  | .pin _ _ => False
  | _ => True

/-- 心拍がポート `p` のリレーを切り、機器を無効なまま保つ。 -/
structure KillsOnHeartbeat (env : Env) (p : Port) (w : World) : Prop where
  driven : ∃ new t, (Device.onHeartbeat env p w).log = new ++ w.log ∧ ⟨t, .relay p false⟩ ∈ new
  state : (dev (Device.onHeartbeat env p w) p).state = .disabled
  flag : (Device.onHeartbeat env p w).hw.eeprom (Record.deviceRegion p + Record.portEnabled) = 0

theorem onHeartbeat_of_disabled (env : Env) (hp : p ≠ 0) (hs : (dev w p).state = .disabled) :
    Device.onHeartbeat env p w =
      Device.changeState p .disabled (Record.setDeviceEnabled env p false (Device.beat p w)) := by
  have hb : (dev (Device.beat p w) p).state = .disabled := by simp [hs]
  have hclear : (dev (Record.setDeviceEnabled env p false (Device.beat p w)) p).state = .disabled := hb
  simp only [Device.onHeartbeat, hb, disable_of_ne_zero hp, kill_of_disabled hclear]

/-- 無効な機器の心拍は、有効の印を消し直すだけである。 -/
theorem trail_onHeartbeat (env : Env) (hp : p ≠ 0) (hs : (dev w p).state = .disabled) :
    Trail Event.Untouching w (Device.onHeartbeat env p w) := by
  rw [onHeartbeat_of_disabled env hp hs]
  have hbeat : Trail Event.Untouching w (Device.beat p w) := ((Trail.refl w).setRam _).mark trivial
  have hclear : Still Event.Untouching (Device.beat p w) (Record.setDeviceEnabled env p false (Device.beat p w)) :=
    still_write trivial
  exact (hbeat.trans hclear.trail).trans (((Trail.refl _).setRam _).mark trivial)

theorem not_killsOnHeartbeat (env : Env) (hp : p ≠ 0) (hs : (dev w p).state = .disabled) :
    ¬ KillsOnHeartbeat env p w := by
  intro h
  obtain ⟨new, t, hlog, hmem⟩ := h.driven
  exact ((trail_onHeartbeat env hp hs).of_log hlog).2 _ hmem

/-- 無効な機器は、心拍の後も無効で、有効の印は消えている。 -/
theorem onHeartbeat_keeps_disabled (env : Env) (hp : p ≠ 0) (hs : (dev w p).state = .disabled) :
    (dev (Device.onHeartbeat env p w) p).state = .disabled ∧
      (Device.onHeartbeat env p w).hw.eeprom (Record.deviceRegion p + Record.portEnabled) = 0 := by
  rw [onHeartbeat_of_disabled env hp hs]
  exact ⟨by rw [dev_changeState]; rfl, Bytes.store_self _ _ _⟩

end V3

/-! ## 無効な機器は止め直されない -/

/-- v3 でも v4 でも、無効な機器の心拍は、どの状態でもリレーを切らない。機器は無効なまま、有効の印は 0 のままである。 -/
theorem heartbeat_never_kills (p : Fin 5) (hp : p ≠ 0) :
    (∀ (env : V4.Env) (w : V4.World), (V4.dev w p).state = .disabled →
      ¬ V4.KillsOnHeartbeat env p w ∧ Trail V4.Event.Untouching w (V4.Device.onHeartbeat env p w) ∧
      (V4.dev (V4.Device.onHeartbeat env p w) p).state = .disabled ∧
      (V4.Device.onHeartbeat env p w).hw.eeprom (V4.Record.deviceRegion p + V4.Record.portEnabled) = 0) ∧
    (∀ (env : V3.Env) (w : V3.World), (V3.dev w p).state = .disabled →
      ¬ V3.KillsOnHeartbeat env p w ∧ Trail V3.Event.Untouching w (V3.Device.onHeartbeat env p w) ∧
      (V3.dev (V3.Device.onHeartbeat env p w) p).state = .disabled ∧
      (V3.Device.onHeartbeat env p w).hw.eeprom (V3.Record.deviceRegion p + V3.Record.portEnabled) = 0) :=
  ⟨fun env _ hs => ⟨V4.not_killsOnHeartbeat env hp hs, V4.trail_onHeartbeat env hp hs,
      V4.onHeartbeat_keeps_disabled env hp hs⟩,
    fun env _ hs => ⟨V3.not_killsOnHeartbeat env hp hs, V3.trail_onHeartbeat env hp hs,
      V3.onHeartbeat_keeps_disabled env hp hs⟩⟩

/-- 起動した直後、ポート 2 は無効である。 -/
theorem disabled_booted : (V4.dev (V4.booted V4.Env.ideal V4.Hardware.ready) 2).state = .disabled ∧
    (V3.dev (V3.booted V3.Env.ideal V3.Hardware.ready) 2).state = .disabled := by
  constructor <;> decide +kernel

theorem heartbeat_never_kills_two :
    ¬ V4.KillsOnHeartbeat V4.Env.ideal 2 (V4.booted V4.Env.ideal V4.Hardware.ready) ∧
    ¬ V3.KillsOnHeartbeat V3.Env.ideal 2 (V3.booted V3.Env.ideal V3.Hardware.ready) := by
  obtain ⟨h₄, h₃⟩ := heartbeat_never_kills 2 (by decide)
  exact ⟨(h₄ _ _ disabled_booted.1).1, (h₃ _ _ disabled_booted.2).1⟩

/-- ポート 2 は無効だが、電源を入れ直す前からリレーのラッチが入ったままの基板。 -/
def V4.Hardware.latched : V4.Hardware := { V4.Hardware.ready with latch := fun p => p == 2 }

/-- ラッチが入ったままの機器は、無効なのに動き続け、心拍が届いても切られない。 -/
theorem disabled_device_keeps_running : ∃ w,
    V4.run V4.Env.ideal [] (V4.booted V4.Env.ideal V4.Hardware.latched) = some w ∧
    (V4.dev w 2).state = .disabled ∧ w.hw.latch 2 = true ∧ ¬ V4.KillsOnHeartbeat V4.Env.ideal 2 w ∧
    (V4.Device.onHeartbeat V4.Env.ideal 2 w).hw.latch 2 = true ∧
    (V3.dev (V3.run V3.Env.ideal [] (V3.booted V3.Env.ideal V3.Hardware.ready)) 2).state = .disabled ∧
    ¬ V3.KillsOnHeartbeat V3.Env.ideal 2 (V3.run V3.Env.ideal [] (V3.booted V3.Env.ideal V3.Hardware.ready)) := by
  have hs : (V4.dev (V4.booted V4.Env.ideal V4.Hardware.latched) 2).state = .disabled := by decide +kernel
  exact ⟨_, rfl, hs, by decide +kernel, V4.not_killsOnHeartbeat _ (by decide) hs, by decide +kernel,
    disabled_booted.2, V3.not_killsOnHeartbeat _ (by decide) disabled_booted.2⟩

end Wagman
