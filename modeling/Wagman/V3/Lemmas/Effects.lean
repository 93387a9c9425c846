import Wagman.V3.Firmware

/-!
# 入出力の作用と、ポートに関わらない部分

事象を、関わるポートで分ける。`devices[i]` の操作は、ほかのポートに関わる事象を起こさない。
-/

namespace Wagman.V3

open Machine

/-- ポート `p` に関わる事象。 -/
def Event.About (p : Port) : Event → Prop
  | .eeprom a _ => ∃ o < 128, a = Record.deviceRegion p + o
  | .relay q _ => q = p
  | .state q _ => q = p
  | .heartbeat q => q = p
  | .enable q => q = p
  | _ => False

/-- ポート `i` のほかには関わらない事象。 -/
def Event.Of (i : Port) (e : Event) : Prop := ∀ p, p ≠ i → ¬ e.About p

/-- どのポートにも関わらない事象。 -/
def Event.Global (e : Event) : Prop := ∀ p, ¬ e.About p

theorem Event.Global.of {e : Event} (h : e.Global) (i : Port) : e.Of i := fun p _ => h p

theorem deviceRegion_add_inj {p q : Port} {o o' : Nat} (ho : o < 128) (ho' : o' < 128)
    (h : Record.deviceRegion p + o = Record.deviceRegion q + o') : p = q ∧ o = o' := by
  simp only [Record.deviceRegion, Record.portRegionsStart, Record.portRegionsSize] at h
  exact ⟨Fin.ext (by omega), by omega⟩

theorem Event.of_eeprom {i : Port} {a : Nat} (h : ∃ o < 128, a = Record.deviceRegion i + o) (v : UInt8) :
    Event.Of i (.eeprom a v) := by
  rintro p hp ⟨o, ho, ha⟩
  obtain ⟨o', ho', ha'⟩ := h
  exact hp (deviceRegion_add_inj ho ho' (ha.symm.trans ha')).1

theorem Event.global_eeprom {a : Nat} (h : a < 256) (v : UInt8) : Event.Global (.eeprom a v) := by
  rintro p ⟨o, -, ha⟩
  simp only [Record.deviceRegion, Record.portRegionsStart] at ha
  omega

theorem Event.global_pin (k : Nat) (b : Bool) : Event.Global (.pin k b) := fun _ => id

theorem Event.global_print (o : Out) : Event.Global (.print o) := fun _ => id

theorem Event.of_relay (i : Port) (on : Bool) : Event.Of i (.relay i on) := fun _ hp h => hp h.symm

theorem Event.of_state (i : Port) (s : State) : Event.Of i (.state i s) := fun _ hp h => hp h.symm

theorem Event.of_heartbeat (i : Port) : Event.Of i (.heartbeat i) := fun _ hp h => hp h.symm

theorem Event.of_enable (i : Port) : Event.Of i (.enable i) := fun _ hp h => hp h.symm

/-! ## 起こす事象の範囲 -/

section Still

variable {env : Env} {w : World} {A : Event → Prop}

theorem still_digitalWrite {k : Nat} {b : Bool} (h : A (.pin k b)) : Still A w (digitalWrite env k b w) :=
  Still.emit _ h w

theorem still_delay (ms : Nat) : Still A w (delay env ms w) := Still.elapse _ _ w

theorem still_ioRead : Still A w (ioRead env w) := still_delay 0

theorem still_write {a : Nat} {v : UInt8} (h : A (.eeprom a v)) : Still A w (EEPROM.write env a v w) :=
  Still.emit _ h w

theorem still_put {a k : Nat} (h : ∀ b v, a ≤ b → b < a + k → A (.eeprom b v)) (n : Nat) :
    Still A w (EEPROM.put env a k n w) := Still.put (f := Event.eeprom) env.latency h n w

theorem still_setRelay {i : Port} {on : Bool} (hr : A (.relay i on)) (hp : ∀ k b, A (.pin k b)) :
    Still A w (setRelay env i on w) := by
  have hw :
      ∀ (k : Nat) (b : Bool) (w : World), Still A w (delay env 50 (digitalWrite env k b w)) := fun k b w =>
    (still_digitalWrite (hp k b)).trans (still_delay 50)
  unfold setRelay
  split
  · exact (Still.mark hr w).trans <| (hw _ _ _).trans <| (hw _ _ _).trans <| (hw _ _ _).trans (hw _ _ _)
  · exact (Still.mark hr w).trans (hw _ _ _)

/-- `setRelay` のうち、切り替えを記した後の部分。 -/
theorem trail_setRelay {i : Port} (hp : ∀ k b, A (.pin k b)) (on : Bool) :
    Trail A (w.mark (.relay i on)) (setRelay env i on w) := by
  have hw : ∀ (k : Nat) (b : Bool) (v : World), Trail A v (delay env 50 (digitalWrite env k b v)) := fun k b v =>
    ((still_digitalWrite (hp k b)).trans (still_delay 50)).trail
  unfold setRelay
  split
  · exact ((hw _ _ _).trans (hw _ _ _)).trans ((hw _ _ _).trans (hw _ _ _))
  · exact hw _ _ _

theorem still_setBootMedia {s : Nat} {m : Media} (hp : ∀ k b, A (.pin k b)) :
    Still A w (setBootMedia env s m w) := by
  unfold setBootMedia
  split
  · exact still_digitalWrite (hp _ _)
  · exact Still.refl w

theorem still_addEntry {i : Port}
    (h : ∀ a v, Record.BootLog.address i ≤ a → a < Record.BootLog.address i + 34 →
    A (.eeprom a v)) (t : UInt32) : Still A w (Record.BootLog.addEntry env i t w) := by
  have hlt : ∀ n, n % Record.BootLog.capacity < 8 := fun n => Nat.mod_lt _ (by decide)
  have hput : ∀ n, Still A w
      (EEPROM.put env (Record.BootLog.address i + 2 + 4 * (n % Record.BootLog.capacity)) 4 t.toNat w) := by
    intro n
    have hn := hlt n
    exact still_put (fun b v h₁ h₂ => h b v (by omega) (by omega)) _
  simp only [Record.BootLog.addEntry, Record.BootLog.setStart, Record.BootLog.setCount]
  split
  · exact (hput _).trans (still_write (h _ _ (by omega) (by omega)))
  · exact (hput _).trans (still_write (h _ _ (by omega) (by omega)))

theorem still_driveRelay {i : Port} {t s : UInt8} {on : Bool} (hr : A (.relay i on))
    (hp : ∀ k b, A (.pin k b))
    (hj : ∀ v, A (.eeprom (Record.deviceRegion i + Record.portRelayJournal) v)) :
    Still A w (Device.driveRelay env i t on s w) :=
  (still_write (hj t)).trans <| (still_delay 10).trans <| (still_setRelay hr hp).trans <|
    (still_delay 500).trans <| (still_write (hj s)).trans (still_delay 10)

theorem still_recordBoot {i : Port}
    (h : ∀ o v, (7 ≤ o ∧ o < 9) ∨ (64 ≤ o ∧ o < 98) → A (.eeprom (Record.deviceRegion i + o) v)) :
    Still A w (Device.recordBoot env i w) := by
  have hattempts : Still A w (Record.incrementBootAttempts env i w) := by
    refine still_put (fun b v h₁ h₂ => ?_) _
    obtain ⟨o, rfl⟩ := Nat.exists_eq_add_of_le (Nat.le_trans (Nat.le_add_right _ _) h₁)
    simp only [Record.portBootAttempts] at h₁ h₂
    exact h o v (Or.inl (by omega))
  have hlog : ∀ (t : UInt32) (w : World), Still A w (Record.BootLog.addEntry env i t w) := by
    intro t w
    have haddr : Record.BootLog.address i = Record.deviceRegion i + 64 := rfl
    refine still_addEntry (fun a v h₁ h₂ => ?_) t
    rw [haddr] at h₁ h₂
    obtain ⟨o, rfl⟩ := Nat.exists_eq_add_of_le (Nat.le_trans (Nat.le_add_right _ _) h₁)
    exact h o v (Or.inr (by omega))
  exact hattempts.trans (still_ioRead.trans (hlog _ _))

theorem still_prints (h : ∀ o, A (.print o)) (outs : List Out) : Still A w (prints env outs w) :=
  Still.foldl (fun w o _ => Still.emit _ (h o) w) w

theorem still_eachPort {f : Port → World → World} (hf : ∀ i w, Still A w (f i w)) :
    Still A w (eachPort f w) :=
  Still.foldl (fun w i _ => hf i w) w

theorem still_lightSequence (hp : ∀ k b, A (.pin k b)) (ms : Nat) :
    Still A w (lightSequence env ms w) := by
  have hw :
      ∀ (l : Fin 2) (b : Bool) (w : World), Still A w (delay env ms (setLED env l b w)) := fun l b w =>
    (still_digitalWrite (hp _ b)).trans (still_delay ms)
  exact (hw _ _ _).trans <| (hw _ _ _).trans <| (hw _ _ _).trans (hw _ _ _)

theorem trail_setDev (i : Port) (d : Device) : Trail A w (setDev i d w) := (Trail.refl w).setRam _

theorem trail_eeprom {w' : World} (h : Trail A w w') {a : Nat} (ha : ∀ v, ¬ A (.eeprom a v)) :
    w'.hw.eeprom a = w.hw.eeprom a := by
  refine h.hw_induct (P := fun s => s.eeprom a = w.hw.eeprom a) ?_ rfl
  intro e s he hs
  cases e with
  | eeprom b v =>
      have hne : a ≠ b := by rintro rfl; exact ha v he
      simpa [Effect.apply, Bytes.store_of_ne hne] using hs
  | _ => exact hs

end Still

/-! ## 記憶への作用 -/

@[simp] theorem Ram.setDevice_devices_self (r : Ram) (i : Port) (d : Device) :
    (r.setDevice i d).devices i = d := by
  simp [Ram.setDevice]

theorem Ram.setDevice_devices_of_ne (r : Ram) {i j : Port} (h : j ≠ i) (d : Device) :
    (r.setDevice i d).devices j = r.devices j := by
  simp [Ram.setDevice, h]

@[simp] theorem dev_setDev_self (w : World) (i : Port) (d : Device) : dev (setDev i d w) i = d :=
  Ram.setDevice_devices_self _ _ _

@[simp] theorem dev_changeState (w : World) (i : Port) (s : State) :
    dev (Device.changeState i s w) i = (dev w i).enter s (timerNow w) := dev_setDev_self _ _ _

theorem changeState_log (w : World) (i : Port) (s : State) :
    (Device.changeState i s w).log = ⟨w.now, .state i s⟩ :: w.log := rfl

@[simp] theorem dev_beat (w : World) (i : Port) :
    dev (Device.beat i w) i = { dev w i with heartbeatTimer := timerNow w } := dev_setDev_self _ _ _

theorem dev_still {A : Event → Prop} {w w' : World} (h : Still A w w') (i : Port) :
    dev w' i = dev w i := by
  simp only [dev, h.ram]

theorem state_powerDown {env : Env} {p : Port} {w : World} : (dev (Device.powerDown env p w) p).state = .stopped := by
  have hs : dev (Device.powerDown env p w) p =
      dev (Device.changeState p .stopped (Device.driveRelay env p relayTurningOff false relayOff w)) p := rfl
  rw [hs, dev_changeState]
  rfl

/-! ## ポートに関わらない部分 -/

/-- ポート `p` に関わる事象を起こさず、`devices[p]` も変えない。 -/
structure Frame (p : Port) (w w' : World) : Prop where
  trail : Trail (fun e => ¬ e.About p) w w'
  dev : dev w' p = dev w p

namespace Frame

variable {p : Port} {w w' w'' : World}

theorem refl (w : World) : Frame p w w := ⟨Trail.refl w, rfl⟩

theorem trans (h₁ : Frame p w w') (h₂ : Frame p w' w'') : Frame p w w'' :=
  ⟨h₁.trail.trans h₂.trail, h₂.dev.trans h₁.dev⟩

theorem ofStill {i : Port} (h : Still (Event.Of i) w w') (hp : p ≠ i) : Frame p w w' :=
  ⟨h.trail.mono fun _ he => he p hp, dev_still h p⟩

theorem setRam {r : Ram} (h : r.devices p = w.ram.devices p) : Frame p w (w.setRam r) :=
  ⟨(Trail.refl w).setRam r, h⟩

theorem setDev {i : Port} (d : Device) (hp : p ≠ i) : Frame p w (setDev i d w) :=
  setRam (Ram.setDevice_devices_of_ne _ hp d)

theorem mark {i : Port} {e : Event} (he : e.Of i) (hp : p ≠ i) : Frame p w (w.mark e) :=
  ⟨(Trail.refl w).mark (he p hp), rfl⟩

theorem changeState {i : Port} (s : State) (hp : p ≠ i) : Frame p w (Device.changeState i s w) :=
  (setDev _ hp).trans (mark (Event.of_state i s) hp)

theorem byte_eq (h : Frame p w w') {o : Nat} (ho : o < 128) :
    w'.hw.eeprom (Record.deviceRegion p + o) = w.hw.eeprom (Record.deviceRegion p + o) :=
  trail_eeprom h.trail fun _ hn => hn ⟨o, ho, rfl⟩

end Frame

/-- どのポートにも関わる事象を起こさず、`devices` を変えない。 -/
structure Quiet (w w' : World) : Prop where
  trail : Trail Event.Global w w'
  devices : w'.ram.devices = w.ram.devices

namespace Quiet

variable {w w' w'' : World}

theorem refl (w : World) : Quiet w w := ⟨Trail.refl w, rfl⟩

theorem trans (h₁ : Quiet w w') (h₂ : Quiet w' w'') : Quiet w w'' :=
  ⟨h₁.trail.trans h₂.trail, h₂.devices.trans h₁.devices⟩

theorem ofStill (h : Still Event.Global w w') : Quiet w w' := ⟨h.trail, by rw [h.ram]⟩

theorem setRam {r : Ram} (h : r.devices = w.ram.devices) : Quiet w (w.setRam r) :=
  ⟨(Trail.refl w).setRam r, h⟩

theorem frame (h : Quiet w w') (p : Port) : Frame p w w' :=
  ⟨h.trail.mono fun _ he => he p, by simp only [dev, h.devices]⟩

end Quiet

end Wagman.V3
