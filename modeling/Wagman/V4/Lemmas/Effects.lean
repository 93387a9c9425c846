import Wagman.V4.Firmware

/-!
# 入出力の作用

記録と装置だけを変える操作について、記憶が変わらないこと、起こす事象の範囲、EEPROM とラッチに及ぼす作用を示す。
以後の証明は、これらの関数の定義を開かない。
-/

namespace Wagman.V4

open Machine

variable {env : Env} {w : World} {A : Event → Prop}

/-! ## 起こす事象の範囲 -/

theorem still_digitalWrite {k : Nat} {b : Bool} (h : A (.pin k b)) : Still A w (digitalWrite env k b w) :=
  Still.emit _ h w

theorem still_delay (ms : Nat) : Still A w (delay env ms w) := Still.elapse _ _ w

theorem still_ioRead : Still A w (ioRead env w) := still_delay 0

theorem still_write {a : Nat} {v : UInt8} (h : A (.eeprom a v)) : Still A w (EEPROM.write env a v w) :=
  Still.emit _ h w

theorem still_put {a k : Nat} (h : ∀ b v, a ≤ b → b < a + k → A (.eeprom b v)) (n : Nat) :
    Still A w (EEPROM.put env a k n w) := Still.put (f := Event.eeprom) env.latency h n w

theorem still_setLatchedRelay {clk d : Nat} (hc : ∀ b, A (.pin clk b)) (hd : ∀ b, A (.pin d b))
    (mode : Bool) :
    Still A w (setLatchedRelay env clk d mode w) :=
  (still_digitalWrite (hc false)).trans <| (still_digitalWrite (hd mode)).trans <| (still_delay 100).trans <|
    (still_digitalWrite (hc true)).trans <| (still_delay 100).trans <| (still_digitalWrite (hc false)).trans <|
    (still_digitalWrite (hd false)).trans (still_delay 100)

theorem still_setRelay {i : Port} {mode : Bool} (hr : A (.relay i mode))
    (hc : ∀ b, A (.pin (relayClk i) b)) (hd : ∀ b, A (.pin (relayD i) b)) :
    Still A w (setRelay env i mode w) :=
  (Still.mark hr w).trans (still_setLatchedRelay hc hd mode)

theorem still_setBootMedia {s : Nat} {m : Media}
    (h : ∀ (hs : s < 2) b, A (.pin (bootSelectorPin ⟨s, hs⟩) b)) :
    Still A w (setBootMedia env s m w) := by
  unfold setBootMedia
  split
  · rename_i hs; exact still_digitalWrite (h hs _)
  · exact Still.refl w

theorem still_setLED {led : Nat} {on : Bool} (h : ∀ k ∈ ledPins, A (.pin k on)) :
    Still A w (setLED env led on w) := by
  unfold setLED
  split
  · rename_i k hk; exact still_digitalWrite (h k (List.mem_of_getElem? hk))
  · exact Still.refl w

theorem still_addEntry {i : Port}
    (h : ∀ a v, Record.BootLog.address i ≤ a → a < Record.BootLog.address i + 34 →
    A (.eeprom a v)) (t : UInt32) : Still A w (Record.BootLog.addEntry env i t w) := by
  have hlt : ∀ n, n % Record.BootLog.capacity < 8 := fun n => Nat.mod_lt _ (by decide)
  simp only [Record.BootLog.addEntry, Record.BootLog.setStart, Record.BootLog.setCount]
  have hput : Still A w (EEPROM.put env (Record.BootLog.address i + 2 + 4 *
      (((Record.BootLog.getStart w.hw.eeprom i).toNat + (Record.BootLog.getCount w.hw.eeprom i).toNat) %
        Record.BootLog.capacity)) 4 t.toNat w) := by
    refine still_put (fun b v h₁ h₂ => h b v (by omega) ?_) _
    have :=
      hlt ((Record.BootLog.getStart w.hw.eeprom i).toNat + (Record.BootLog.getCount w.hw.eeprom i).toNat)
    omega
  split
  · exact hput.trans (still_write (h _ _ (by omega) (by omega)))
  · exact hput.trans (still_write (h _ _ (by omega) (by omega)))

theorem still_driveRelay {i : Port} {t s : UInt8} {mode : Bool} (hr : A (.relay i mode))
    (hc : ∀ b, A (.pin (relayClk i) b)) (hd : ∀ b, A (.pin (relayD i) b))
    (hj : ∀ v, A (.eeprom (Record.deviceRegion i + Record.portRelayJournal) v)) :
    Still A w (Device.driveRelay env i t mode s w) :=
  (still_write (hj t)).trans <| (still_delay 10).trans <| (still_setRelay hr hc hd).trans <|
    (still_delay 500).trans <| (still_write (hj s)).trans (still_delay 10)

theorem still_recordBoot {i : Port}
    (h : ∀ o v, (7 ≤ o ∧ o < 11) ∨ (64 ≤ o ∧ o < 98) → A (.eeprom (Record.deviceRegion i + o) v)) :
    Still A w (Device.recordBoot env i w) := by
  have hattempts : Still A w (Record.incrementBootAttempts env i w) := by
    refine still_put (fun b v h₁ h₂ => ?_) _
    obtain ⟨o, rfl⟩ := Nat.exists_eq_add_of_le (Nat.le_trans (Nat.le_add_right _ _) h₁)
    simp only [Record.portBootAttempts] at h₁ h₂
    exact h o v (Or.inl (by omega))
  have hlog : ∀ (t : UInt32) (w : World), Still A w (Record.BootLog.addEntry env i t w) := by
    intro t w
    have haddr : Record.BootLog.address i = Record.deviceRegion i + 64 := rfl
    refine still_addEntry (fun a v h₁ h₂ => ?_) t
    rw [haddr] at h₁ h₂
    obtain ⟨o, rfl⟩ := Nat.exists_eq_add_of_le (Nat.le_trans (Nat.le_add_right _ _) h₁)
    exact h o v (Or.inr (by omega))
  exact hattempts.trans (still_ioRead.trans (hlog _ _))

theorem still_basicResp {id : Nat} {sub : Int} {v : Option UInt32} (h : A (.resp id sub v)) :
    Still A w (basicResp env id sub v w) := Still.emit _ h w

theorem trail_setDev (i : Port) (d : Device) : Trail A w (setDev i d w) := (Trail.refl w).setRam _

theorem trail_changeState {i : Port} {s : State} (h : A (.state i s)) :
    Trail A w (Device.changeState i s w) :=
  (trail_setDev i _).mark h

theorem trail_setNextBootMedia {i : Port} {m : Media} (hm : A (.media i m))
    (hp : ∀ s b, A (.pin (bootSelectorPin s) b)) : Trail A w (Device.setNextBootMedia env i m w) :=
  ((trail_setDev i _).mark hm).trans (still_setBootMedia fun _ b => hp _ b).trail

theorem trail_selectMedia {i : Port} (hs : ∀ m, A (.start i m))
    (hp : ∀ s b, A (.pin (bootSelectorPin s) b)) :
    Trail A w (Device.selectMedia env i w) :=
  (((trail_setDev i _).trans (trail_setDev i _)).mark (hs _)).trans (still_setBootMedia fun _ b => hp _ b).trail

theorem trail_afterSelect {i : Port} (he : ∀ a v, A (.eeprom a v)) (hp : ∀ k b, A (.pin k b))
    (hr : A (.relay i true)) (hs : A (.state i .started)) :
    Trail A (Device.selectMedia env i w) (Device.powerUp env i w) := by
  have hrec : Still A (Device.selectMedia env i w) (Device.recordBoot env i (Device.selectMedia env i w)) :=
    still_recordBoot fun _ v _ => he _ v
  exact (hrec.trans (still_driveRelay hr (fun b => hp _ b) (fun b => hp _ b) fun v => he _ v)).trail.trans
    (trail_changeState hs)

/-! ## 記憶は変わらない -/

section Ram

variable (env : Env) (w : World)

@[simp] theorem delay_ram (ms : Nat) : (delay env ms w).ram = w.ram := rfl

@[simp] theorem ioRead_ram : (ioRead env w).ram = w.ram := rfl

@[simp] theorem put_ram (a k n : Nat) : (EEPROM.put env a k n w).ram = w.ram :=
  (still_put (A := fun _ => True) (fun _ _ _ _ => trivial) n).ram

@[simp] theorem setBootMedia_ram (s : Nat) (m : Media) : (setBootMedia env s m w).ram = w.ram :=
  (still_setBootMedia (A := fun _ => True) fun _ _ => trivial).ram

@[simp] theorem addEntry_ram (i : Port) (t : UInt32) : (Record.BootLog.addEntry env i t w).ram = w.ram :=
  (still_addEntry (A := fun _ => True) (fun _ _ _ _ => trivial) t).ram

@[simp] theorem setDeviceEnabled_ram (i : Port) (b : Bool) :
    (Record.setDeviceEnabled env i b w).ram = w.ram := rfl

@[simp] theorem incrementBootAttempts_ram (i : Port) :
    (Record.incrementBootAttempts env i w).ram = w.ram :=
  put_ram ..

@[simp] theorem incrementBootFailures_ram (i : Port) :
    (Record.incrementBootFailures env i w).ram = w.ram :=
  put_ram ..

@[simp] theorem driveRelay_ram (i : Port) (t s : UInt8) (mode : Bool) :
    (Device.driveRelay env i t mode s w).ram = w.ram := rfl

end Ram

/-! ## 装置への作用 -/

theorem trail_eeprom {w' : World} (h : Trail A w w') {a : Nat} (ha : ∀ v, ¬ A (.eeprom a v)) :
    w'.hw.eeprom a = w.hw.eeprom a := by
  refine h.hw_induct (P := fun s => s.eeprom a = w.hw.eeprom a) ?_ rfl
  intro e s he hs
  cases e with
  | eeprom b v =>
      have hne : a ≠ b := by rintro rfl; exact ha v he
      simpa [Effect.apply, Hardware.write, Bytes.store_of_ne hne] using hs
  | _ => exact hs

theorem trail_word {w' : World} (h : Trail A w w') {a : Nat}
    (ha : ∀ b v, a ≤ b → b < a + 4 → ¬ A (.eeprom b v)) :
    Bytes.get w'.hw.eeprom a 4 = Bytes.get w.hw.eeprom a 4 :=
  Bytes.get_congr fun b h₁ h₂ => trail_eeprom h fun v => ha b v h₁ h₂

theorem trail_pin {w' : World} (h : Trail A w w') {k : Nat} (hk : ∀ b, ¬ A (.pin k b)) :
    w'.hw.pin k = w.hw.pin k := by
  refine h.hw_induct (P := fun s => s.pin k = w.hw.pin k) ?_ rfl
  intro e s he hs
  cases e with
  | pin k' b =>
      have hne : k ≠ k' := by rintro rfl; exact hk b he
      simpa [Effect.apply, Hardware.digitalWrite, hne] using hs
  | _ => exact hs

theorem trail_latch {w' : World} (h : Trail A w w') {p : Port} (hp : ∀ b, ¬ A (.pin (relayClk p) b)) :
    w'.hw.latch p = w.hw.latch p := by
  refine h.hw_induct (P := fun s => s.latch p = w.hw.latch p) ?_ rfl
  intro e s he hs
  cases e with
  | pin k b =>
      have hne : k ≠ relayClk p := by rintro rfl; exact hp b he
      simpa [Effect.apply, Hardware.digitalWrite, hne] using hs
  | _ => exact hs

theorem deviceRegion_add_inj {p q : Port} {o o' : Nat} (ho : o < 128) (ho' : o' < 128)
    (h : Record.deviceRegion p + o = Record.deviceRegion q + o') : p = q ∧ o = o' := by
  simp only [Record.deviceRegion, Record.portRegionsStart, Record.portRegionsSize] at h
  exact ⟨Fin.ext (by omega), by omega⟩

theorem relayClk_injective : Function.Injective relayClk := by decide

theorem relayD_ne_relayClk (p q : Port) : relayD p ≠ relayClk q := by revert p q; decide

theorem bootSelectorPin_ne_relayClk (s : Fin 2) (p : Port) : bootSelectorPin s ≠ relayClk p := by
  revert s p; decide

theorem bootSelectorPin_ne_relayD (s : Fin 2) (p : Port) : bootSelectorPin s ≠ relayD p := by
  revert s p; decide

theorem led_ne_relayClk {k : Nat} (h : k ∈ ledPins) (p : Port) : k ≠ relayClk p := by
  have : ∀ k ∈ ledPins, ∀ p, k ≠ relayClk p := by decide
  exact this k h p

theorem led_ne_bootSelectorPin {k : Nat} (h : k ∈ ledPins) (s : Fin 2) : k ≠ bootSelectorPin s := by
  have : ∀ k ∈ ledPins, ∀ s, k ≠ bootSelectorPin s := by decide
  exact this k h s

@[simp] theorem put_eeprom (a k n : Nat) :
    (EEPROM.put env a k n w).hw.eeprom = Bytes.put Bytes.store a k n w.hw.eeprom :=
  Bytes.read_put (fun w : World => w.hw.eeprom) (fun _ _ _ => rfl) a k n w

theorem word_put_self (a : Nat) (n : UInt32) (m : Nat → UInt8) :
    UInt32.ofNat (Bytes.get (Bytes.put Bytes.store a 4 n.toNat m) a 4) = n := by
  have hlt : n.toNat < 256 ^ 4 := n.toNat_lt
  rw [Bytes.get_put_self, Nat.mod_eq_of_lt hlt, UInt32.ofNat_toNat]

theorem setRelay_latch_self (i : Port) (mode : Bool) : (setRelay env i mode w).hw.latch i = mode := by
  have hdc := relayD_ne_relayClk i i
  simp [setRelay, setLatchedRelay, digitalWrite, delay, Effect.apply, Hardware.digitalWrite, hdc, Ne.symm hdc]

theorem driveRelay_latch_self (env : Env) (w : World) (i : Port) (t s : UInt8) (mode : Bool) :
    (Device.driveRelay env i t mode s w).hw.latch i = mode :=
  setRelay_latch_self i mode

theorem driveRelay_journal (env : Env) (w : World) (i : Port) (t s : UInt8) (mode : Bool) :
    Record.getRelayState (Device.driveRelay env i t mode s w).hw.eeprom i = s :=
  Bytes.store_self _ _ _

end Wagman.V4
