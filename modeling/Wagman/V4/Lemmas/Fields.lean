import Wagman.V4.Lemmas.Effects

/-!
# 記録の欄

EEPROM の記録を、領域の先頭からの位置と幅を持つ欄に分ける。欄を読む関数と書く関数は `Record.cpp` のものである。
異なる欄が重ならないことと、書き込みと読み出しが自分の欄の範囲に収まることから、欄どうしの独立が従う。
-/

namespace Wagman.V4.Record

open Machine

/-! ## 欄とその位置 -/

/-- 先頭の領域の欄。 -/
inductive HeaderField
  | magic
  | hardwareVersion
  | firmwareVersion
  | bootCount
  | lastBootTime
  | wireEnabled
  | bootloaderNodeController
  deriving DecidableEq

/-- 機器ごとの領域の欄。`logEntry k` は、起動の記録の八つの場所の `k` 番目である。 -/
inductive DeviceField
  | enabled
  | lastBootTime
  | bootAttempts
  | bootFailures
  | thermistorHealth
  | currentHealth
  | relayState
  | logStart
  | logCount
  | logEntry (k : Fin 8)
  deriving DecidableEq

inductive Field
  | header (f : HeaderField)
  | device (d : Port) (f : DeviceField)
  deriving DecidableEq

def HeaderField.offset : HeaderField → Nat
  | .magic => magicAddr
  | .hardwareVersion => Record.hardwareVersion
  | .firmwareVersion => Record.firmwareVersion
  | .bootCount => Record.bootCount
  | .lastBootTime => Record.lastBootTime
  | .wireEnabled => Record.wireEnabled
  | .bootloaderNodeController => Record.bootloaderNodeController

def HeaderField.width : HeaderField → Nat
  | .magic | .bootCount | .lastBootTime => 4
  | .hardwareVersion | .firmwareVersion => 2
  | .wireEnabled | .bootloaderNodeController => 1

def DeviceField.offset : DeviceField → Nat
  | .enabled => portEnabled
  | .lastBootTime => portLastBootTime
  | .bootAttempts => portBootAttempts
  | .bootFailures => portBootFailures
  | .thermistorHealth => portThermistorHealth
  | .currentHealth => portCurrentHealth
  | .relayState => portRelayJournal
  | .logStart => portBootLog
  | .logCount => portBootLog + 1
  | .logEntry k => portBootLog + 2 + 4 * k

def DeviceField.width : DeviceField → Nat
  | .lastBootTime | .bootAttempts | .bootFailures | .logEntry _ => 4
  | .enabled | .thermistorHealth | .currentHealth | .relayState | .logStart | .logCount => 1

def Field.addr : Field → Nat
  | .header f => f.offset
  | .device d f => deviceRegion d + f.offset

def Field.width : Field → Nat
  | .header f => f.width
  | .device _ f => f.width

/-- 番地 `a` は欄 `f` の範囲にある。 -/
def Field.Holds (f : Field) (a : Nat) : Prop := f.addr ≤ a ∧ a < f.addr + f.width

theorem HeaderField.end_le (f : HeaderField) : f.offset + f.width ≤ 128 := by
  cases f <;> decide

theorem DeviceField.end_le (f : DeviceField) : f.offset + f.width ≤ 128 := by
  cases f with
  | logEntry k =>
      have := k.isLt
      simp only [offset, width, portBootLog]
      omega
  | _ => decide

theorem HeaderField.disjoint {f g : HeaderField} (h : g ≠ f) :
    f.offset + f.width ≤ g.offset ∨ g.offset + g.width ≤ f.offset := by
  revert h
  cases f <;> cases g <;> decide

theorem DeviceField.disjoint {f g : DeviceField} (h : g ≠ f) :
    f.offset + f.width ≤ g.offset ∨ g.offset + g.width ≤ f.offset := by
  have hlog : ∀ (k : Fin 8) (f : DeviceField), (∀ k', f ≠ logEntry k') →
      f.offset + f.width ≤ (logEntry k).offset := by
    intro k f hf
    cases f with
    | logEntry k' => exact absurd rfl (hf k')
    | _ =>
        simp only [offset, width, portEnabled, portLastBootTime, portBootAttempts, portBootFailures,
          portThermistorHealth, portCurrentHealth, portRelayJournal, portBootLog]
        omega
  cases f with
  | logEntry k =>
      cases g with
      | logEntry k' =>
          have hk : k'.val ≠ k.val := fun he => h (by rw [Fin.ext he])
          simp only [offset, width]
          omega
      | _ => exact Or.inr (hlog k _ (by simp))
  | _ =>
      cases g with
      | logEntry k' => exact Or.inl (hlog k' _ (by simp))
      | _ => first | exact absurd rfl h | (simp [offset, width])

theorem Field.disjoint {f g : Field} (h : g ≠ f) {a : Nat} (hf : f.Holds a) : ¬ g.Holds a := by
  rintro ⟨h₁, h₂⟩
  obtain ⟨h₃, h₄⟩ := hf
  cases f with
  | header f =>
      have hf := f.end_le
      cases g with
      | header g =>
          have hd := HeaderField.disjoint (f := f) (g := g) fun he => h (by rw [he])
          simp only [addr, width] at h₁ h₂ h₃ h₄
          omega
      | device e g =>
          simp only [addr, width, deviceRegion, portRegionsStart] at h₁ h₂ h₃ h₄
          omega
  | device d f =>
      have hf := f.end_le
      cases g with
      | header g =>
          have hg := g.end_le
          simp only [addr, width, deviceRegion, portRegionsStart] at h₁ h₂ h₃ h₄
          omega
      | device e g =>
          have hg := g.end_le
          simp only [addr, width, deviceRegion, portRegionsStart, portRegionsSize] at h₁ h₂ h₃ h₄
          obtain rfl : d = e := Fin.ext (by omega)
          have hd := DeviceField.disjoint (f := f) (g := g) fun he => h (by rw [he])
          omega

/-! ## 欄の読み書き -/

abbrev HeaderField.Value : HeaderField → Type
  | .magic | .bootCount | .lastBootTime => UInt32
  | .hardwareVersion | .firmwareVersion => Version
  | .wireEnabled => Bool
  | .bootloaderNodeController => UInt8

abbrev DeviceField.Value : DeviceField → Type
  | .enabled => Bool
  | .lastBootTime | .bootAttempts | .bootFailures | .logEntry _ => UInt32
  | .thermistorHealth | .currentHealth | .relayState | .logStart | .logCount => UInt8

abbrev Field.Value : Field → Type
  | .header f => f.Value
  | .device _ f => f.Value

def Field.read : (f : Field) → (Nat → UInt8) → f.Value
  | .header .magic, m => getWord m magicAddr
  | .header .hardwareVersion, m => getHardwareVersion m
  | .header .firmwareVersion, m => getFirmwareVersion m
  | .header .bootCount, m => getBootCount m
  | .header .lastBootTime, m => getLastBootTime m
  | .header .wireEnabled, m => getWireEnabled m
  | .header .bootloaderNodeController, m => getBootloaderNodeController m
  | .device d .enabled, m => getDeviceEnabled m d
  | .device d .lastBootTime, m => getLastBootTimeOf m d
  | .device d .bootAttempts, m => getBootAttempts m d
  | .device d .bootFailures, m => getBootFailures m d
  | .device d .thermistorHealth, m => getThermistorSensorHealth m d
  | .device d .currentHealth, m => getPortCurrentSensorHealth m d
  | .device d .relayState, m => getRelayState m d
  | .device d .logStart, m => BootLog.getStart m d
  | .device d .logCount, m => BootLog.getCount m d
  | .device d (.logEntry k), m => getWord m (BootLog.slot d k)

variable (env : Env)

def Field.write : (f : Field) → f.Value → World → World
  | .header .magic, v, w => EEPROM.put env magicAddr 4 v.toNat w
  | .header .hardwareVersion, v, w => setHardwareVersion env v w
  | .header .firmwareVersion, v, w => setFirmwareVersion env v w
  | .header .bootCount, v, w => setBootCount env v w
  | .header .lastBootTime, v, w => setLastBootTime env v w
  | .header .wireEnabled, v, w => setWireEnabled env v w
  | .header .bootloaderNodeController, v, w => setBootloaderNodeController env v w
  | .device d .enabled, v, w => setDeviceEnabled env d v w
  | .device d .lastBootTime, v, w => setLastBootTimeOf env d v w
  | .device d .bootAttempts, v, w => setBootAttempts env d v w
  | .device d .bootFailures, v, w => setBootFailures env d v w
  | .device d .thermistorHealth, v, w => setThermistorSensorHealth env d v w
  | .device d .currentHealth, v, w => setPortCurrentSensorHealth env d v w
  | .device d .relayState, v, w => setRelayState env d v w
  | .device d .logStart, v, w => BootLog.setStart env d v w
  | .device d .logCount, v, w => BootLog.setCount env d v w
  | .device d (.logEntry k), v, w => EEPROM.put env (BootLog.slot d k) 4 v.toNat w

/-- 値 `v` を書いた欄から読める値。 -/
def Field.stored : (f : Field) → f.Value → f.Value
  | .header .bootloaderNodeController, v => if 2 < v then 1 else v
  | .device d .enabled, v => if d = 0 then true else v
  | .header _, v => v
  | .device _ _, v => v

variable {env} {w : World}

theorem slot_eq (d : Port) (k : Fin 8) : BootLog.slot d k = (Field.device d (.logEntry k)).addr := by
  simp only [BootLog.slot, BootLog.address, Field.addr, DeviceField.offset, deviceRegion,
    portRegionsStart, portRegionsSize]
  omega

/-- 欄の範囲の番地への書き込み。 -/
def Field.Writes (f : Field) (e : Event) : Prop := ∃ a v, e = .eeprom a v ∧ f.Holds a

theorem still_word {f : Field} (hw : f.width = 4) (n : Nat) : Still f.Writes w (EEPROM.put env f.addr 4 n w) :=
  still_put (fun b v h₁ h₂ => ⟨b, v, rfl, h₁, hw ▸ h₂⟩) n

theorem still_byte {f : Field} (hw : 0 < f.width) (v : UInt8) : Still f.Writes w (EEPROM.write env f.addr v w) :=
  still_write ⟨f.addr, v, rfl, Nat.le_refl _, Nat.lt_add_of_pos_right hw⟩

theorem still_version {f : Field} (hw : f.width = 2) (v : Version) : Still f.Writes w (putVersion env f.addr v w) :=
  (still_byte (by omega) v.major).trans
    (still_write ⟨f.addr + 1, v.minor, rfl, Nat.le_succ _, by omega⟩)

theorem Field.still_write (env : Env) (f : Field) (v : f.Value) (w : World) :
    Still f.Writes w (f.write env v w) := by
  match f, v with
  | .header .magic, v => exact still_word (f := .header .magic) rfl _
  | .header .hardwareVersion, v => exact still_version (f := .header .hardwareVersion) rfl v
  | .header .firmwareVersion, v => exact still_version (f := .header .firmwareVersion) rfl v
  | .header .bootCount, v => exact still_word (f := .header .bootCount) rfl _
  | .header .lastBootTime, v => exact still_word (f := .header .lastBootTime) rfl _
  | .header .wireEnabled, v => exact still_byte (f := .header .wireEnabled) Nat.one_pos _
  | .header .bootloaderNodeController, v =>
      exact still_byte (f := .header .bootloaderNodeController) Nat.one_pos _
  | .device d .enabled, v => exact still_byte (f := .device d .enabled) Nat.one_pos _
  | .device d .lastBootTime, v => exact still_word (f := .device d .lastBootTime) rfl _
  | .device d .bootAttempts, v => exact still_word (f := .device d .bootAttempts) rfl _
  | .device d .bootFailures, v => exact still_word (f := .device d .bootFailures) rfl _
  | .device d .thermistorHealth, v => exact still_byte (f := .device d .thermistorHealth) Nat.one_pos _
  | .device d .currentHealth, v => exact still_byte (f := .device d .currentHealth) Nat.one_pos _
  | .device d .relayState, v => exact still_byte (f := .device d .relayState) Nat.one_pos _
  | .device d .logStart, v => exact still_byte (f := .device d .logStart) Nat.one_pos _
  | .device d .logCount, v => exact still_byte (f := .device d .logCount) Nat.one_pos _
  | .device d (.logEntry k), v =>
      rw [Field.write, slot_eq]
      exact still_word rfl _

variable {m m' : Nat → UInt8}

theorem getWord_congr {a : Nat} (h : ∀ b, a ≤ b → b < a + 4 → m b = m' b) : getWord m a = getWord m' a := by
  rw [getWord, getWord, Bytes.get_congr h]

/-- 欄から読める値は、欄の範囲のバイトだけで決まる。 -/
theorem Field.read_congr (f : Field) (h : ∀ a, f.Holds a → m a = m' a) : f.read m = f.read m' := by
  have hfirst : 0 < f.width → m f.addr = m' f.addr := fun hw => h _ ⟨Nat.le_refl _, by omega⟩
  have hword : f.width = 4 → getWord m f.addr = getWord m' f.addr := fun hw =>
    getWord_congr fun b h₁ h₂ => h b ⟨h₁, by omega⟩
  have hversion : f.width = 2 → getVersion m f.addr = getVersion m' f.addr := by
    intro hw
    rw [getVersion, getVersion, hfirst (by omega), h (f.addr + 1) ⟨Nat.le_succ _, by omega⟩]
  match f with
  | .header .magic => exact hword rfl
  | .header .hardwareVersion => exact hversion rfl
  | .header .firmwareVersion => exact hversion rfl
  | .header .bootCount => exact hword rfl
  | .header .lastBootTime => exact hword rfl
  | .header .wireEnabled => exact congrArg (· != 0) (hfirst Nat.one_pos)
  | .header .bootloaderNodeController => exact hfirst Nat.one_pos
  | .device d .enabled =>
      have hbyte := hfirst Nat.one_pos
      simp only [Field.read, getDeviceEnabled]
      split
      · rfl
      · exact congrArg (· != 0) hbyte
  | .device d .lastBootTime => exact hword rfl
  | .device d .bootAttempts => exact hword rfl
  | .device d .bootFailures => exact hword rfl
  | .device d .thermistorHealth => exact hfirst Nat.one_pos
  | .device d .currentHealth => exact hfirst Nat.one_pos
  | .device d .relayState => exact hfirst Nat.one_pos
  | .device d .logStart => exact hfirst Nat.one_pos
  | .device d .logCount => exact hfirst Nat.one_pos
  | .device d (.logEntry k) =>
      rw [Field.read, Field.read, slot_eq]
      exact hword rfl

theorem Field.read_trail {A : Event → Prop} {w' : World} (f : Field) (h : Trail A w w')
    (hA : ∀ a v, f.Holds a → ¬ A (.eeprom a v)) : f.read w'.hw.eeprom = f.read w.hw.eeprom :=
  f.read_congr fun a ha => trail_eeprom h fun v => hA a v ha

/-! ## 書いた値の読み出し -/

@[simp] theorem write_eeprom_self (a : Nat) (v : UInt8) : (EEPROM.write env a v w).hw.eeprom a = v :=
  Bytes.store_self a v _

theorem getWord_put_self (a : Nat) (n : UInt32) : getWord (EEPROM.put env a 4 n.toNat w).hw.eeprom a = n := by
  rw [getWord, put_eeprom, word_put_self]

theorem getVersion_putVersion (a : Nat) (v : Version) : getVersion (putVersion env a v w).hw.eeprom a = v := by
  have hmajor : (putVersion env a v w).hw.eeprom a = v.major := by
    have hne : a ≠ a + 1 := by omega
    exact (Bytes.store_of_ne hne _ _).trans (write_eeprom_self a v.major)
  have hminor : (putVersion env a v w).hw.eeprom (a + 1) = v.minor := write_eeprom_self _ _
  rw [getVersion, hmajor, hminor]

theorem toUInt8_bne_zero (b : Bool) : (b.toUInt8 != 0) = b := by cases b <;> rfl

theorem Field.read_write_self (env : Env) (f : Field) (v : f.Value) (w : World) :
    f.read (f.write env v w).hw.eeprom = f.stored v := by
  match f, v with
  | .header .magic, v => exact getWord_put_self _ v
  | .header .hardwareVersion, v => exact getVersion_putVersion _ v
  | .header .firmwareVersion, v => exact getVersion_putVersion _ v
  | .header .bootCount, v => exact getWord_put_self _ v
  | .header .lastBootTime, v => exact getWord_put_self _ v
  | .header .wireEnabled, v => exact (congrArg (· != 0) (write_eeprom_self _ _)).trans (toUInt8_bne_zero v)
  | .header .bootloaderNodeController, v => exact write_eeprom_self _ _
  | .device d .enabled, v =>
      have hbyte : ((EEPROM.write env (deviceRegion d + portEnabled) v.toUInt8 w).hw.eeprom
          (deviceRegion d + portEnabled) != 0) = v :=
        (congrArg (· != 0) (write_eeprom_self _ _)).trans (toUInt8_bne_zero v)
      by_cases hd : d = 0
      · subst hd
        rfl
      · simp only [Field.read, getDeviceEnabled, if_neg hd, Field.write, setDeviceEnabled, hbyte]
        exact (if_neg hd).symm
  | .device d .lastBootTime, v => exact getWord_put_self _ v
  | .device d .bootAttempts, v => exact getWord_put_self _ v
  | .device d .bootFailures, v => exact getWord_put_self _ v
  | .device d .thermistorHealth, v => exact write_eeprom_self _ _
  | .device d .currentHealth, v => exact write_eeprom_self _ _
  | .device d .relayState, v => exact write_eeprom_self _ _
  | .device d .logStart, v => exact write_eeprom_self _ _
  | .device d .logCount, v => exact write_eeprom_self _ _
  | .device d (.logEntry k), v => exact getWord_put_self _ v

theorem Field.read_write_ne (env : Env) {f g : Field} (h : g ≠ f) (v : f.Value) (w : World) :
    g.read (f.write env v w).hw.eeprom = g.read w.hw.eeprom := by
  refine g.read_trail (f.still_write env v w).trail fun a b ha => ?_
  rintro ⟨a', v', he, hf⟩
  cases he
  exact Field.disjoint h hf ha

end Wagman.V4.Record
