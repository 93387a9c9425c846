import Wagman.V4.Basic

/-!
# 入出力と、EEPROM の記録（`Wagman.cpp`、`EEPROM.h`、`Record.cpp`）

読み出しは EEPROM の内容の関数、書き込みは全体の状態の関数である。ARM では `unsigned int`、`unsigned long`、
`time_t` はどれも 4 バイトである。
-/

namespace Wagman.V4

variable (env : Env)

/-! ## 最小の操作 -/

def digitalWrite (k : Nat) (level : Bool) (w : World) : World := w.emit env.latency (.pin k level)

def delay (ms : Nat) (w : World) : World := w.elapse env.latency ms

/-- 値を読む入出力。かかる時間だけを表し、値は `Env` か EEPROM の内容から得る。 -/
def ioRead (w : World) : World := delay env 0 w

namespace EEPROM

/-- `EEPROM.write` -/
def write (addr : Nat) (value : UInt8) (w : World) : World := w.emit env.latency (.eeprom addr value)

/-- `EEPROM.put`。下位のバイトから一バイトずつ書く。 -/
def put (addr size n : Nat) (w : World) : World := Bytes.put (write env) addr size n w

end EEPROM

/-! ## リレー、媒体の選択、LED -/

def setLatchedRelay (clk d : Nat) (mode : Bool) (w : World) : World :=
  w |> digitalWrite env clk false
    |> digitalWrite env d mode
    |> delay env 100
    |> digitalWrite env clk true
    |> delay env 100
    |> digitalWrite env clk false
    |> digitalWrite env d false
    |> delay env 100

def setRelay (port : Port) (mode : Bool) (w : World) : World :=
  setLatchedRelay env (relayClk port) (relayD port) mode (w.mark (.relay port mode))

/-- `validBootSelector` を満たさない番号には何もしない。 -/
def setBootMedia (selector : Nat) (media : Media) (w : World) : World :=
  if h : selector < 2 then digitalWrite env (bootSelectorPin ⟨selector, h⟩) media.level w else w

/-- `validLED` を満たさない番号には何もしない。 -/
def setLED (led : Nat) (on : Bool) (w : World) : World :=
  match ledPins[led]? with
  | some pin => digitalWrite env pin on w
  | none => w

def setLEDs (mode : Bool) (w : World) : World :=
  ledPins.foldl (fun w pin => digitalWrite env pin mode w) w

/-- `Wagman::getTime` が読む時刻。 -/
def getTime (w : World) : UInt32 := if w.ram.wireEnabled then env.clock w.io else 0

/-! ## 記録 -/

namespace Record

@[simp] def magic : Nat := 0xADA1ADA1

@[simp] def magicAddr : Nat := 0
@[simp] def hardwareVersion : Nat := 4
@[simp] def firmwareVersion : Nat := 6
@[simp] def bootCount : Nat := 8
@[simp] def lastBootTime : Nat := 12
@[simp] def wireEnabled : Nat := 32
@[simp] def bootloaderNodeController : Nat := 0x40

@[simp] def portRegionsStart : Nat := 256
@[simp] def portRegionsSize : Nat := 128
@[simp] def portEnabled : Nat := 0
@[simp] def portLastBootTime : Nat := 3
@[simp] def portBootAttempts : Nat := 7
@[simp] def portBootFailures : Nat := 11
@[simp] def portThermistorHealth : Nat := 15
@[simp] def portCurrentHealth : Nat := 20
@[simp] def portRelayJournal : Nat := 38
@[simp] def portBootLog : Nat := 64

def deviceRegion (device : Port) : Nat := portRegionsStart + device * portRegionsSize

structure Version where
  major : UInt8
  minor : UInt8
  deriving DecidableEq, Repr

def putVersion (addr : Nat) (v : Version) (w : World) : World :=
  w |> EEPROM.write env addr v.major
    |> EEPROM.write env (addr + 1) v.minor

variable (m : Nat → UInt8)

def getVersion (addr : Nat) : Version := ⟨m addr, m (addr + 1)⟩

/-- 4 バイトの欄を読む。 -/
def getWord (addr : Nat) : UInt32 := UInt32.ofNat (Bytes.get m addr 4)

def initialized : Bool := Bytes.get m magicAddr 4 == magic

def getWireEnabled : Bool := m wireEnabled != 0

def getBootloaderNodeController : UInt8 := m bootloaderNodeController

def getHardwareVersion : Version := getVersion m hardwareVersion

def getFirmwareVersion : Version := getVersion m firmwareVersion

def getBootCount : UInt32 := UInt32.ofNat (Bytes.get m bootCount 4)

def getLastBootTime : UInt32 := getWord m lastBootTime

/-- `getLastBootTime(device, time)` -/
def getLastBootTimeOf (device : Port) : UInt32 := getWord m (deviceRegion device + portLastBootTime)

/-- ポート 0 は常に有効とみなす。 -/
def getDeviceEnabled (device : Port) : Bool :=
  if device = 0 then true else m (deviceRegion device + portEnabled) != 0

def getBootAttempts (device : Port) : UInt32 :=
  UInt32.ofNat (Bytes.get m (deviceRegion device + portBootAttempts) 4)

def getBootFailures (device : Port) : UInt32 :=
  UInt32.ofNat (Bytes.get m (deviceRegion device + portBootFailures) 4)

def getRelayState (port : Port) : UInt8 := m (deviceRegion port + portRelayJournal)

def getPortCurrentSensorHealth (port : Port) : UInt8 := m (deviceRegion port + portCurrentHealth)

def getThermistorSensorHealth (port : Port) : UInt8 := m (deviceRegion port + portThermistorHealth)

def clearMagic (w : World) : World := EEPROM.put env magicAddr 4 0 w

def setWireEnabled (enabled : Bool) (w : World) : World := EEPROM.write env wireEnabled enabled.toUInt8 w

def setBootloaderNodeController (mode : UInt8) (w : World) : World :=
  EEPROM.write env bootloaderNodeController (if 2 < mode then 1 else mode) w

def setHardwareVersion (v : Version) (w : World) : World := putVersion env hardwareVersion v w

def setFirmwareVersion (v : Version) (w : World) : World := putVersion env firmwareVersion v w

def setBootCount (count : UInt32) (w : World) : World := EEPROM.put env bootCount 4 count.toNat w

def incrementBootCount (w : World) : World := setBootCount env (getBootCount w.hw.eeprom + 1) w

def setLastBootTime (time : UInt32) (w : World) : World := EEPROM.put env lastBootTime 4 time.toNat w

/-- `setLastBootTime(device, time)` -/
def setLastBootTimeOf (device : Port) (time : UInt32) (w : World) : World :=
  EEPROM.put env (deviceRegion device + portLastBootTime) 4 time.toNat w

def setDeviceEnabled (device : Port) (enabled : Bool) (w : World) : World :=
  EEPROM.write env (deviceRegion device + portEnabled) enabled.toUInt8 w

def setBootAttempts (device : Port) (attempts : UInt32) (w : World) : World :=
  EEPROM.put env (deviceRegion device + portBootAttempts) 4 attempts.toNat w

def incrementBootAttempts (device : Port) (w : World) : World :=
  setBootAttempts env device (getBootAttempts w.hw.eeprom device + 1) w

def setBootFailures (device : Port) (failures : UInt32) (w : World) : World :=
  EEPROM.put env (deviceRegion device + portBootFailures) 4 failures.toNat w

def incrementBootFailures (device : Port) (w : World) : World :=
  setBootFailures env device (getBootFailures w.hw.eeprom device + 1) w

def setRelayState (port : Port) (state : UInt8) (w : World) : World :=
  EEPROM.write env (deviceRegion port + portRelayJournal) state w

def setPortCurrentSensorHealth (port : Port) (health : UInt8) (w : World) : World :=
  EEPROM.write env (deviceRegion port + portCurrentHealth) health w

def setThermistorSensorHealth (port : Port) (health : UInt8) (w : World) : World :=
  EEPROM.write env (deviceRegion port + portThermistorHealth) health w

/-! ### 起動の記録 -/

namespace BootLog

@[simp] def capacity : Nat := 8

/-- `bootLogs[device]` の番地。 -/
def address (device : Port) : Nat := 256 + device * 128 + portBootLog

def getStart (device : Port) : UInt8 := m (address device + 0)

def getCount (device : Port) : UInt8 := m (address device + 1)

def setStart (device : Port) (start : UInt8) (w : World) : World :=
  EEPROM.write env (address device + 0) start w

def setCount (device : Port) (count : UInt8) (w : World) : World :=
  EEPROM.write env (address device + 1) count w

def init (device : Port) (w : World) : World := w |> setStart env device 0 |> setCount env device 0

/-- 空きを含む `capacity` 個の場所のうち、`index` 番目の番地。 -/
def slot (device : Port) (index : Nat) : Nat := address device + 2 + 4 * index

def getEntry (device : Port) (i : UInt8) : UInt32 :=
  let start := getStart m device
  let count := getCount m device
  if count ≤ i then 0 else getWord m (slot device ((start.toNat + i.toNat) % capacity))

def addEntry (device : Port) (time : UInt32) (w : World) : World :=
  let start := getStart w.hw.eeprom device
  let count := getCount w.hw.eeprom device
  let index := (start.toNat + count.toNat) % capacity
  let w := EEPROM.put env (address device + 2 + 4 * index) 4 time.toNat w
  -- 空きがなければ、最も古い項目に上書きする
  if count.toNat = capacity then setStart env device (start + 1) w else setCount env device (count + 1) w

end BootLog

/-- `Record::init` の一つのポートの分。 -/
def initPort (i : Port) (w : World) : World :=
  w |> setBootAttempts env i 0
    |> setBootFailures env i 0
    |> setRelayState env i relayOff
    |> setPortCurrentSensorHealth env i 0
    |> setThermistorSensorHealth env i 0
    |> BootLog.init env i

def init (w : World) : World :=
  let w := w |> setBootCount env 0
    |> setLastBootTime env 0
    |> setHardwareVersion env ⟨3, 1⟩
    |> setFirmwareVersion env ⟨1, 0⟩
    |> setWireEnabled env true
  let w := (List.finRange 5).foldl (fun w i => initPort env i w) w
  w |> setDeviceEnabled env 0 true
    |> setDeviceEnabled env 1 true
    |> setDeviceEnabled env 2 true
    |> setDeviceEnabled env 3 false
    |> setDeviceEnabled env 4 false
    |> setBootloaderNodeController env 0
    |> EEPROM.put env magicAddr 4 magic

end Record

end Wagman.V4
