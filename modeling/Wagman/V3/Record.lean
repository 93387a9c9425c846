import Wagman.V3.Basic

/-!
# 入出力と、EEPROM の記録（`Wagman.cpp`、`Record.cpp`）

読み出しは EEPROM の内容の関数、書き込みは全体の状態の関数である。`unsigned int` は 2 バイト、`unsigned long` と
`time_t` は 4 バイトである。`EEPROM.put` は変わらないバイトを書かないが、結果の内容は同じである。
-/

namespace Wagman.V3

variable (env : Env)

/-! ## 最小の操作 -/

def digitalWrite (k : Nat) (level : Bool) (w : World) : World := w.emit env.latency (.pin k level)

def delay (ms : Nat) (w : World) : World := w.elapse env.latency ms

/-- 値を読む入出力。かかる時間だけを表し、値は `Env` か EEPROM の内容から得る。 -/
def ioRead (w : World) : World := delay env 0 w

def print (out : Out) (w : World) : World := w.emit env.latency (.print out)

namespace EEPROM

def write (addr : Nat) (value : UInt8) (w : World) : World := w.emit env.latency (.eeprom addr value)

/-- `EEPROM.put`。下位のバイトから一バイトずつ書く。 -/
def put (addr size n : Nat) (w : World) : World := Bytes.put (write env) addr size n w

end EEPROM

/-! ## リレー、媒体の選択、LED -/

def setRelay (port : Port) (on : Bool) (w : World) : World :=
  let w := w.mark (.relay port on)
  if port = 0 then
    w |> digitalWrite env powerLatch0Pin false
      |> delay env 50
      |> digitalWrite env (powerPin port) on
      |> delay env 50
      |> digitalWrite env powerLatch0Pin true
      |> delay env 50
      |> digitalWrite env powerLatch0Pin false
      |> delay env 50
  else
    w |> digitalWrite env (powerPin port) on
      |> delay env 50

/-- `validBootSelector` を満たさない番号には何もしない。 -/
def setBootMedia (selector : Nat) (media : Media) (w : World) : World :=
  if h : selector < 2 then digitalWrite env (bootSelectorPin ⟨selector, h⟩) media.level w else w

def setLED (led : Fin 2) (on : Bool) (w : World) : World := digitalWrite env (ledPin led) on w

def getLED (led : Fin 2) (w : World) : Bool := w.hw.pin (ledPin led)

def toggleLED (led : Fin 2) (w : World) : World := setLED env led (!getLED led w) w

/-! ## 計測と時計 -/

/-- `Wagman::getCurrent(port)` -/
def getCurrent (port : Port) (w : World) : UInt16 :=
  if w.ram.wireEnabled then env.current w.io port else 0xffff

/-- `Wagman::getCurrent()` -/
def getSystemCurrent (w : World) : UInt16 := if w.ram.wireEnabled then env.systemCurrent w.io else 0xffff

def getThermistor (port : Port) (w : World) : UInt16 :=
  if w.ram.wireEnabled then env.thermistor w.io port else 0xffff

/-- 単精度の `NAN` -/
def nan : UInt32 := 0x7fc00000

def getTemperature (w : World) : UInt32 := if w.ram.wireEnabled then env.temperature w.io else nan

def getHumidity (w : World) : UInt32 := if w.ram.wireEnabled then env.humidity w.io else nan

def getTime (w : World) : UInt32 := if w.ram.wireEnabled then env.clock w.io else 0

def getDateTime (w : World) : DateTime :=
  if w.ram.wireEnabled then env.dateTime w.io else ⟨0, 0, 0, 0, 0, 0⟩

def setDateTime (dt : DateTime) (w : World) : World :=
  if w.ram.wireEnabled then w.emit env.latency (.setDateTime dt) else w

def getID (w : World) : List UInt8 :=
  if w.ram.wireEnabled then env.clockId w.io else List.replicate 8 0xff

/-! ## 記録 -/

namespace Record

@[simp] def magic : Nat := 0xADA1ADA1

@[simp] def magicAddr : Nat := 0
@[simp] def hardwareVersion : Nat := 4
@[simp] def firmwareVersion : Nat := 6
@[simp] def bootCount : Nat := 8
@[simp] def lastBootTime : Nat := 12
@[simp] def wireEnabled : Nat := 32
@[simp] def bootloaderNodeController : Nat := 0x40

@[simp] def portRegionsStart : Nat := 256
@[simp] def portRegionsSize : Nat := 128
@[simp] def portEnabled : Nat := 0
@[simp] def portBootAttempts : Nat := 7
@[simp] def portBootFailures : Nat := 11
@[simp] def portThermistorHealth : Nat := 15
@[simp] def portCurrentHealth : Nat := 20
@[simp] def portRelayJournal : Nat := 38
@[simp] def portBootLog : Nat := 64

def deviceRegion (device : Port) : Nat := portRegionsStart + device * portRegionsSize

/-- `Version` -/
structure Version where
  major : UInt8
  minor : UInt8

def putVersion (addr : Nat) (v : Version) (w : World) : World :=
  w |> EEPROM.write env addr v.major
    |> EEPROM.write env (addr + 1) v.minor

variable (m : Nat → UInt8)

def initialized : Bool := Bytes.get m magicAddr 4 == magic

def getWireEnabled : Bool := m wireEnabled != 0

def getBootloaderNodeController : UInt8 := m bootloaderNodeController

def getBootCount : UInt32 := UInt32.ofNat (Bytes.get m bootCount 4)

/-- ポート 0 は常に有効とみなす。 -/
def getDeviceEnabled (device : Port) : Bool :=
  if device = 0 then true else m (deviceRegion device + portEnabled) != 0

def getBootAttempts (device : Port) : UInt16 :=
  UInt16.ofNat (Bytes.get m (deviceRegion device + portBootAttempts) 2)

def getBootFailures (device : Port) : UInt16 :=
  UInt16.ofNat (Bytes.get m (deviceRegion device + portBootFailures) 2)

def getRelayState (port : Port) : UInt8 := m (deviceRegion port + portRelayJournal)

def getPortCurrentSensorHealth (port : Port) : UInt8 := m (deviceRegion port + portCurrentHealth)

def getThermistorSensorHealth (port : Port) : UInt8 := m (deviceRegion port + portThermistorHealth)

def clearMagic (w : World) : World := EEPROM.put env magicAddr 4 0 w

def setWireEnabled (enabled : Bool) (w : World) : World := EEPROM.write env wireEnabled enabled.toUInt8 w

def setBootloaderNodeController (mode : UInt8) (w : World) : World :=
  EEPROM.write env bootloaderNodeController (if 2 < mode then 1 else mode) w

def setHardwareVersion (v : Version) (w : World) : World := putVersion env hardwareVersion v w

def setFirmwareVersion (v : Version) (w : World) : World := putVersion env firmwareVersion v w

def setBootCount (count : UInt32) (w : World) : World := EEPROM.put env bootCount 4 count.toNat w

def incrementBootCount (w : World) : World := setBootCount env (getBootCount w.hw.eeprom + 1) w

def setLastBootTime (time : UInt32) (w : World) : World := EEPROM.put env lastBootTime 4 time.toNat w

def setDeviceEnabled (device : Port) (enabled : Bool) (w : World) : World :=
  EEPROM.write env (deviceRegion device + portEnabled) enabled.toUInt8 w

def setBootAttempts (device : Port) (attempts : UInt16) (w : World) : World :=
  EEPROM.put env (deviceRegion device + portBootAttempts) 2 attempts.toNat w

def incrementBootAttempts (device : Port) (w : World) : World :=
  setBootAttempts env device (getBootAttempts w.hw.eeprom device + 1) w

def setBootFailures (device : Port) (failures : UInt16) (w : World) : World :=
  EEPROM.put env (deviceRegion device + portBootFailures) 2 failures.toNat w

def incrementBootFailures (device : Port) (w : World) : World :=
  setBootFailures env device (getBootFailures w.hw.eeprom device + 1) w

def setRelayState (port : Port) (state : UInt8) (w : World) : World :=
  EEPROM.write env (deviceRegion port + portRelayJournal) state w

def setPortCurrentSensorHealth (port : Port) (health : UInt8) (w : World) : World :=
  EEPROM.write env (deviceRegion port + portCurrentHealth) health w

def setThermistorSensorHealth (port : Port) (health : UInt8) (w : World) : World :=
  EEPROM.write env (deviceRegion port + portThermistorHealth) health w

/-! ### 起動の記録 -/

namespace BootLog

@[simp] def capacity : Nat := 8

/-- `bootLogs[device]` の番地。 -/
def address (device : Port) : Nat := 256 + device * 128 + 64

def getStart (device : Port) : UInt8 := m (address device + 0)

def getCount (device : Port) : UInt8 := m (address device + 1)

def setStart (device : Port) (start : UInt8) (w : World) : World :=
  EEPROM.write env (address device + 0) start w

def setCount (device : Port) (count : UInt8) (w : World) : World :=
  EEPROM.write env (address device + 1) count w

def init (device : Port) (w : World) : World := w |> setStart env device 0 |> setCount env device 0

def getEntry (device : Port) (i : UInt8) : UInt32 :=
  let start := getStart m device
  let count := getCount m device
  if count ≤ i then 0
  else UInt32.ofNat (Bytes.get m (address device + 2 + 4 * ((start.toNat + i.toNat) % capacity)) 4)

def addEntry (device : Port) (time : UInt32) (w : World) : World :=
  let start := getStart w.hw.eeprom device
  let count := getCount w.hw.eeprom device
  let index := (start.toNat + count.toNat) % capacity
  let w := EEPROM.put env (address device + 2 + 4 * index) 4 time.toNat w
  -- 空きがなければ、最も古い項目に上書きする
  if count.toNat = capacity then setStart env device (start + 1) w else setCount env device (count + 1) w

end BootLog

/-- `Record::init` の一つのポートの分。 -/
def initPort (i : Port) (w : World) : World :=
  w |> setBootAttempts env i 0
    |> setBootFailures env i 0
    |> setRelayState env i relayOff
    |> setPortCurrentSensorHealth env i 0
    |> setThermistorSensorHealth env i 0
    |> BootLog.init env i

def init (w : World) : World :=
  let w := w |> setBootCount env 0
    |> setLastBootTime env 0
    |> setHardwareVersion env ⟨3, 1⟩
    |> setFirmwareVersion env ⟨1, 0⟩
    |> setWireEnabled env true
  let w := (List.finRange 5).foldl (fun w i => initPort env i w) w
  w |> setDeviceEnabled env 0 true
    |> setDeviceEnabled env 1 true
    |> setDeviceEnabled env 2 true
    |> setDeviceEnabled env 3 false
    |> setDeviceEnabled env 4 false
    |> setBootloaderNodeController env 0
    |> EEPROM.put env magicAddr 4 magic

end Record

end Wagman.V3
