import Wagman.Timer
import Wagman.Lib.Machine
import Wagman.Lib.Bytes

/-!
# v3 の基板と、ファームウェアが持つデータ

v4 と違い、ポート 0 のリレーだけがラッチで、残りは `POWER_PINS` の値のまま動く。AVR では `int` と `unsigned int` は
2 バイトである。`Logger` の出力は、ほかの動作に影響しないので表さない。
-/

namespace Wagman.V3

/-! ## 定数と列挙 -/

/-- ポートの番号。`PORT_COUNT` と `DEVICE_COUNT` は 5 である。 -/
abbrev Port := Fin 5

/-- `Device.h` の `STATE_*`。 -/
inductive State
  | disabled
  | stopped
  | starting
  | started
  | stopping
  deriving DecidableEq, Repr

/-- `Wagman.h` の `MEDIA_SD` と `MEDIA_EMMC`。静的な初期値 0 は `MEDIA_SD` である。 -/
inductive Media
  | sd
  | emmc
  deriving DecidableEq, Repr

/-- `setBootMedia` が選択ピンに出す値。 -/
def Media.level : Media → Bool
  | .sd => false
  | .emmc => true

/-- `Device.h` の `CURRENT_*`。静的な初期値 0 は `CURRENT_NORMAL` である。 -/
inductive CurrentLevel
  | normal
  | stressed
  | low
  | high
  deriving DecidableEq, Repr

def relayOff : UInt8 := 0
def relayOn : UInt8 := 1
def relayTurningOn : UInt8 := 2
def relayTurningOff : UInt8 := 3

def errorInvalidAction : UInt8 := 1
def errorInvalidArgc : UInt8 := 2
def errorInvalidPort : UInt8 := 3

/-- `POWER_PINS` -/
def powerPin : Port → Nat
  | 0 => 4
  | 1 => 6
  | 2 => 8
  | 3 => 10
  | 4 => 12

def powerLatch0Pin : Nat := 0

/-- `BOOT_SELECTOR_PINS`。`A3` は 21 番である。 -/
def bootSelectorPin : Fin 2 → Nat
  | 0 => 1
  | 1 => 21

/-- `LED_PINS` -/
def ledPin : Fin 2 → Nat
  | 0 => 13
  | 1 => 9

/-! ## 装置の状態と事象 -/

/-- 基板の装置の状態。 -/
structure Hardware where
  eeprom : Nat → UInt8
  pin : Nat → Bool

/-- `DateTime` -/
structure DateTime where
  year : UInt16
  month : UInt8
  day : UInt8
  hour : UInt8
  minute : UInt8
  second : UInt8
  deriving DecidableEq, Repr

/-- `Serial` に書く項目。`float` は単精度の数のビット列である。 -/
inductive Out
  | text (s : String)
  | word (s : List UInt8)
  | num (n : Nat)
  | hex (n : Nat)
  | float (bits : UInt32)
  | newline
  deriving DecidableEq

/-- 実行中に起きる事象。`eeprom` と `pin` だけが装置の状態を変える。 -/
inductive Event
  /-- `EEPROM.write(addr, value)` -/
  | eeprom (addr : Nat) (value : UInt8)
  /-- `digitalWrite(pin, level)` -/
  | pin (pin : Nat) (level : Bool)
  /-- `Wagman::setRelay(port, on)` の呼び出し -/
  | relay (port : Port) (on : Bool)
  /-- `devices[port]` の `changeState(s)` -/
  | state (port : Port) (s : State)
  /-- `devices[port]` の `onHeartbeat()` -/
  | heartbeat (port : Port)
  /-- `devices[port]` の `enable()` -/
  | enable (port : Port)
  /-- `Serial.print` -/
  | print (out : Out)
  /-- 時計を合わせる -/
  | setDateTime (dt : DateTime)
  deriving DecidableEq

instance : Effect Hardware Event where
  apply
    | .eeprom a v, h => { h with eeprom := Bytes.store a v h.eeprom }
    | .pin k b, h => { h with pin := Function.update h.pin k b }
    | _, h => h

/-! ## 記憶 -/

/-- `Device`。`port` は `setupDevices` が添字と同じ値を入れて以後変わらないので、添字で表す。
既定値は静的な変数の初期値である。 -/
structure Device where
  bootSelector : Nat := 0
  primaryMedia : Media := .sd
  secondaryMedia : Media := .sd
  watchHeartbeat : Bool := false
  watchCurrent : Bool := false
  shouldForceBootMedia : Bool := false
  forceBootMedia : Media := .sd
  state : State := .disabled
  managed : Bool := false
  currentLevel : CurrentLevel := .normal
  currentLevelTimer : DurationTimer := {}
  stateTimer : DurationTimer := {}
  stopMessageTimer : DurationTimer := {}
  heartbeatTimer : DurationTimer := {}
  startDelay : UInt32 := 0
  stopTimeout : UInt32 := 0
  deriving DecidableEq, Repr

/-- 静的な変数。`halted` は、戻らない関数 `resetSystem` に入ったことを表す。 -/
structure Ram where
  devices : Port → Device := fun _ => {}
  bootflags : UInt8 := 0
  shouldResetSystem : Bool := false
  shouldResetTimeout : UInt32 := 0
  shouldResetTimer : DurationTimer := {}
  logging : Bool := true
  deviceWantsStart : UInt8 := 255
  startTimer : DurationTimer := {}
  statusTimer : DurationTimer := {}
  setupTime : UInt32 := 0
  heartbeatState : Port → Bool := fun _ => false
  heartbeatCounters : Port → UInt8 := fun _ => 0
  wireEnabled : Bool := true
  halted : Bool := false

/-- ファームウェアの外の世界。各関数の `Nat` の引数は、それまでに行った入出力の回数である。 -/
structure Env where
  latency : Nat → Nat
  current : Nat → Port → UInt16
  systemCurrent : Nat → UInt16
  thermistor : Nat → Port → UInt16
  clock : Nat → UInt32
  clockId : Nat → List UInt8
  dateTime : Nat → DateTime
  temperature : Nat → UInt32
  humidity : Nat → UInt32

/-- 基板とファームウェアの全体の状態。 -/
abbrev World := Machine Hardware Ram Event

abbrev Log := List (Entry Event)

end Wagman.V3
