import Wagman.Timer
import Wagman.Lib.Machine
import Wagman.Lib.Bytes

/-!
# v4 の基板と、常用ファームウェアが持つデータ

装置の状態は、EEPROM の内容、ピンの出力、各ポートのリレーのラッチからなる。電源を切っても残るのは
EEPROM とラッチである。`Ram` は静的な変数で、電源を入れ直すと初期値に戻る。
-/

namespace Wagman.V4

/-! ## 定数と列挙 -/

/-- ポートの番号。`PORT_COUNT` と `DEVICE_COUNT` は 5 である。 -/
abbrev Port := Fin 5

/-- `Device.h` の `STATE_*`。 -/
inductive State
  | disabled
  | stopped
  | started
  | stopping
  deriving DecidableEq, Repr

def State.code : State → UInt32
  | .disabled => 0
  | .stopped => 1
  | .started => 3
  | .stopping => 4

/-- `Wagman.h` の `MEDIA_SD` と `MEDIA_EMMC`。静的な初期値 0 は `MEDIA_SD` である。 -/
inductive Media
  | sd
  | emmc
  deriving DecidableEq, Repr

def Media.code : Media → UInt32
  | .sd => 0
  | .emmc => 1

/-- `setBootMedia` が選択ピンに出す値。 -/
def Media.level : Media → Bool
  | .sd => false
  | .emmc => true

/-- `Device.h` の `CURRENT_*`。静的な初期値 0 は `CURRENT_NORMAL` である。 -/
inductive CurrentLevel
  | normal
  | stressed
  | low
  | high
  deriving DecidableEq, Repr

def relayOff : UInt8 := 0
def relayOn : UInt8 := 1
def relayTurningOn : UInt8 := 2
def relayTurningOff : UInt8 := 3

/-- `Error.h` の `ERROR_INVALID_ACTION`。 -/
def errorInvalidAction : UInt8 := 1

/-- `relayConfigs[port].clk` -/
def relayClk : Port → Nat
  | 0 => 33
  | 1 => 35
  | 2 => 37
  | 3 => 39
  | 4 => 45

/-- `relayConfigs[port].d` -/
def relayD : Port → Nat
  | 0 => 34
  | 1 => 36
  | 2 => 38
  | 3 => 40
  | 4 => 46

/-- `BOOT_SELECTOR_PINS` -/
def bootSelectorPin : Fin 2 → Nat
  | 0 => 41
  | 1 => 47

/-- `LED_PINS` -/
def ledPins : List Nat := [12, 11, 2, 3, 5, 6, 7, 8, 9]

def ncAutoDisable : Nat := 48
def mr1 : Nat := 30
def mr2 : Nat := 32

/-! ## 装置の状態と事象 -/

/-- 基板の装置の状態。`latch` はリレーの D ラッチの出力である。 -/
structure Hardware where
  eeprom : Nat → UInt8
  pin : Nat → Bool
  latch : Port → Bool

/-- 実行中に起きる事象。`eeprom` と `pin` は電源が途中で切れうる最小の書き込みで、残りは関数の呼び出しや
応答の記録であって装置の状態を変えない。 -/
inductive Event
  /-- `EEPROM.write(addr, value)` -/
  | eeprom (addr : Nat) (value : UInt8)
  /-- `digitalWrite(pin, level)` -/
  | pin (pin : Nat) (level : Bool)
  /-- `Wagman::setRelay(port, mode)` の呼び出し -/
  | relay (port : Port) (mode : Bool)
  /-- `devices[port]` の `changeState(s)` -/
  | state (port : Port) (s : State)
  /-- `devices[port]` の `onHeartbeat()` -/
  | heartbeat (port : Port)
  /-- `devices[port]` の `setNextBootMedia(m)` -/
  | media (port : Port) (m : Media)
  /-- `devices[port]` の `start()` が受け付けられ、媒体 `m` を選んだ -/
  | start (port : Port) (m : Media)
  /-- `startNextDevice` が `devices[port]` の `start()` を呼んだ。`requested` は要求による呼び出しかどうかである -/
  | next (port : Port) (requested : Bool)
  /-- `devices[port]` の `kill()` が最後まで進んだ -/
  | killed (port : Port)
  /-- `basicResp` による応答。`none` は配列の外を読んだ値である -/
  | resp (id : Nat) (subId : Int) (value : Option UInt32)
  /-- バイト列の応答 -/
  | respBytes (id : Nat) (subId : Int) (value : List UInt8)
  deriving DecidableEq

namespace Hardware

def write (addr : Nat) (value : UInt8) (h : Hardware) : Hardware :=
  { h with eeprom := Bytes.store addr value h.eeprom }

/-- ピンに出力する。`clk` の立ち上がりで、ラッチは `d` の値を取り込む。 -/
def digitalWrite (k : Nat) (level : Bool) (h : Hardware) : Hardware :=
  { h with
    pin := Function.update h.pin k level
    latch := fun p =>
      if k = relayClk p ∧ h.pin k = false ∧ level = true then h.pin (relayD p) else h.latch p }

end Hardware

instance : Effect Hardware Event where
  apply
    | .eeprom a v, h => h.write a v
    | .pin k b, h => h.digitalWrite k b
    | _, h => h

/-! ## 記憶 -/

/-- `Device`。`port` は `setupDevices` が添字と同じ値を入れて以後変わらないので、添字で表す。
既定値は静的な変数の初期値である。 -/
structure Device where
  bootSelector : Nat := 0
  primaryMedia : Media := .sd
  secondaryMedia : Media := .sd
  watchHeartbeat : Bool := false
  watchCurrent : Bool := false
  shouldForceBootMedia : Bool := false
  forceBootMedia : Media := .sd
  state : State := .disabled
  managed : Bool := false
  currentLevel : CurrentLevel := .normal
  currentLevelTimer : DurationTimer := {}
  stateTimer : DurationTimer := {}
  stopMessageTimer : DurationTimer := {}
  heartbeatTimer : DurationTimer := {}
  startDelay : UInt32 := 0
  stopTimeout : UInt32 := 0
  deriving DecidableEq, Repr

/-- 静的な変数。`halted` は、戻らない関数（`resetSystem`、`doResetAll`）に入ったことを表す。 -/
structure Ram where
  devices : Port → Device := fun _ => {}
  deviceWantsStart : UInt8 := 255
  startTimer : DurationTimer := {}
  statusTimer : DurationTimer := {}
  shouldResetSystem : Bool := false
  shouldResetTimeout : UInt32 := 0
  shouldResetTimer : DurationTimer := {}
  shouldResetAll : Bool := false
  heartbeatCounters : Port → UInt32 := fun _ => 0
  detectHB : Port → Bool := fun _ => false
  lastHBPinState : Port → Bool := fun _ => false
  wireEnabled : Bool := true
  halted : Bool := false

/-- ファームウェアの外の世界。各関数の `Nat` の引数は、それまでに行った入出力の回数である。 -/
structure Env where
  latency : Nat → Nat
  current : Nat → Port → UInt32
  systemCurrent : Nat → UInt32
  voltage : Nat → Port → UInt32
  thermistor : Nat → Port → UInt32
  clock : Nat → UInt32
  clockId : List UInt8
  temperature : Nat → Option UInt32
  humidity : Nat → Option UInt32

/-- 基板とファームウェアの全体の状態。 -/
abbrev World := Machine Hardware Ram Event

abbrev Log := List (Entry Event)

end Wagman.V4
