import Wagman.Lib.Machine

/-!
# v2 の基板と、ファームウェアが持つデータ

SysMon は、ノードコントローラー、スイッチ、三つのゲストノードの電源を、それぞれのリレーで入れたり切ったりする。
`EEMEM` の変数は、番地を定めずに名前で区別する。状態の報告の内容とデバッグの出力は、`boot_NC` のものを除いて、
ほかの動作に影響しないので表さない。
-/

namespace Wagman.V2

/-! ## 機器と EEPROM -/

/-- ゲストノードの番号から 1 を引いたもの。 -/
abbrev GN := Fin 3

instance (priority := 2000) neZeroGN : NeZero 3 := ⟨nofun⟩

/-- リレーを持つ機器。 -/
inductive Device
  | nc
  | switch
  | gn (g : GN)
  deriving DecidableEq, Repr

/-- `uint8_t` の `EEMEM` の変数。 -/
inductive ByteCell
  | statusReportPeriod
  | maxNumSOSBootAttempts
  | maxNumSubsystemBootAttempts
  | maxNumPrimaryBootAttempts
  | presentSwitch
  | bootTimeSwitch
  | presentGN (g : GN)
  | heartbeatTimeoutNC
  | heartbeatTimeoutSwitch
  | heartbeatTimeoutGN (g : GN)
  | environTimeoutSysMon
  | environTimeoutNC
  | tempProcessorTimeoutNC
  | tempTimeoutSwitch
  | tempTimeoutGN (g : GN)
  | powerTimeoutSysMon
  | powerTimeoutNC
  | powerTimeoutSwitch
  | powerTimeoutGN (g : GN)
  | humidityMinSysMon
  | humidityMaxSysMon
  | humidityMinNC
  | humidityMaxNC
  | ncEnabled
  | switchEnabled
  | gnEnabled (g : GN)
  | postResult
  | timerTestIncomplete
  | numSOSBootAttempts
  | numPrimaryBootAttempts
  | firstBoot
  deriving DecidableEq, Repr

/-- `uint16_t` の `EEMEM` の変数。 -/
inductive WordCell
  | usartRxBufferSize
  | deviceRebootPeriod
  | bootTimeNC
  | configTimeNC
  | bootTimeGN (g : GN)
  | tempMinSysMon
  | tempMaxSysMon
  | tempMinNC
  | tempMaxNC
  | tempMinProcessorNC
  | tempMaxProcessorNC
  | tempMinSwitch
  | tempMaxSwitch
  | tempMinGN (g : GN)
  | tempMaxGN (g : GN)
  | milliampMaxSysMon
  | milliampMaxNC
  | milliampMaxSwitch
  | milliampMaxGN (g : GN)
  deriving DecidableEq, Repr

structure Eeprom where
  byte : ByteCell → UInt8
  word : WordCell → UInt16
  usartBaud : UInt32

/-- 基板の装置の状態。`relay` はリレーのピンの値である。 -/
structure Hardware where
  eeprom : Eeprom
  relay : Device → Bool

/-! ## 監視する項目 -/

/-- 監視の対象。 -/
inductive Subject
  | sysMon
  | device (d : Device)
  deriving DecidableEq, Repr

/-- `loop` が評価する検査。 -/
inductive Check
  | environSysMon
  | powerSysMon
  | environNC
  | tempNC
  | powerNC
  | heartbeatNC
  | tempSwitch
  | powerSwitch
  | tempGN (g : GN)
  | powerGN (g : GN)
  | heartbeatGN (g : GN)
  deriving DecidableEq, Repr

/-- 検査の対象。 -/
def Check.subject : Check → Subject
  | .environSysMon | .powerSysMon => .sysMon
  | .environNC | .tempNC | .powerNC | .heartbeatNC => .device .nc
  | .tempSwitch | .powerSwitch => .device .switch
  | .tempGN g | .powerGN g | .heartbeatGN g => .device (.gn g)

/-- 対処が必要になる、続けて失敗した回数の変数。 -/
def Check.timeout : Check → ByteCell
  | .environSysMon => .environTimeoutSysMon
  | .powerSysMon => .powerTimeoutSysMon
  | .environNC => .environTimeoutNC
  | .tempNC => .tempProcessorTimeoutNC
  | .powerNC => .powerTimeoutNC
  | .heartbeatNC => .heartbeatTimeoutNC
  | .tempSwitch => .tempTimeoutSwitch
  | .powerSwitch => .powerTimeoutSwitch
  | .tempGN g => .tempTimeoutGN g
  | .powerGN g => .powerTimeoutGN g
  | .heartbeatGN g => .heartbeatTimeoutGN g

/-- `PROBLEM_*`。`NC` への報告の文字列。 -/
def Check.problem : Check → String
  | .environSysMon => "SM,e"
  | .powerSysMon => "SM,p"
  | .environNC => "NC,e"
  | .tempNC => "NC,t"
  | .powerNC => "NC,p"
  | .heartbeatNC => "NC,h"
  | .tempSwitch => "SW,t"
  | .powerSwitch => "SW,p"
  | .tempGN 0 => "GN1,t"
  | .tempGN 1 => "GN2,t"
  | .tempGN 2 => "GN3,t"
  | .powerGN 0 => "GN1,p"
  | .powerGN 1 => "GN2,p"
  | .powerGN 2 => "GN3,p"
  | .heartbeatGN 0 => "GN1,h"
  | .heartbeatGN 1 => "GN2,h"
  | .heartbeatGN 2 => "GN3,h"

/-! ## 事象と記憶 -/

/-- 実行中に起きる事象。`relay` と EEPROM への書き込みだけが装置の状態を変える。 -/
inductive Event
  /-- リレーのピンへの `digitalWrite` -/
  | relay (d : Device) (on : Bool)
  /-- `eeprom_update_byte` -/
  | byte (c : ByteCell) (v : UInt8)
  /-- `eeprom_update_word` -/
  | word (c : WordCell) (v : UInt16)
  /-- `eeprom_update_dword(&E_USART_BAUD, v)` -/
  | usartBaud (v : UInt32)
  /-- `check_heartbeat_odroid` の結果 -/
  | heartbeat (d : Device) (ok : Bool)
  /-- `loop` が検査 `c` を評価した結果 -/
  | evaluated (c : Check) (ok : Bool)
  /-- 検査 `c` の失敗のための対処 -/
  | reaction (c : Check)
  /-- `send_problem` -/
  | problem (text : String)
  /-- `Serial.println` -/
  | print (text : String)
  /-- `RTC.set` -/
  | setTime (t : UInt32)
  deriving DecidableEq

instance : Effect Hardware Event where
  apply
    | .relay d on, h => { h with relay := Function.update h.relay d on }
    | .byte c v, h => { h with eeprom.byte := Function.update h.eeprom.byte c v }
    | .word c v, h => { h with eeprom.word := Function.update h.eeprom.word c v }
    | .usartBaud v, h => { h with eeprom.usartBaud := v }
    | _, h => h

/-- ファームウェアの段階。`soft_restart` と `sleep_SysMon` は戻らない。`hung` は、終わらない繰り返しである。 -/
inductive Stage
  | running
  | restarting
  | asleep
  | hung
  deriving DecidableEq, Repr

/-- 静的な変数と、ファームウェアの段階。 -/
structure Ram where
  timer1Cycle : Bool := false
  running : Device → Bool := fun _ => false
  countStatusReport : UInt8 := 0
  countTimeUpdateRequest : UInt32 := 0
  countTimeout : Check → UInt8 := fun _ => 0
  countDeviceReboot : UInt16 := 0
  stage : Stage := .running

/-- ファームウェアの外の世界。各関数の `Nat` の引数は、それまでに行った入出力の回数である。 -/
structure Env where
  latency : Nat → Nat
  /-- 気温を `int` にした値 -/
  temperature : Nat → Int16
  /-- 湿度を `byte` にした値 -/
  humidity : Nat → UInt8
  /-- 電流計の三つのバイト。応答がなければ `none` である -/
  current : Nat → Subject → Option (UInt8 × UInt8 × UInt8)
  /-- サーミスターの値 -/
  thermistor : Nat → Device → UInt16
  /-- 心拍のピンの値 -/
  heartbeat : Nat → Device → Bool
  /-- `Serial.readStringUntil(NC_TERMINATOR)` -/
  received : Nat → List UInt8
  /-- 届いている一文字 -/
  incoming : Nat → Option UInt8

/-- 基板とファームウェアの全体の状態。 -/
abbrev World := Machine Hardware Ram Event

abbrev Log := List (Entry Event)

/-! ## 最小の操作 -/

section Primitive

variable (env : Env)

def digitalWrite (d : Device) (on : Bool) (w : World) : World := w.emit env.latency (.relay d on)

def delay (ms : Nat) (w : World) : World := w.elapse env.latency ms

/-- 値を読む入出力。かかる時間だけを表し、値は `Env` から得る。 -/
def ioRead (w : World) : World := delay env 0 w

def println (text : String) (w : World) : World := w.mark (.print text)

def updateByte (c : ByteCell) (v : UInt8) (w : World) : World := w.emit env.latency (.byte c v)

def updateWord (c : WordCell) (v : UInt16) (w : World) : World := w.emit env.latency (.word c v)

def setRunning (d : Device) (b : Bool) (w : World) : World :=
  w.setRam { w.ram with running := Function.update w.ram.running d b }

def enterStage (s : Stage) (w : World) : World := w.setRam { w.ram with stage := s }

end Primitive

/-- EEPROM の一バイトの変数を読む。 -/
def readByte (c : ByteCell) (w : World) : UInt8 := w.hw.eeprom.byte c

def readWord (c : WordCell) (w : World) : UInt16 := w.hw.eeprom.word c

end Wagman.V2
