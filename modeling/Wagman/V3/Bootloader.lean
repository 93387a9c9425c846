import Wagman.V3.Record
import Wagman.Lib.Run

/-!
# v3 のブートローダー（`Caterina.c`、`Caterina.h`）

`PORTD` の第 2 ビットはリレーのラッチ、第 3 ビットは媒体の選択、第 4 ビットはリレーの値、第 5 ビットは送信の LED である。一つのビットの
書き込みは `sbi` と `cbi` の一命令、全体の書き込みは `out` の一命令に翻訳されるので、文の間にだけ割り込みが入る。USB のライブラリは
`PORTD` に書かないとする。`MCUSR`、ウォッチドッグ、時計の設定と、フラッシュの内容は、`PORTD` に影響しないので表さない。
-/

namespace Wagman.V3.Caterina

/-! ## 命令と状態 -/

/-- 入出力のレジスター。 -/
inductive Reg
  | ddrB
  | ddrC
  | ddrD
  | portB
  | portC
  | portD
  deriving DecidableEq, Repr

/-- 一つの文。`bootSetting`、`loop`、`cdcTask` は、これから実行する文の並びに変わる。 -/
inductive Instr
  | out (r : Reg) (v : BitVec 8)
  | sbi (r : Reg) (b : Nat)
  | cbi (r : Reg) (b : Nat)
  /-- `eeprom_write_byte` -/
  | eepromWriteByte (addr : Nat) (v : UInt8)
  | sei
  | cli
  /-- `TIMSK1` への書き込み。タイマーの割り込みを許すかどうかである。 -/
  | timsk1 (on : Bool)
  | txLEDPulse (v : UInt16)
  | rxLEDPulse (v : UInt16)
  | timeout (v : UInt16)
  /-- `boot_setting_nc` を読んで、値に応じて `NC` を起動する。 -/
  | bootSetting
  /-- `while (RunBootloader)` -/
  | loop
  /-- `CDC_Task` -/
  | cdcTask
  /-- `if (Timeout > TIMEOUT_PERIOD) RunBootloader = false;` -/
  | checkTimeout
  /-- `LEDPulse` -/
  | ledPulse
  /-- 待つだけの文と、`PORTD` に書かないライブラリの呼び出し。 -/
  | nop
  deriving DecidableEq, Repr

/-- マイクロコントローラーの状態。`trace` は `PORTD` の値の列で、新しいものが先頭である。 -/
structure State where
  reg : Reg → BitVec 8
  eeprom : Nat → UInt8
  interrupts : Bool
  timsk1 : Bool
  txLEDPulse : UInt16
  rxLEDPulse : UInt16
  lledPulse : UInt16
  timeout : UInt16
  runBootloader : Bool
  /-- これから実行する文。空になると、アプリケーションに移っている。 -/
  code : List Instr
  trace : List (BitVec 8)

/-- ホストから届いた命令。 -/
structure Packet where
  command : UInt8
  /-- `FetchNextCommandByte` が順に返す値 -/
  fetched : Nat → UInt8
  /-- `WriteNextResponseByte` が順に応答を書くか。USB が切れていれば書かない。 -/
  sent : Nat → Bool
  /-- EEPROM に書く番地 -/
  address : Nat → Nat

/-! ## プログラム -/

section Program

-- `DEVICE_PID`
variable (pid : Nat)

/-- LED の極性は、`DEVICE_PID` が 0x0037 のときだけ逆である。 -/
def led (r : Reg) (b : Nat) (on : Bool) : Instr := if on = decide (pid = 0x37) then .sbi r b else .cbi r b

def lLED (on : Bool) : Instr := if on then .sbi .portC 7 else .cbi .portC 7

def txLED (on : Bool) : Instr := led pid .portD 5 on

def rxLED (on : Bool) : Instr := led pid .portB 0 on

def ncLatch (on : Bool) : Instr := if on then .sbi .portD 2 else .cbi .portD 2

def ncPowOn : Instr := .sbi .portD 4

def ncEMMC : Instr := .sbi .portD 3

def ncUSD : Instr := .cbi .portD 3

def ncBootPinsSetup : List Instr := [.sbi .ddrD 3, .sbi .ddrD 4, .sbi .ddrD 2]

/-- `TX_RX_LED_PULSE_PERIOD` -/
def ledPulsePeriod : UInt16 := 100

/-- `TIMEOUT_PERIOD` -/
def timeoutPeriod : UInt16 := 8000

/-- `StartSketch`。終わりにアプリケーションに移る。 -/
def startSketch : List Instr :=
  [.cli, .out .portD 0x00, .timsk1 false, .nop, lLED false, txLED pid false, rxLED pid false]

/-- `TURN_ON_NC` -/
def turnOnNC : List Instr := [ncLatch false, ncPowOn, .nop, ncLatch true, .nop, ncLatch false]

/-- `boot_setting_nc` の値に応じて行うこと。 -/
def bootNC (setting : UInt8) : List Instr :=
  if setting = 0x01 then ncBootPinsSetup ++ [ncUSD, .nop] ++ turnOnNC
  else if setting = 0x02 then ncBootPinsSetup ++ [ncEMMC, .nop] ++ turnOnNC
  else []

/-- `SetupHardware` -/
def setupHardware : List Instr :=
  [.nop, .sbi .ddrC 7, .sbi .ddrB 0, .sbi .ddrD 5, lLED false, txLED pid false, rxLED pid false, .timsk1 true, .nop]

/-- 繰り返しの本体。 -/
def loopBody : List Instr := [ncEMMC, .out .portD 0x10, .cdcTask, .nop, .checkTimeout, .ledPulse]

/-- `main`。`mcusr` は再起動の原因である。 -/
def main (mcusr : UInt8) : List Instr :=
  [.out .ddrD 0xff, .nop, .eepromWriteByte 0x41 mcusr] ++ setupHardware pid ++
    [.bootSetting, .nop, .sei, .timeout 0, .loop]

/-! ## USB からの命令 -/

/-- `WriteNextResponseByte` を `n` 回行う。 -/
def respond (p : Packet) (n : Nat) : List Instr :=
  (List.range n).flatMap fun k => if p.sent k then [txLED pid true, .txLEDPulse ledPulsePeriod] else []

/-- `ReadWriteMemoryBlock` -/
def readWriteMemoryBlock (p : Packet) : List Instr :=
  let blockSize := (p.fetched 0).toNat * 256 + (p.fetched 1).toNat
  let memoryType := p.fetched 2
  if memoryType ≠ 0x45 ∧ memoryType ≠ 0x46 then respond pid p 1
  else
    let body :=
      if p.command = 0x67 then respond pid p blockSize
      else if memoryType = 0x45 then
        (List.range blockSize).map (fun k => .eepromWriteByte (p.address k) (p.fetched (3 + k))) ++ respond pid p 1
      else respond pid p 1
    [.timsk1 false] ++ body ++ [.timsk1 true]

/-- `CDC_Task` の命令の処理。ほかの命令と未知の命令は、一文字を返す。 -/
def command (p : Packet) : List Instr :=
  if p.command = 0x45 then [.timeout (timeoutPeriod - 500)] ++ respond pid p 1
  else if p.command = 0x74 ∨ p.command = 0x56 ∨ p.command = 0x52 then respond pid p 2
  else if p.command = 0x53 then respond pid p 7
  else if p.command = 0x73 ∨ p.command = 0x62 then respond pid p 3
  else if p.command = 0x42 ∨ p.command = 0x67 then [.timeout 0] ++ readWriteMemoryBlock pid p
  else if p.command = 0x44 then [.eepromWriteByte (p.address 0) (p.fetched 0)] ++ respond pid p 1
  else if p.command = 27 then []
  else respond pid p 1

/-- `CDC_Task`。命令が届いていなければ何もしない。 -/
def cdcTask : Option Packet → List Instr
  | none => []
  | some p => [rxLED pid true, .rxLEDPulse ledPulsePeriod] ++ command pid p

end Program

/-! ## 実行 -/

def State.setReg (r : Reg) (v : BitVec 8) (s : State) : State :=
  { s with reg := Function.update s.reg r v, trace := if r = .portD then v :: s.trace else s.trace }

def setBit (b : Nat) (v : BitVec 8) : BitVec 8 := v ||| BitVec.twoPow 8 b

def clearBit (b : Nat) (v : BitVec 8) : BitVec 8 := v &&& ~~~BitVec.twoPow 8 b

/-- `LEDPulse` が `L_LED` を点けるか。 -/
def lledOn (n : UInt16) : Bool :=
  let p := (n >>> 8).toUInt8
  let p := if p > 127 then 254 - p else p
  let p := p + p
  decide (n.toUInt8 ≤ p)

/-- 文 `i` を実行する。`usb` は `CDC_Task` が受け取る命令である。 -/
def exec (pid : Nat) (usb : Option Packet) (i : Instr) (s : State) : State :=
  match i with
  | .out r v => s.setReg r v
  | .sbi r b => s.setReg r (setBit b (s.reg r))
  | .cbi r b => s.setReg r (clearBit b (s.reg r))
  | .eepromWriteByte addr v => { s with eeprom := Function.update s.eeprom addr v }
  | .sei => { s with interrupts := true }
  | .cli => { s with interrupts := false }
  | .timsk1 on => { s with timsk1 := on }
  | .txLEDPulse v => { s with txLEDPulse := v }
  | .rxLEDPulse v => { s with rxLEDPulse := v }
  | .timeout v => { s with timeout := v }
  | .bootSetting => { s with code := bootNC (s.eeprom 0x40) ++ s.code }
  | .loop =>
      { s with code := (if s.runBootloader then loopBody ++ [.loop] else .nop :: startSketch pid) ++ s.code }
  | .cdcTask => { s with code := cdcTask pid usb ++ s.code }
  | .checkTimeout => { s with runBootloader := s.runBootloader && !decide (s.timeout > timeoutPeriod) }
  | .ledPulse =>
      let n := s.lledPulse + 1
      let v := s.reg .portC
      { s with lledPulse := n }.setReg .portC (if lledOn n then setBit 7 v else clearBit 7 v)
  | .nop => s

/-- 点灯の残りの時間を減らし、0 になれば `off` を実行する。 -/
def expire (pid : Nat) (pulse : UInt16) (off : Instr) (s : State) : State :=
  if pulse = 1 then exec pid none off s else s

/-- `ISR(TIMER1_COMPA_vect)`。`programmed` は、フラッシュにアプリケーションがあるかどうかである。 -/
def isr (pid : Nat) (programmed : Bool) (s : State) : State :=
  let tx := s.txLEDPulse
  let rx := s.rxLEDPulse
  let s := expire pid tx (txLED pid false) { s with txLEDPulse := tx - if tx = 0 then 0 else 1 }
  let s := expire pid rx (rxLED pid false) { s with rxLEDPulse := rx - if rx = 0 then 0 else 1 }
  if programmed then { s with timeout := s.timeout + 1 } else s

/-- 一歩。主プログラムの文か、タイマーの割り込みである。 -/
inductive Op
  | main (usb : Option Packet)
  | timer (programmed : Bool)

/-- 文が残っていなければ進めない。割り込みは、許されているときにだけ入る。 -/
def step (pid : Nat) (o : Op) (s : State) : Option State :=
  match o with
  | .main usb =>
      match s.code with
      | [] => none
      | i :: rest => some (exec pid usb i { s with code := rest })
  | .timer programmed => if s.interrupts && s.timsk1 then some (isr pid programmed s) else none

/-- リセットの直後。レジスターは 0 である。 -/
def reset (pid : Nat) (eeprom : Nat → UInt8) (mcusr : UInt8) : State where
  reg := fun _ => 0
  eeprom := eeprom
  interrupts := false
  timsk1 := false
  txLEDPulse := 0
  rxLEDPulse := 0
  lledPulse := 0
  timeout := 0
  runBootloader := true
  code := main pid mcusr
  trace := [0]

end Wagman.V3.Caterina
