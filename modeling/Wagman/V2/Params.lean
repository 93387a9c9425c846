import Wagman.V2.Basic
import Wagman.Chars

/-!
# NC から受け取る設定と、最初の設定（`boot_primary.ino`）

設定は `,` で区切った十進法の数の並びで届く。どの数も、次の `,` まで一文字ずつ読む。文字列の終わりより先の文字は 0 なので、
`,` がなければ読み終わらない。すべて読んでから EEPROM に書く。
-/

namespace Wagman.V2

variable (env : Env)

def delimiter : UInt8 := 0x2c

/-- `String::toInt`。`long` は 32 ビットで、桁あふれは調べない。 -/
def toInt (s : List UInt8) : Int :=
  let n : Int := match s.dropWhile isspace with
    | 0x2d :: s => -digits s
    | 0x2b :: s => digits s
    | s => digits s
  Int.bmod n (2 ^ 32)

/-- 次の `,` までの文字と、その後の文字。`,` がなければ読み終わらない。 -/
def scanField (s : List UInt8) : Option (List UInt8 × List UInt8) :=
  if delimiter ∈ s then some (s.takeWhile (· ≠ delimiter), (s.dropWhile (· ≠ delimiter)).drop 1) else none

/-- `n` 個の数を順に読む。 -/
def scanFields : Nat → List UInt8 → Option (List (List UInt8))
  | 0, _ => some []
  | n + 1, s => do
      let (field, rest) ← scanField s
      let fields ← scanFields n rest
      return field :: fields

/-- 設定を書く変数。 -/
inductive Cell
  | byte (c : ByteCell)
  | word (c : WordCell)
  | usartBaud
  deriving DecidableEq

/-- 読んだ文字を数にして、変数の幅で書く。 -/
def Cell.update (field : List UInt8) : Cell → World → World
  | .byte c, w => updateByte env c (toByte (toInt field)) w
  | .word c, w => updateWord env c (toWord (toInt field)) w
  | .usartBaud, w => w.emit env.latency (.usartBaud (toLong (toInt field)))

/-- 受け取った文字列が空でなければ、`cells` の数だけ読んで、順に書く。 -/
def receiveParams (cells : List Cell) (request : String) (w : World) : World :=
  let w := println request w
  let received := env.received w.io
  let w := ioRead env w
  if received = [] then w
  else
    match scanFields cells.length received with
    | some fields => (fields.zip cells).foldl (fun w p => p.2.update env p.1 w) w
    | none => enterStage .hung w

/-- `get_params_core` が読む変数。注釈にある順である。 -/
def coreCells : List Cell :=
  [.usartBaud, .word .usartRxBufferSize, .byte .statusReportPeriod, .byte .maxNumSOSBootAttempts,
    .byte .maxNumSubsystemBootAttempts, .byte .maxNumPrimaryBootAttempts, .word .deviceRebootPeriod,
    .byte .presentSwitch, .word .bootTimeNC, .word .configTimeNC, .byte .bootTimeSwitch,
    .byte .heartbeatTimeoutNC, .byte .heartbeatTimeoutSwitch, .byte .environTimeoutSysMon,
    .byte .environTimeoutNC, .byte .tempProcessorTimeoutNC, .byte .tempTimeoutSwitch,
    .byte .powerTimeoutSysMon, .byte .powerTimeoutNC, .byte .powerTimeoutSwitch,
    .word .tempMinSysMon, .word .tempMaxSysMon, .word .tempMinNC, .word .tempMaxNC,
    .word .tempMinProcessorNC, .word .tempMaxProcessorNC, .word .tempMinSwitch, .word .tempMaxSwitch,
    .byte .humidityMinSysMon, .byte .humidityMaxSysMon, .byte .humidityMinNC, .byte .humidityMaxNC,
    .word .milliampMaxSysMon, .word .milliampMaxNC, .word .milliampMaxSwitch]

/-- `get_params_GNs` が読む変数。注釈にある順である。 -/
def gnCells : List Cell :=
  [.byte (.presentGN 0), .byte (.presentGN 1), .byte (.presentGN 2),
    .word (.bootTimeGN 0), .word (.bootTimeGN 1), .word (.bootTimeGN 2),
    .byte (.heartbeatTimeoutGN 0), .byte (.heartbeatTimeoutGN 1), .byte (.heartbeatTimeoutGN 2),
    .byte (.tempTimeoutGN 0), .byte (.tempTimeoutGN 1), .byte (.tempTimeoutGN 2),
    .byte (.powerTimeoutGN 0), .byte (.powerTimeoutGN 1), .byte (.powerTimeoutGN 2),
    .word (.tempMinGN 0), .word (.tempMaxGN 0), .word (.tempMinGN 1), .word (.tempMaxGN 1),
    .word (.tempMinGN 2), .word (.tempMaxGN 2),
    .word (.milliampMaxGN 0), .word (.milliampMaxGN 1), .word (.milliampMaxGN 2)]

def getParamsCore (w : World) : World := receiveParams env coreCells "$" w

def getParamsGNs (w : World) : World := receiveParams env gnCells "^" w

def getTimeNC (w : World) : World :=
  let w := println "*" w
  let received := env.received w.io
  let w := ioRead env w
  if received = [] then w else w.emit env.latency (.setTime (toLong (toInt received)))

/-- `set_default_eeprom` が書く値。 -/
def defaults : List (Cell × Nat) :=
  [(.usartBaud, 57600), (.word .usartRxBufferSize, 200), (.byte .statusReportPeriod, 30),
    (.byte .maxNumSOSBootAttempts, 5), (.byte .maxNumSubsystemBootAttempts, 5),
    (.byte .maxNumPrimaryBootAttempts, 5), (.word .deviceRebootPeriod, 60), (.byte .presentSwitch, 0),
    (.word .bootTimeNC, 40), (.word .configTimeNC, 180), (.byte .bootTimeSwitch, 15),
    (.word (.bootTimeGN 0), 10), (.word (.bootTimeGN 1), 10), (.word (.bootTimeGN 2), 10),
    (.byte (.presentGN 0), 0), (.byte (.presentGN 1), 0), (.byte (.presentGN 2), 0),
    (.byte .heartbeatTimeoutNC, 5), (.byte .heartbeatTimeoutSwitch, 5), (.byte (.heartbeatTimeoutGN 0), 5),
    (.byte (.heartbeatTimeoutGN 1), 5), (.byte (.heartbeatTimeoutGN 2), 5),
    (.byte .environTimeoutSysMon, 5), (.byte .environTimeoutNC, 5), (.byte .tempProcessorTimeoutNC, 5),
    (.byte .tempTimeoutSwitch, 5), (.byte (.tempTimeoutGN 0), 5), (.byte (.tempTimeoutGN 1), 5),
    (.byte (.tempTimeoutGN 2), 5), (.byte .powerTimeoutSysMon, 5), (.byte .powerTimeoutNC, 5),
    (.byte .powerTimeoutSwitch, 5), (.byte (.powerTimeoutGN 0), 5), (.byte (.powerTimeoutGN 1), 5),
    (.byte (.powerTimeoutGN 2), 5), (.word .tempMinSysMon, 0), (.word .tempMaxSysMon, 100),
    (.word .tempMinNC, 0), (.word .tempMaxNC, 100), (.word .tempMinProcessorNC, 115),
    (.word .tempMaxProcessorNC, 969), (.word .tempMinSwitch, 417), (.word .tempMaxSwitch, 969),
    (.word (.tempMinGN 0), 417), (.word (.tempMaxGN 0), 969), (.word (.tempMinGN 1), 417),
    (.word (.tempMaxGN 1), 969), (.word (.tempMinGN 2), 417), (.word (.tempMaxGN 2), 969),
    (.byte .humidityMinSysMon, 0), (.byte .humidityMaxSysMon, 100), (.byte .humidityMinNC, 0),
    (.byte .humidityMaxNC, 100), (.word .milliampMaxSysMon, 5000), (.word .milliampMaxNC, 2500),
    (.word .milliampMaxSwitch, 1500), (.word (.milliampMaxGN 0), 1500), (.word (.milliampMaxGN 1), 1500),
    (.word (.milliampMaxGN 2), 1500), (.byte .firstBoot, 0), (.byte .numPrimaryBootAttempts, 0)]

/-- 変数に値を書く。 -/
def Cell.set (n : Nat) : Cell → World → World
  | .byte c, w => updateByte env c (UInt8.ofNat n) w
  | .word c, w => updateWord env c (UInt16.ofNat n) w
  | .usartBaud, w => w.emit env.latency (.usartBaud (UInt32.ofNat n))

def setDefaultEeprom (w : World) : World := defaults.foldl (fun w p => p.1.set env p.2 w) w

end Wagman.V2
