import Wagman.V2.Params

/-!
# 設定を読む繰り返し（`boot_primary.ino`）

`get_params_core` と `get_params_GNs` の本文。一時変数ごとに一つの繰り返しがあり、`i` の位置の文字が `,` でない限り、それを加えて `i` を
進める。繰り返しの後で `,` を飛ばすが、最後の繰り返しの後では飛ばさない。すべて読み終えてから、一時変数を数にして EEPROM に書く。
`i` の `int` の桁あふれは未定義なので、`i` に上限を設けない。
-/

namespace Wagman.V2

/-- `get_params_core` の一時変数。 -/
inductive CoreParam
  | usartBaud
  | usartRxBufferSize
  | statusReportPeriod
  | maxNumSOSBootAttempts
  | maxNumSubsystemBootAttempts
  | maxNumPrimaryBootAttempts
  | deviceRebootPeriod
  | presentSwitch
  | ncBootTime
  | ncConfigTime
  | switchBootTime
  | heartbeatTimeoutNC
  | heartbeatTimeoutSwitch
  | environTimeoutSysMon
  | environTimeoutNC
  | tempProcessorTimeoutNC
  | tempTimeoutSwitch
  | powerTimeoutSysMon
  | powerTimeoutNC
  | powerTimeoutSwitch
  | minTempSysMon
  | maxTempSysMon
  | minTempNC
  | maxTempNC
  | minTempProcessorNC
  | maxTempProcessorNC
  | minTempSwitch
  | maxTempSwitch
  | minHumiditySysMon
  | maxHumiditySysMon
  | minHumidityNC
  | maxHumidityNC
  | maxAmpSysMon
  | maxAmpNC
  | maxAmpSwitch
  deriving DecidableEq, Repr

/-- `get_params_GNs` の一時変数。 -/
inductive GNParam
  | present (g : GN)
  | bootTime (g : GN)
  | heartbeatTimeout (g : GN)
  | tempTimeout (g : GN)
  | powerTimeout (g : GN)
  | minTemp (g : GN)
  | maxTemp (g : GN)
  | maxAmp (g : GN)
  deriving DecidableEq, Repr

/-- 要求の文字列、読む順に並べた一時変数、書く順に並べた変数と一時変数。 -/
structure ParamTable (T : Type) where
  request : String
  order : List T
  stores : List (Cell × T)

/-- `get_params_core` -/
def coreTable : ParamTable CoreParam where
  request := "$"
  order :=
    [.usartBaud, .usartRxBufferSize, .statusReportPeriod, .maxNumSOSBootAttempts, .maxNumSubsystemBootAttempts,
      .maxNumPrimaryBootAttempts, .deviceRebootPeriod, .presentSwitch, .ncBootTime, .ncConfigTime, .switchBootTime,
      .heartbeatTimeoutNC, .heartbeatTimeoutSwitch, .environTimeoutSysMon, .environTimeoutNC,
      .tempProcessorTimeoutNC, .tempTimeoutSwitch, .powerTimeoutSysMon, .powerTimeoutNC, .powerTimeoutSwitch,
      .minTempSysMon, .maxTempSysMon, .minTempNC, .maxTempNC, .minTempProcessorNC, .maxTempProcessorNC,
      .minTempSwitch, .maxTempSwitch, .minHumiditySysMon, .maxHumiditySysMon, .minHumidityNC, .maxHumidityNC,
      .maxAmpSysMon, .maxAmpNC, .maxAmpSwitch]
  stores :=
    [(.usartBaud, .usartBaud), (.word .usartRxBufferSize, .usartRxBufferSize),
      (.byte .statusReportPeriod, .statusReportPeriod), (.byte .maxNumSOSBootAttempts, .maxNumSOSBootAttempts),
      (.byte .maxNumSubsystemBootAttempts, .maxNumSubsystemBootAttempts),
      (.byte .maxNumPrimaryBootAttempts, .maxNumPrimaryBootAttempts), (.word .deviceRebootPeriod, .deviceRebootPeriod),
      (.byte .presentSwitch, .presentSwitch), (.word .bootTimeNC, .ncBootTime), (.word .configTimeNC, .ncConfigTime),
      (.byte .bootTimeSwitch, .switchBootTime), (.byte .heartbeatTimeoutNC, .heartbeatTimeoutNC),
      (.byte .heartbeatTimeoutSwitch, .heartbeatTimeoutSwitch), (.byte .environTimeoutSysMon, .environTimeoutSysMon),
      (.byte .environTimeoutNC, .environTimeoutNC), (.byte .tempProcessorTimeoutNC, .tempProcessorTimeoutNC),
      (.byte .tempTimeoutSwitch, .tempTimeoutSwitch), (.byte .powerTimeoutSysMon, .powerTimeoutSysMon),
      (.byte .powerTimeoutNC, .powerTimeoutNC), (.byte .powerTimeoutSwitch, .powerTimeoutSwitch),
      (.word .tempMinSysMon, .minTempSysMon), (.word .tempMaxSysMon, .maxTempSysMon),
      (.word .tempMinNC, .minTempNC), (.word .tempMaxNC, .maxTempNC),
      (.word .tempMinProcessorNC, .minTempProcessorNC), (.word .tempMaxProcessorNC, .maxTempProcessorNC),
      (.word .tempMinSwitch, .minTempSwitch), (.word .tempMaxSwitch, .maxTempSwitch),
      (.byte .humidityMinSysMon, .minHumiditySysMon), (.byte .humidityMaxSysMon, .maxHumiditySysMon),
      (.byte .humidityMinNC, .minHumidityNC), (.byte .humidityMaxNC, .maxHumidityNC),
      (.word .milliampMaxSysMon, .maxAmpSysMon), (.word .milliampMaxNC, .maxAmpNC),
      (.word .milliampMaxSwitch, .maxAmpSwitch)]

/-- `get_params_GNs` -/
def gnTable : ParamTable GNParam where
  request := "^"
  order :=
    [.present 0, .present 1, .present 2, .bootTime 0, .bootTime 1, .bootTime 2,
      .heartbeatTimeout 0, .heartbeatTimeout 1, .heartbeatTimeout 2, .tempTimeout 0, .tempTimeout 1, .tempTimeout 2,
      .powerTimeout 0, .powerTimeout 1, .powerTimeout 2, .minTemp 0, .maxTemp 0, .minTemp 1, .maxTemp 1,
      .minTemp 2, .maxTemp 2, .maxAmp 0, .maxAmp 1, .maxAmp 2]
  stores :=
    [(.byte (.presentGN 0), .present 0), (.byte (.presentGN 1), .present 1), (.byte (.presentGN 2), .present 2),
      (.word (.bootTimeGN 0), .bootTime 0), (.word (.bootTimeGN 1), .bootTime 1), (.word (.bootTimeGN 2), .bootTime 2),
      (.byte (.heartbeatTimeoutGN 0), .heartbeatTimeout 0), (.byte (.heartbeatTimeoutGN 1), .heartbeatTimeout 1),
      (.byte (.heartbeatTimeoutGN 2), .heartbeatTimeout 2), (.byte (.tempTimeoutGN 0), .tempTimeout 0),
      (.byte (.tempTimeoutGN 1), .tempTimeout 1), (.byte (.tempTimeoutGN 2), .tempTimeout 2),
      (.byte (.powerTimeoutGN 0), .powerTimeout 0), (.byte (.powerTimeoutGN 1), .powerTimeout 1),
      (.byte (.powerTimeoutGN 2), .powerTimeout 2), (.word (.tempMinGN 0), .minTemp 0),
      (.word (.tempMaxGN 0), .maxTemp 0), (.word (.tempMinGN 1), .minTemp 1), (.word (.tempMaxGN 1), .maxTemp 1),
      (.word (.tempMinGN 2), .minTemp 2), (.word (.tempMaxGN 2), .maxTemp 2),
      (.word (.milliampMaxGN 0), .maxAmp 0), (.word (.milliampMaxGN 1), .maxAmp 1),
      (.word (.milliampMaxGN 2), .maxAmp 2)]

/-! ## 繰り返し -/

/-- `String::operator[]`。文字列の外では 0 である。 -/
def charAt (s : List UInt8) (i : Nat) : UInt8 := s[i]?.getD 0

/-- 一時変数、`i`、まだ終わっていない繰り返し。先頭が実行中の繰り返しである。 -/
structure Scanner (T : Type) where
  temps : T → List UInt8
  i : Nat
  todo : List T

section Scan

variable {T : Type} [DecidableEq T] (received : List UInt8)

/-- 実行中の繰り返しの条件を一度調べ、本体を実行するか、次の繰り返しに移る。 -/
def Scanner.step (s : Scanner T) : Scanner T :=
  match s.todo with
  | [] => s
  | t :: todo =>
      let c := charAt received s.i
      if c ≠ delimiter then { s with temps := Function.update s.temps t (s.temps t ++ [c]), i := s.i + 1 }
      else { s with i := if todo = [] then s.i else s.i + 1, todo := todo }

/-- 初めから `fuel` 回進む。 -/
def scan (order : List T) (fuel : Nat) : Scanner T := (Scanner.step received)^[fuel] ⟨fun _ => [], 0, order⟩

/-- 設定を受け取る。繰り返しが `fuel` 回で終わらなければ `none` である。 -/
def ParamTable.get (env : Env) (table : ParamTable T) (fuel : Nat) (w : World) : Option World :=
  let w := println table.request w
  let received := env.received w.io
  let w := ioRead env w
  if received = [] then some w
  else
    let s := scan received table.order fuel
    if s.todo = [] then some (table.stores.foldl (fun w p => p.1.update env (s.temps p.2) w) w) else none

end Scan

end Wagman.V2
