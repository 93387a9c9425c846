import Wagman.V2.Params

/-!
# 検査と機器の起動（`sysmanager.ino`、`boot_primary.ino`、`boot_gn.ino`）

検査は、計測器を読み、値を EEPROM の範囲と比べる。戻り値のあるものは、戻り値と状態の組を返す。`boot_switch` と `boot_GN` は
値を返さないが、最後まで進んだかどうかを戻り値とする。
-/

namespace Wagman.V2

variable (env : Env)

/-! ## 検査 -/

/-- 気温と湿度を読み、範囲の中にあるか調べる。 -/
def checkEnviron (tempMin tempMax : WordCell) (humidityMin humidityMax : ByteCell) (w : World) : Bool × World :=
  let temp := env.temperature w.io
  let w := ioRead env w
  let hum := env.humidity w.io
  let w := ioRead env w
  (decide ((readWord tempMin w).toInt16 < temp ∧ temp < (readWord tempMax w).toInt16 ∧
    readByte humidityMin w < hum ∧ hum < readByte humidityMax w), w)

def checkEnvironNC (w : World) : Bool × World :=
  checkEnviron env .tempMinNC .tempMaxNC .humidityMinNC .humidityMaxNC w

def checkEnvironSysMon (w : World) : Bool × World :=
  checkEnviron env .tempMinSysMon .tempMaxSysMon .humidityMinSysMon .humidityMaxSysMon w

/-- 電流計の値。一段階は 16 ミリアンペアである。 -/
def milliamps (csb lsb : UInt8) : UInt16 := ((csb &&& 1).toUInt16 <<< 8 ||| lsb.toUInt16) * 16

/-- 電流計を読み、上限と比べる。応答がなければ失敗である。 -/
def checkPower (s : Subject) (milliampMax : WordCell) (w : World) : Bool × World :=
  match env.current w.io s with
  | some (_, csb, lsb) => (decide (milliamps csb lsb < readWord milliampMax w), ioRead env w)
  | none => (false, ioRead env w)

def checkPowerSysMon (w : World) : Bool × World := checkPower env .sysMon .milliampMaxSysMon w

def checkPowerNC (w : World) : Bool × World := checkPower env (.device .nc) .milliampMaxNC w

def checkPowerSwitch (w : World) : Bool × World := checkPower env (.device .switch) .milliampMaxSwitch w

def checkPowerGN (g : GN) (w : World) : Bool × World := checkPower env (.device (.gn g)) (.milliampMaxGN g) w

/-- サーミスターを読み、範囲の中にあるか調べる。 -/
def checkTemp (d : Device) (tempMin tempMax : WordCell) (w : World) : Bool × World :=
  let temp := env.thermistor w.io d
  (decide (readWord tempMin w < temp ∧ temp < readWord tempMax w), ioRead env w)

def checkTempNC (w : World) : Bool × World := checkTemp env .nc .tempMinProcessorNC .tempMaxProcessorNC w

def checkTempSwitch (w : World) : Bool × World := checkTemp env .switch .tempMinSwitch .tempMaxSwitch w

def checkTempGN (g : GN) (w : World) : Bool × World := checkTemp env (.gn g) (.tempMinGN g) (.tempMaxGN g) w

/-- 心拍の周期の半分をおいて二度読んだ値が違うか。 -/
def sampleHeartbeat (d : Device) (w : World) : Bool × World :=
  let sample₁ := env.heartbeat w.io d
  let w := delay env 20 (ioRead env w)
  let sample₂ := env.heartbeat w.io d
  (sample₁ != sample₂, ioRead env w)

/-- 心拍がなければ、もう一度調べる。 -/
def checkHeartbeatOdroid (d : Device) (w : World) : Bool × World :=
  let r := sampleHeartbeat env d w
  let r := if r.1 then r else sampleHeartbeat env d (delay env 2 r.2)
  (r.1, (delay env 2000 r.2).mark (.heartbeat d r.1))

/-- 失敗したら、`settle` の後にもう一度だけ調べる。 -/
def twice (check : World → Bool × World) (settle : World → World) (w : World) : Bool × World :=
  let r := check w
  if r.1 then r else check (settle r.2)

/-! ## 起動の部分 -/

def powerCycle (d : Device) (w : World) : World :=
  w |> digitalWrite env d false
    |> delay env 2000
    |> digitalWrite env d true

def sendProblem (text : String) (w : World) : World :=
  println "#" w
    |> delay env 10
    |> ioRead env
    |> Machine.mark (.problem text)
    |> delay env 10

/-- 電流が異常なら、電源を入れ直してもう一度調べる。 -/
def confirmPower (d : Device) (check : World → Bool × World) (boot : World → World) (w : World) : Bool × World :=
  twice check (fun w => boot (powerCycle env d w)) w

/-- 許された回数だけ心拍を調べる。心拍がなければ、電源を入れ直す。 -/
def retryHeartbeat (d : Device) (boot : World → World) : Nat → Bool → World → Bool × World
  | 0, detected, w => (detected, w)
  | n + 1, detected, w =>
      let r := checkHeartbeatOdroid env d w
      if r.1 then retryHeartbeat d boot n true r.2
      else retryHeartbeat d boot n detected (boot (powerCycle env d r.2))

/-- 心拍を待つ。最初の起動を一回と数える。 -/
def awaitHeartbeat (d : Device) (boot : World → World) (w : World) : Bool × World :=
  let r := checkHeartbeatOdroid env d w
  if r.1 then r
  else retryHeartbeat env d boot ((readByte .maxNumSubsystemBootAttempts r.2).toNat - 1) false r.2

def seconds (n : Nat) : Nat := n * 1000

/-! ## `boot_NC` -/

/-- `POWER_ON_BOOT` と `RE_BOOT` -/
inductive BootType
  | powerOnBoot
  | reBoot
  deriving DecidableEq, Repr

/-- `SERIAL_DEBUG_ON` のときだけの出力。 -/
def say (debug : Bool) (text : String) (w : World) : World := if debug then println text w else w

/-- 再起動のときに、まず電源を切る。 -/
def shutDownNC (debug : Bool) (w : World) : World :=
  say debug "BNC1" w
    |> println "?"
    |> delay env 5000
    |> digitalWrite env .nc false
    |> delay env 2000
    |> setRunning .nc false

/-- 処理装置の温度を調べる。`SERIAL_DEBUG_ON` のとき、二度目の `if` は出力だけに掛かり、結果に関わらず失敗する。 -/
def admitTempNC (debug : Bool) (w : World) : Bool × World :=
  let r := checkTempNC env w
  if r.1 then r
  else
    let r := checkTempNC env (delay env 5000 (say debug "BNC4.1" r.2))
    if debug then (false, if r.1 then r.2 else println "BNC4.2" r.2) else r

/-- 電源を入れる前の検査。 -/
def admitNC (debug : Bool) (w : World) : Bool × World :=
  let w := say debug "BNC2" w
  if readByte .ncEnabled w = 0 then (false, w)
  else
    let r := twice (checkEnvironNC env) (delay env 5000) (say debug "BNC3" w)
    if r.1 then admitTempNC env debug (say debug "BNC4" r.2) else (false, r.2)

/-- 電源を入れて、`NC` の設定が済んだという知らせを待つ。 -/
def configureNC (debug : Bool) (w : World) : Bool × World :=
  let w := digitalWrite env .nc true (say debug "BNC5" w)
  let received := env.received w.io
  (decide (received = [0x3d]), say debug "BNC6" (ioRead env w))

/-- `NC` が起動するまで待つ。 -/
def waitNC (w : World) : World := delay env (seconds (readWord .bootTimeNC w).toNat) w

def bootNC (debug : Bool) (whichType : BootType) (w : World) : Bool × World :=
  let w := if whichType = .reBoot then shutDownNC env debug w else w
  let r := admitNC env debug w
  if r.1 = false then r
  else
    let r := configureNC env debug r.2
    if r.1 = false then r
    else
      let r := confirmPower env .nc (checkPowerNC env) (waitNC env) (say debug "BNC7" r.2)
      if r.1 = false then (false, updateByte env .ncEnabled 0 (digitalWrite env .nc false r.2))
      else
        let r := awaitHeartbeat env .nc (waitNC env) (say debug "BNC8" r.2)
        if r.1 = false then (false, digitalWrite env .nc false r.2)
        else (true, setRunning .nc true (say debug "BNC9" r.2))

/-- ソースは `SERIAL_DEBUG_ON` を定義している。 -/
def serialDebugOn : Bool := true

/-- 引数のない `boot_NC` -/
def bootNCVoid (w : World) : Bool × World :=
  bootNC env serialDebugOn .powerOnBoot (say serialDebugOn "BNC0" w)

/-! ## `boot_switch` と `boot_GN` -/

/-- リレーを切って休ませる。 -/
def restDevice (d : Device) (w : World) : World :=
  setRunning d false w
    |> digitalWrite env d false
    |> delay env 2000

def waitSwitch (w : World) : World := delay env (seconds (readByte .bootTimeSwitch w).toNat) w

def bootSwitch (w : World) : Bool × World :=
  let w := restDevice env .switch w
  if readByte .switchEnabled w = 0 ∨ readByte .presentSwitch w = 0 then (false, w)
  else
    let r := twice (checkTempSwitch env) (delay env 5000) w
    if r.1 = false then (false, sendProblem env Check.tempSwitch.problem r.2)
    else
      let w := waitSwitch env (digitalWrite env .switch true r.2)
      let r := confirmPower env .switch (checkPowerSwitch env) (waitSwitch env) w
      if r.1 = false then
        (false, updateByte env .switchEnabled 0
          (sendProblem env Check.powerSwitch.problem (digitalWrite env .switch false r.2)))
      else (true, setRunning .switch true r.2)

def waitGN (g : GN) (w : World) : World := delay env (seconds (readWord (.bootTimeGN g) w).toNat) w

def bootGN (g : GN) (w : World) : Bool × World :=
  let w := restDevice env (.gn g) w
  if readByte (.gnEnabled g) w = 0 ∨ readByte (.presentGN g) w = 0 then (false, w)
  else
    let r := twice (checkTempGN env g) (delay env 5000) w
    if r.1 = false then (false, sendProblem env (Check.tempGN g).problem r.2)
    else
      let w := waitGN env g (digitalWrite env (.gn g) true r.2)
      let r := confirmPower env (.gn g) (checkPowerGN env g) (waitGN env g) w
      if r.1 = false then
        (false, updateByte env (.gnEnabled g) 0
          (sendProblem env (Check.powerGN g).problem (digitalWrite env (.gn g) false r.2)))
      else
        let r := awaitHeartbeat env (.gn g) (waitGN env g) r.2
        if r.1 = false then
          (false, sendProblem env (Check.heartbeatGN g).problem (digitalWrite env (.gn g) false r.2))
        else (true, setRunning (.gn g) true r.2)

/-- `loop` が機器を起動するときの呼び出し。 -/
def boot (d : Device) (w : World) : Bool × World :=
  match d with
  | .nc => bootNCVoid env w
  | .switch => bootSwitch env w
  | .gn g => bootGN env g w

end Wagman.V2
