import Wagman.V2.Boot

/-!
# 起動と監視の繰り返し（`sysmanager.ino`、`boot_primary.ino`）

`loop` は、タイマー 1 の一周ごとに、動いている機器の検査を評価し、続けて失敗した回数が EEPROM の値に達していれば対処する。
-/

namespace Wagman.V2

variable (env : Env)

/-! ## 評価 -/

/-- 検査 `c` を行う関数。 -/
def Check.run (c : Check) (w : World) : Bool × World :=
  match c with
  | .environSysMon => checkEnvironSysMon env w
  | .powerSysMon => checkPowerSysMon env w
  | .environNC => checkEnvironNC env w
  | .tempNC => checkTempNC env w
  | .powerNC => checkPowerNC env w
  | .heartbeatNC => checkHeartbeatOdroid env .nc w
  | .tempSwitch => checkTempSwitch env w
  | .powerSwitch => checkPowerSwitch env w
  | .tempGN g => checkTempGN env g w
  | .powerGN g => checkPowerGN env g w
  | .heartbeatGN g => checkHeartbeatOdroid env (.gn g) w

def Ram.setCount (r : Ram) (c : Check) (n : UInt8) : Ram :=
  { r with countTimeout := Function.update r.countTimeout c n }

/-- 検査を行い、失敗なら回数を増やし、成功なら 0 に戻す。 -/
def evaluate (c : Check) (w : World) : World :=
  let r := c.run env w
  let n := if r.1 then 0 else r.2.ram.countTimeout c + 1
  (r.2.setRam (r.2.ram.setCount c n)).mark (.evaluated c r.1)

/-- SysMon は常に動いている。 -/
def operating (s : Subject) (w : World) : Bool :=
  match s with
  | .sysMon => true
  | .device d => w.ram.running d

/-- 対象ごとの、評価する検査。評価する順である。 -/
def evaluations : Subject → List Check
  | .sysMon => [.environSysMon, .powerSysMon]
  | .device .nc => [.environNC, .tempNC, .powerNC, .heartbeatNC]
  | .device .switch => [.tempSwitch, .powerSwitch]
  | .device (.gn g) => [.tempGN g, .powerGN g, .heartbeatGN g]

/-- 対象が動いていれば、その検査を評価する。 -/
def countTimeouts (s : Subject) (w : World) : World :=
  if operating s w then (evaluations s).foldl (fun w c => evaluate env c w) w else w

/-! ## 対処 -/

/-- 対象ごとの、対処する検査。先にあるものを優先する。 -/
def reactions : Subject → List Check
  | .sysMon => [.powerSysMon, .environSysMon]
  | .device .nc => [.heartbeatNC, .powerNC, .environNC, .tempNC]
  | .device .switch => [.powerSwitch, .tempSwitch]
  | .device (.gn g) => [.powerGN g, .tempGN g, .heartbeatGN g]

/-- 続けて失敗した回数が EEPROM の値に達している。 -/
def timedOut (c : Check) (w : World) : Bool := readByte c.timeout w ≤ w.ram.countTimeout c

/-- `soft_restart`。監視タイマーによるリセットを待つ。 -/
def softRestart (w : World) : World := enterStage .restarting w

/-- 対象を起動し直す。 -/
def reboot (s : Subject) (w : World) : World :=
  match s with
  | .sysMon => softRestart w
  | .device d => (boot env d w).2

/-- `NC` に知らせ、対象の回数をすべて 0 に戻して、起動し直す。 -/
def react (s : Subject) (c : Check) (w : World) : World :=
  let w := sendProblem env c.problem w
  let w := (reactions s).foldl (fun w c => w.setRam (w.ram.setCount c 0)) w
  reboot env s (w.mark (.reaction c))

/-- 対象が動いていて、失敗が続いていれば、対処する。 -/
def respond (s : Subject) (w : World) : World :=
  if w.ram.stage = .running ∧ operating s w = true then
    match (reactions s).find? (fun c => timedOut c w) with
    | some c => react env s c w
    | none => w
  else w

/-! ## 報告と要求 -/

/-- `send_status`。報告の内容は表さない。 -/
def sendStatus (w : World) : World :=
  println "@" w
    |> delay env 10
    |> ioRead env
    |> ioRead env

def sendTime (w : World) : World :=
  println "(" w
    |> delay env 10
    |> ioRead env

def reportStatus (w : World) : World :=
  if readByte .statusReportPeriod w ≤ w.ram.countStatusReport then
    sendStatus env (w.setRam { w.ram with countStatusReport := 0 })
  else w

def requestTime (w : World) : World :=
  if 3600 ≤ w.ram.countTimeUpdateRequest then
    getTimeNC env (w.setRam { w.ram with countTimeUpdateRequest := 0 })
  else w

/-- 届いた一文字の要求に応える。 -/
def serveRequest (w : World) : World :=
  let incoming := env.incoming w.io
  let w := ioRead env w
  match incoming with
  | some 0x31 => sendTime env w
  | some 0x32 => sendStatus env w
  | some 0x33 => (boot env .nc w).2
  | some 0x34 => (boot env .switch w).2
  | some 0x35 => (boot env (.gn 0) w).2
  | some 0x36 => (boot env (.gn 1) w).2
  | some 0x37 => (boot env (.gn 2) w).2
  | _ => w

/-- 動いていないときに起動してよい機器。 -/
def bootable (d : Device) (w : World) : Bool :=
  match d with
  | .nc => readByte .ncEnabled w != 0
  | .switch => readByte .switchEnabled w != 0 && readByte .presentSwitch w != 0
  | .gn g => readByte (.gnEnabled g) w != 0 && readByte (.presentGN g) w != 0

def devices : List Device := [.nc, .switch, .gn 0, .gn 1, .gn 2]

/-- 決まった周ごとに、動いていない機器を起動する。 -/
def rebootIdle (w : World) : World :=
  if readWord .deviceRebootPeriod w ≤ w.ram.countDeviceReboot then
    devices.foldl (fun w d => if !w.ram.running d && bootable d w then (boot env d w).2 else w)
      (w.setRam { w.ram with countDeviceReboot := 0 })
  else w

/-! ## `loop` -/

def subjects : List Subject := .sysMon :: devices.map .device

/-- 報告と時刻の要求までの周を数える。 -/
def tick (w : World) : World :=
  w.setRam { w.ram with
    countStatusReport := w.ram.countStatusReport + 1
    countTimeUpdateRequest := w.ram.countTimeUpdateRequest + 1 }

/-- すべての対象の検査を評価する。 -/
def countAll (w : World) : World := subjects.foldl (fun w s => countTimeouts env s w) w

/-- すべての対象に対処する。 -/
def respondAll (w : World) : World :=
  subjects.foldl (fun w s => respond env s w)
    (w.setRam { w.ram with countDeviceReboot := w.ram.countDeviceReboot + 1 })

/-- `loop` のうち、対処の後の部分。 -/
def finish (w : World) : World :=
  let w := rebootIdle env (serveRequest env (requestTime env (reportStatus env w)))
  w.setRam { w.ram with timer1Cycle := false }

/-- `soft_restart` は戻らないので、その後の部分は行わない。 -/
def loop (w : World) : World :=
  if w.ram.timer1Cycle = false then w
  else
    let w := respondAll env (countAll env (tick w))
    if w.ram.stage = .running then finish env w else w

/-! ## `setup` -/

/-- `init_primary` のうち、EEPROM に書く部分。 -/
def initPrimary (w : World) : World :=
  w |> updateByte env .postResult 0
    |> updateByte env .numSOSBootAttempts 0
    |> updateByte env .timerTestIncomplete 0

def bootSysMon (w : World) : Bool × World :=
  let r := twice (checkPowerSysMon env) (delay env 1000) w
  if r.1 = false then r else twice (checkEnvironSysMon env) (delay env 5000) r.2

/-- `boot_primary` のうち、`boot_NC` の後の部分。 -/
def configure (w : World) : World :=
  let w := getParamsCore env (getTimeNC env (delay env 20000 w))
  if w.ram.stage = .running then
    let w := getParamsGNs env w
    if w.ram.stage = .running then (bootSwitch env w).2 else w
  else w

def bootPrimary (w : World) : Bool × World :=
  let w := initPrimary env w
  let w := if readByte .firstBoot w ≠ 0 then setDefaultEeprom env w else w
  let r := bootSysMon env w
  if r.1 = false then r
  else
    let r := bootNCVoid env r.2
    if r.1 = false then r else (true, configure env r.2)

/-- すべてのリレーを切って、止まる。 -/
def sleepSysMon (w : World) : World :=
  enterStage .asleep (devices.foldl (fun w d => digitalWrite env d false w) w)

/-- `setup` のうち、`boot_primary` が失敗したときの部分。 -/
def failBoot (w : World) : World :=
  let numAttempts := readByte .numPrimaryBootAttempts w + 1
  let w := updateByte env .numPrimaryBootAttempts numAttempts w
  if numAttempts < readByte .maxNumPrimaryBootAttempts w then softRestart w
  else sleepSysMon env (delay env 10 (updateByte env .numPrimaryBootAttempts 0 w))

def setup (w : World) : World :=
  let r := bootPrimary env w
  if r.1 = false then failBoot env r.2
  else if r.2.ram.stage = .running then (bootGN env 2 (bootGN env 1 (bootGN env 0 r.2).2).2).2
  else r.2

/-- リセットの直後の状態。ピンは入力になるので、リレーは切れている。 -/
def powerOn (e : Eeprom) : World :=
  { hw := { eeprom := e, relay := fun _ => false }, ram := {}, now := 0, io := 0, log := [] }

/-! ## 実行 -/

/-- 実行の一歩。`timer1` はタイマー 1 の割り込みである。 -/
inductive Op
  | timer1
  | loop
  deriving DecidableEq

def step (o : Op) (w : World) : World :=
  if w.ram.stage = .running then
    match o with
    | .timer1 => w.setRam { w.ram with timer1Cycle := true }
    | .loop => loop env w
  else w

def run (ops : List Op) (w : World) : World := ops.foldl (fun w o => step env o w) w

/-- 遅れがなく、どの検査も成功する環境。`NC` は設定が済んだことだけを知らせる。具体的な実行を調べるときに使う。 -/
def Env.ideal : Env where
  latency _ := 0
  temperature _ := 20
  humidity _ := 50
  current _ _ := some (0, 0, 10)
  thermistor _ _ := 500
  heartbeat n _ := n / 2 % 2 == 0
  received n := if n < 12 then [0x3d] else []
  incoming _ := none

/-- `set_default_eeprom` の後で、`NC` だけが有効な EEPROM。 -/
def Eeprom.ready : Eeprom where
  byte
    | .ncEnabled => 1
    | c => (defaults.lookup (.byte c)).elim 0 UInt8.ofNat
  word c := (defaults.lookup (.word c)).elim 0 UInt16.ofNat
  usartBaud := 57600

end Wagman.V2
