import Wagman.V3.Commands

/-!
# 起動と主ループ（`firmware.ino`）

電源を入れた直後の装置の状態は任意である。実行は、主ループの部分と、時間の経過、タイマー割り込みの任意の並びである。
-/

namespace Wagman.V3

variable (env : Env)

/-! ## 主ループの各部分 -/

/-- `showBootLog` は起動の記録を読んで出力するだけなので、かかる時間だけを表す。 -/
def startNextDevice (w : World) : World :=
  if h : w.ram.deviceWantsStart.toNat < 5 then
    let i : Port := ⟨w.ram.deviceWantsStart.toNat, h⟩
    let w := (Device.start env i (w.setRam { w.ram with startTimer := timerNow w })).2
    w.setRam { w.ram with deviceWantsStart := 255 }
  else if w.ram.startTimer.exceeds w.now 60000 then
    match (List.finRange 5).find? (fun i => Device.canStart i w) with
    | some i => ioRead env (Device.start env i (w.setRam { w.ram with startTimer := timerNow w })).2
    | none => w
  else w

/-- タイマー 1 の割り込み。`levels` は `HEARTBEAT_PINS` の値である。 -/
def timer1Overflow (levels : Port → Bool) (w : World) : World :=
  w.setRam { w.ram with
    heartbeatCounters := fun i =>
      if w.ram.heartbeatState i ≠ levels i then w.ram.heartbeatCounters i + 1 else w.ram.heartbeatCounters i
    heartbeatState := levels }

/-- `logStatus` は計測の値を `Logger` に書くだけなので、かかる時間だけを表す。 -/
def updateStatus (w : World) : World :=
  if w.ram.statusTimer.exceeds w.now 60000 then
    delay env 350 (w.setRam { w.ram with statusTimer := timerNow w })
  else w

/-- `resetSystem` は戻らず、監視タイマーによるリセットを待つ。 -/
def updateReset (w : World) : World :=
  if w.ram.shouldResetSystem && w.ram.shouldResetTimer.exceeds w.now w.ram.shouldResetTimeout then
    w.setRam { w.ram with halted := true }
  else w

def updateLEDs (w : World) : World :=
  let w := toggleLED env 0 w
  let w := if w.ram.shouldResetSystem then setLED env 1 (getLED 0 w) w else w
  delay env 200 w

/-! ## 起動 -/

/-- 二つの LED を順に点滅させる。 -/
def lightSequence (ms : Nat) (w : World) : World :=
  w |> setLED env 0 true |> delay env ms
    |> setLED env 1 true |> delay env ms
    |> setLED env 0 false |> delay env ms
    |> setLED env 1 false |> delay env ms

/-- `Wagman::init` -/
def wagmanInit (w : World) : World :=
  let w := w.setRam { w.ram with
    heartbeatCounters := fun _ => 0
    wireEnabled := Record.getWireEnabled w.hw.eeprom }
  w |> delay env 200 |> delay env 200 |> delay env 200

/-- 計測器を読む前に健康の値を増やし、読めたら戻す。範囲の外の値なら、`attempts` 回まで繰り返す。 -/
def checkSensor (getHealth : (Nat → UInt8) → UInt8) (setHealth : UInt8 → World → World)
    (read : World → UInt16)
    (bound : UInt16) : Nat → World → World
  | 0, w => w
  | attempts + 1, w =>
      let w := delay env 20 (setHealth (getHealth w.hw.eeprom + 1) w)
      let value := read w
      let w := delay env 50 (ioRead env w)
      let w := delay env 20 (setHealth (getHealth w.hw.eeprom - 1) w)
      if value ≤ bound then w else checkSensor getHealth setHealth read bound attempts w

def checkCurrentSensors (w : World) : World :=
  eachPort (fun i w =>
    if 5 ≤ Record.getPortCurrentSensorHealth w.hw.eeprom i then w
    else checkSensor env (Record.getPortCurrentSensorHealth · i) (Record.setPortCurrentSensorHealth env i)
      (getCurrent env i) 5000 3 w) w

def checkThermistors (w : World) : World :=
  eachPort (fun i w =>
    if 5 ≤ Record.getThermistorSensorHealth w.hw.eeprom i then w
    else checkSensor env (Record.getThermistorSensorHealth · i) (Record.setThermistorSensorHealth env i)
      (getThermistor env i) 10000 3 w) w

def checkSensors (w : World) : World :=
  w |> checkCurrentSensors env
    |> checkThermistors env

/-- 電源の投入か、電圧の低下によるリセットである。 -/
def powerLost (bootflags : UInt8) : Bool := flagged bootflags 0 || flagged bootflags 2

/-- `setupDevices` の表。書かれない欄は静的な初期値のままである。 -/
def setupDevice (i : Port) (d : Device) : Device :=
  match i with
  | 0 => { d with
      bootSelector := 0, primaryMedia := .emmc, secondaryMedia := .sd, watchHeartbeat := true, watchCurrent := false }
  | 1 => { d with
      bootSelector := 1, primaryMedia := .emmc, secondaryMedia := .sd, watchHeartbeat := true, watchCurrent := false }
  | 2 => { d with primaryMedia := .emmc, secondaryMedia := .sd, watchHeartbeat := true, watchCurrent := false }
  | 3 => { d with watchHeartbeat := false, watchCurrent := false }
  | 4 => { d with watchHeartbeat := false, watchCurrent := false }

/-- リレーの切り替えの途中で止まっていたポートを切る。リセットがその切り替えのためでありうるなら、無効にもする。 -/
def recoverRelay (i : Port) (w : World) : World :=
  let state := Record.getRelayState w.hw.eeprom i
  let w := ioRead env w
  if state = relayTurningOn ∨ state = relayTurningOff then
    let w := Record.setRelayState env i relayOff w
    if powerLost w.ram.bootflags then Device.disable env i w else (Device.kill env i w).2
  else w

def setupDevices (w : World) : World :=
  let w := w.setRam { w.ram with devices := fun i => setupDevice i (w.ram.devices i) }
  w |> eachPort (Device.init env)
    |> eachPort (recoverRelay env)

/-- `setup` のうち、`setupDevices` の直前までの部分。 -/
def prepare (w : World) : World :=
  let w := w.setRam { w.ram with bootflags := w.hw.eeprom 0x41 }
  let w := (List.range 8).foldl (fun w _ => lightSequence env 100 w) (delay env 4000 w)
  let w :=
    if Record.initialized w.hw.eeprom then wagmanInit env w
    else (List.range 16).foldl (fun w _ => lightSequence env 20 w) (wagmanInit env (Record.init env w))
  let w := ioRead env (w.setRam { w.ram with setupTime := getTime env w })
  let w := Record.setLastBootTime env w.ram.setupTime w
  let w := Record.incrementBootCount env w
  if powerLost w.ram.bootflags then checkSensors env w else w

/-- `setup` のうち、`setupDevices` の後の部分。 -/
def arm (w : World) : World :=
  let w := w.setRam { w.ram with
    deviceWantsStart := 0
    startTimer := timerNow w
    statusTimer := timerNow w
    shouldResetSystem := false
    shouldResetTimeout := 0 }
  -- 時計が `BUILD_TIME` より前なら合わせる
  ioRead env w

def setup (w : World) : World := arm env (setupDevices env (prepare env w))

/-- 電源が入った直後の状態。 -/
def powerOn (h : Hardware) : World := { hw := h, ram := {}, now := 0, io := 0, log := [] }

/-- `setup` を終えた状態。 -/
def booted (h : Hardware) : World := setup env (powerOn h)

/-! ## 実行 -/

/-- 実行の一歩。`idle` は時間の経過、`timer1` は割り込みで、残りは `loop` の部分である。 -/
inductive Op
  | idle (ms : Nat)
  | timer1 (levels : Port → Bool)
  | startNext
  | update (i : Port)
  | line (line stale : List UInt8)
  | status
  | reset
  | leds

/-- `resetSystem` に入った後は、ファームウェアは何もしない。 -/
def step (o : Op) (w : World) : World :=
  if w.ram.halted then w
  else
    match o with
    | .idle ms => delay env ms w
    | .timer1 levels => timer1Overflow levels w
    -- リセットを決めた後は、新しい機器を起動しない
    | .startNext => if w.ram.shouldResetSystem then w else startNextDevice env w
    | .update i => Device.update env i w
    | .line line stale => processCommand env line stale w
    | .status => updateStatus env w
    | .reset => updateReset w
    | .leds => updateLEDs env w

/-- 操作の並びの実行。 -/
def run (ops : List Op) (w : World) : World := ops.foldl (fun w o => step env o w) w

/-- 遅れがなく、計測の値がすべて 0 の環境。具体的な実行を調べるときに使う。 -/
def Env.ideal : Env where
  latency _ := 0
  current _ _ := 0
  systemCurrent _ := 0
  thermistor _ _ := 0
  clock _ := 0
  clockId _ := List.replicate 8 0
  dateTime _ := ⟨2016, 3, 15, 13, 0, 0⟩
  temperature _ := 0
  humidity _ := 0

/-- 初期化された EEPROM で、ポート 1 だけが有効な基板。 -/
def Hardware.ready : Hardware where
  eeprom
    | 0 => 0xa1
    | 1 => 0xad
    | 2 => 0xa1
    | 3 => 0xad
    | 384 => 1
    | _ => 0
  pin _ := false

end Wagman.V3
