import Wagman.V4.Device
import Wagman.Lib.Run

/-!
# 要求の処理と主ループ（`firmware.ino`）

要求の復号器（`waggle.h`）は含まれないので、`processCommand` は復号された要求の並びを受け取る。並びは任意である。
`devices` の範囲の外への書き込みは続きの動作が定まらないので、`none` を返す。
-/

namespace Wagman.V4

variable (env : Env)

/-! ## 要求と応答 -/

/-- 復号された要求。`value` は `decode_uint` の結果で、誤りのときは `none` である。 -/
structure Request where
  id : Nat
  subId : Int
  value : Option UInt32

/-- `REQ_WAGMAN_*` と `PUB_WAGMAN_PING` のうち、`processCommand` が扱うもの。 -/
inductive Req
  | id
  | cu
  | hb
  | boots
  | fc
  | th
  | start
  | stop
  | deviceEnable
  | deviceState
  | getMediaSelect
  | setMediaSelect
  | uptime
  | eereset
  | reset
  | ping
  deriving DecidableEq, Repr

def Req.ofId : Nat → Option Req
  | 0xc000 => some .id
  | 0xc001 => some .cu
  | 0xc002 => some .hb
  | 0xc005 => some .boots
  | 0xc006 => some .fc
  | 0xc003 => some .th
  | 0xc007 => some .start
  | 0xc008 => some .stop
  | 0xc00c => some .deviceEnable
  | 0xc00b => some .deviceState
  | 0xc00d => some .getMediaSelect
  | 0xc00e => some .setMediaSelect
  | 0xc004 => some .uptime
  | 0xc00a => some .eereset
  | 0xc009 => some .reset
  | 0xff1e => some .ping
  | _ => none

def sensorIdHtu21d : Nat := 0x0002
def pubWagmanId : Nat := 0xff1a
def pubWagmanCu : Nat := 0xff06
def pubWagmanHb : Nat := 0xff09
def pubWagmanBoots : Nat := 0xff1a
def pubWagmanUptime : Nat := 0xff14
def pubWagmanFc : Nat := 0xff05
def pubWagmanStart : Nat := 0xff0b
def pubWagmanStop : Nat := 0xff0a
def pubWagmanEereset : Nat := 0xc00a
def pubWagmanReset : Nat := 0xc009
def pubWagmanPing : Nat := 0xff1e
def pubWagmanVoltage : Nat := 0xff08
def pubWagmanTh : Nat := 0xff10
def pubWagmanDeviceState : Nat := 0xff1f
def pubWagmanDeviceEnable : Nat := 0xff20
def pubWagmanGetMediaSelect : Nat := 0xff21
def pubWagmanSetMediaSelect : Nat := 0xff22

def basicResp (id : Nat) (subId : Int) (value : Option UInt32) (w : World) : World :=
  w.emit env.latency (.resp id subId value)

def basicRespBytes (id : Nat) (subId : Int) (value : List UInt8) (w : World) : World :=
  w.emit env.latency (.respBytes id subId value)

/-- `Wagman::validPort` に `int` を渡すと、下位の一バイトだけが調べられる。 -/
def validPort (port : Int) : Bool := decide (port % 256 < 5)

/-- `int` を `byte` に変えた番号。`validPort` が真のときだけ使う。 -/
def bytePort (port : Int) : Port := Fin.ofNat 5 (port % 256).toNat

/-- `devices[port]` の添字。配列の外では `none` である。 -/
def index? (port : Int) : Option Port :=
  if h : 0 ≤ port ∧ port < 5 then some ⟨port.toNat, by omega⟩ else none

/-! ## 要求ごとの関数 -/

def commandPingMain (device : Int) (w : World) : Option (UInt32 × World) :=
  if validPort device then
    (index? device).map fun i =>
      (1, w |> setLED env (i.val + 1) false
            |> Device.sendExternalHeartbeat env i
            |> delay env 50
            |> setLED env (i.val + 1) true)
  else some (0, w)

def commandPing (subId : Int) (w : World) : Option World :=
  (commandPingMain env (subId - 1) w).map fun (ok, w) => basicResp env pubWagmanPing subId (some ok) w

/-- `deviceWantsStart` は `byte` なので、下位の一バイトだけが残る。 -/
def commandStartMain (port : Int) (w : World) : UInt32 × World :=
  if validPort port then (1, w.setRam { w.ram with deviceWantsStart := UInt8.ofNat (port % 256).toNat })
  else (0, w)

def commandStart (subId : Int) (w : World) : World :=
  let (ok, w) := commandStartMain (subId - 1) w
  basicResp env pubWagmanStart subId (some ok) w

def commandStopMain (port : Int) (after : UInt32) (w : World) : Option (UInt32 × World) :=
  if validPort port then
    (index? port).map fun i => (1, (Device.stop env i (Device.setStopTimeout i (after * 1000) w)).2)
  else some (0, w)

def commandStop (subId : Int) (after : UInt32) (w : World) : Option World :=
  (commandStopMain env (subId - 1) after w).map fun (ok, w) => basicResp env pubWagmanStop subId (some ok) w

def commandReset (w : World) : World :=
  let w := w.setRam { w.ram with
    shouldResetSystem := true
    shouldResetTimer := timerNow w
    shouldResetTimeout := 0 }
  basicResp env pubWagmanReset 1 (some 1) w

def commandID (w : World) : World :=
  let id := if w.ram.wireEnabled then env.clockId else List.replicate 8 0xff
  basicRespBytes env pubWagmanId 1 id (ioRead env w)

def commandCurrentMain (port : Int) (w : World) : UInt32 :=
  if port = 0 then env.systemCurrent w.io
  else if validPort (port - 1) then env.current w.io (bytePort (port - 1))
  else 0

def commandCurrent (subId : Int) (w : World) : World :=
  basicResp env pubWagmanCu subId (some (commandCurrentMain env (subId - 1) w)) (ioRead env w)

/-- 配列を引く計測の値。`validPort` が真でも、配列の外を読むことがある。 -/
def sensorMain (read : Port → UInt32) (port : Int) : Option UInt32 :=
  if validPort port then (index? port).map read else some 0

def commandVoltageMain (port : Int) (w : World) : Option UInt32 := sensorMain (env.voltage w.io) port

def commandVoltage (subId : Int) (w : World) : World :=
  basicResp env pubWagmanVoltage subId (commandVoltageMain env (subId - 1) w) (ioRead env w)

def commandHeartbeatMain (port : Int) (w : World) : Option UInt32 :=
  sensorMain (fun i => Device.timeSinceHeartbeat i w) port

def commandHeartbeat (subId : Int) (w : World) : World :=
  basicResp env pubWagmanHb subId (commandHeartbeatMain (subId - 1) w) w

/-- `getBootFailures` の引数は `byte` なので、配列の外は読まない。 -/
def commandFailCountMain (port : Int) (w : World) : UInt32 :=
  if validPort port then Record.getBootFailures w.hw.eeprom (bytePort port) else 0

def commandFailCount (subId : Int) (w : World) : World :=
  basicResp env pubWagmanFc subId (some (commandFailCountMain subId w)) (ioRead env w)

def commandThermistorMain (port : Int) (w : World) : Option UInt32 :=
  sensorMain (env.thermistor w.io) port

def commandThermistor (subId : Int) (w : World) : World :=
  basicResp env pubWagmanTh subId (commandThermistorMain env subId w) (ioRead env w)

/-- 温度と湿度の片方を応答する。 -/
def respEnvironment (subId : Int) (read : Nat → Option UInt32) (w : World) : World :=
  let raw := if w.ram.wireEnabled then read w.io else none
  let w := ioRead env w
  match raw with
  | some v => basicResp env sensorIdHtu21d subId (some v) w
  | none => w

def commandEnvironment (w : World) : World :=
  w |> respEnvironment env 1 env.temperature
    |> respEnvironment env 2 env.humidity

def commandSetMediaSelectMain (port : Int) (media : UInt32) (w : World) : UInt32 × World :=
  if port = 0 ∨ port = 1 then
    let i := bytePort port
    if media = 0 then (1, Device.setNextBootMedia env i .sd w)
    else if media = 1 then (1, Device.setNextBootMedia env i .emmc w)
    else (0, w)
  else (0, w)

def commandSetMediaSelect (subId : Int) (media : UInt32) (w : World) : World :=
  let (ok, w) := commandSetMediaSelectMain env (subId - 1) media w
  basicResp env pubWagmanSetMediaSelect subId (some ok) w

def commandGetMediaSelectMain (port : Int) (w : World) : UInt32 :=
  if port = 0 ∨ port = 1 then (Device.getNextBootMedia (bytePort port) w).code else 255

def commandGetMediaSelect (subId : Int) (w : World) : World :=
  basicResp env pubWagmanGetMediaSelect subId (some (commandGetMediaSelectMain (subId - 1) w)) (ioRead env w)

def commandUptime (w : World) : World :=
  basicResp env pubWagmanUptime 1 (some (Clock.read w.now / 1000)) w

def commandEnableMain (port : Int) (w : World) : Option (UInt32 × World) :=
  if validPort port then (index? port).map fun i => (1, Device.enable env i w) else some (0, w)

def commandEnable (subId : Int) (w : World) : Option World :=
  (commandEnableMain env (subId - 1) w).map fun (ok, w) => basicResp env pubWagmanDeviceEnable subId (some ok) w

def commandStateMain (port : Int) (w : World) : Option UInt32 :=
  sensorMain (fun i => (dev w i).state.code) port

def commandState (subId : Int) (w : World) : World :=
  basicResp env pubWagmanDeviceState subId (commandStateMain (subId - 1) w) w

def commandBoots (w : World) : World :=
  basicResp env pubWagmanBoots 1 (some (Record.getBootCount w.hw.eeprom)) (ioRead env w)

def commandResetEEPROM (w : World) : World :=
  basicResp env pubWagmanEereset 1 (some 1) (Record.clearMagic env w)

/-! ## 要求の振り分け -/

/-- 復号された要求を一つ処理する。 -/
def dispatch (isadmin : Bool) (port : Int) (r : Request) (w : World) : Option World :=
  match Req.ofId r.id with
  | some .id => some (commandID env w)
  | some .cu => some (commandCurrent env r.subId w)
  | some .hb => some (commandHeartbeat env r.subId w)
  | some .boots => some (commandBoots env w)
  | some .fc => some (commandFailCount env r.subId w)
  | some .th => some (commandThermistor env r.subId w)
  | some .start => some (if isadmin then commandStart env r.subId w else w)
  | some .stop =>
      if isadmin then
        match r.value with
        | some after => commandStop env r.subId after w
        | none => some (basicResp env pubWagmanStop r.subId (some 0) w)
      else some w
  | some .deviceEnable => if isadmin then commandEnable env r.subId w else some w
  | some .deviceState => some (commandState env r.subId w)
  | some .getMediaSelect => some (commandGetMediaSelect env r.subId w)
  | some .setMediaSelect =>
      some <| if isadmin then
        match r.value with
        | some media => commandSetMediaSelect env r.subId media w
        | none => basicResp env pubWagmanSetMediaSelect r.subId (some 0) w
      else w
  | some .uptime => some (commandUptime env w)
  | some .eereset => some (if isadmin then commandResetEEPROM env w else w)
  | some .reset => some (if isadmin then commandReset env w else w)
  | some .ping => if isadmin ∨ port = r.subId - 1 then commandPing env r.subId w else some w
  | none => some w

/-- `while (d.decode())` の本体を、復号された要求の並びについて繰り返す。 -/
def processCommand (isadmin : Bool) (port : Int) (rs : List Request) (w : World) : Option World :=
  Run.run (dispatch env isadmin port) rs w

/-! ## 主ループの各部分 -/

def startNextDevice (w : World) : World :=
  if h : w.ram.deviceWantsStart.toNat < 5 then
    let i : Port := ⟨w.ram.deviceWantsStart.toNat, h⟩
    let w := (w.setRam { w.ram with startTimer := timerNow w }).mark (.next i true)
    let w := (Device.start env i w).2
    w.setRam { w.ram with deviceWantsStart := 255 }
  else if w.ram.startTimer.exceeds w.now 60000 then
    match (List.finRange 5).find? (fun i => Device.canStart i w) with
    | some i =>
        let w := (w.setRam { w.ram with startTimer := timerNow w }).mark (.next i false)
        (Device.start env i w).2
    | none => w
  else w

/-- タイマー割り込み。`state` は `CS_HB_PIN` の値である。 -/
def checkPinHB (state : Bool) (w : World) : World :=
  w.setRam { w.ram with
    detectHB := Function.update (Function.update (Function.update w.ram.detectHB
      2 (state != w.ram.lastHBPinState 2)) 3 false) 4 false
    lastHBPinState := Function.update w.ram.lastHBPinState 2 state }

def logStatus (w : World) : World :=
  let w := commandID env w
  let w := [1, 2, 3, 4, 5, 6].foldl (fun w port => commandCurrent env port w) w
  let w := [1, 2, 3, 4, 5].foldl (fun w port => commandFailCount env port w) w
  let w := [1, 2, 3, 4, 5].foldl (fun w port => commandVoltage env port w) w
  let w := [1, 2, 3, 4, 5].foldl (fun w port => commandThermistor env port w) w
  commandEnvironment env w

def updateStatus (w : World) : World :=
  if w.ram.statusTimer.exceeds w.now 60000 then
    logStatus env (w.setRam { w.ram with statusTimer := timerNow w })
  else w

def doResetBlink (w : World) : World :=
  let w := delay env 200 ([0, 1, 2].foldl (fun w i => setLED env i true w) w)
  delay env 200 ([0, 1, 2].foldl (fun w i => setLED env i false w) w)

/-- すべてのリレーを切ってから二つのリセット線を下げ、以後は戻らない。 -/
def doResetAll (w : World) : World :=
  let w := (List.range 6).foldl (fun w _ => delay env 10000 (doResetBlink env w)) w
  let w := (List.finRange 5).foldl (fun w i => delay env 5000 (doResetBlink env (setRelay env i false w))) w
  let w := (List.range 20).foldl (fun w _ => delay env 1000 (doResetBlink env w)) w
  let w := w |> digitalWrite env mr1 false |> digitalWrite env mr2 false
  w.setRam { w.ram with halted := true }

/-- `resetSystem` は戻らず、監視タイマーによるリセットを待つ。 -/
def updateReset (w : World) : World :=
  if w.ram.shouldResetSystem && w.ram.shouldResetTimer.exceeds w.now w.ram.shouldResetTimeout then
    w.setRam { w.ram with halted := true }
  else w

/-- `currentBaseline` -/
def currentBaseline : Port → UInt32
  | 2 => 150
  | _ => 200

/-- `for (i = 0; i < 5; i++) if (f i) setLED(i + 1, on)` -/
def blink (f : Port → Bool) (on : Bool) (w : World) : World :=
  (List.finRange 5).foldl (fun w i => if f i then setLED env (i.val + 1) on w else w) w

/-- 主ループの末尾。電流を読み、心拍の検出を数え、LED に表す。 -/
def updateLEDs (w : World) : World :=
  let powered : Port → Bool := fun i => decide (currentBaseline i ≤ env.current (w.io + i) i)
  let w := (List.finRange 5).foldl (fun w _ => ioRead env w) w
  let shouldBlink := w.ram.detectHB
  let w := w.setRam { w.ram with
    detectHB := fun i => if shouldBlink i then false else w.ram.detectHB i
    heartbeatCounters := fun i =>
      if shouldBlink i then w.ram.heartbeatCounters i + 1 else w.ram.heartbeatCounters i }
  let w := w |> setLED env 0 false
    |> blink env shouldBlink false
    |> delay env 50
    |> setLED env 0 true
    |> blink env shouldBlink true
  (List.finRange 5).foldl (fun w i => setLED env (i.val + 1) (powered i) w) w

/-! ## 起動 -/

/-- `Wagman::init` -/
def wagmanInit (w : World) : World :=
  let w := digitalWrite env ncAutoDisable false w
  let w := w.setRam { w.ram with
    heartbeatCounters := fun _ => 0
    wireEnabled := Record.getWireEnabled w.hw.eeprom }
  w |> delay env 200 |> delay env 200

/-- `setupDevices` の表。書かれない欄は静的な初期値のままである。 -/
def setupDevice (i : Port) (d : Device) : Device :=
  match i with
  | 0 => { d with
      bootSelector := 0, primaryMedia := .emmc, secondaryMedia := .sd, watchHeartbeat := true, watchCurrent := false }
  | 1 => { d with
      bootSelector := 1, primaryMedia := .emmc, secondaryMedia := .sd, watchHeartbeat := true, watchCurrent := false }
  | 2 => { d with primaryMedia := .emmc, secondaryMedia := .sd, watchHeartbeat := true, watchCurrent := false }
  | 3 => { d with watchHeartbeat := false, watchCurrent := false }
  | 4 => { d with watchHeartbeat := false, watchCurrent := false }

def setupDevices (w : World) : World :=
  let w := w.setRam { w.ram with devices := fun i => setupDevice i (w.ram.devices i) }
  (List.finRange 5).foldl (fun w i => Device.init env i w) w

/-- `Record::init` の後の LED の点滅。 -/
def initBlink (w : World) : World :=
  w |> setLEDs env true |> delay env 40 |> setLEDs env false |> delay env 40

/-- `setup` のうち、`setupDevices` の直前までの部分。 -/
def prepare (w : World) : World :=
  let w :=
    if Record.initialized w.hw.eeprom then wagmanInit env w
    else (List.range 8).foldl (fun w _ => initBlink env w) (wagmanInit env (Record.init env w))
  let setupTime := getTime env w
  let w := ioRead env w
  let w := Record.setLastBootTime env setupTime w
  Record.incrementBootCount env w

/-- `setup` のうち、`setupDevices` の後、ポート 0 の `start` の直前までの部分。 -/
def arm (w : World) : World :=
  let w := w.setRam { w.ram with
    deviceWantsStart := 0
    startTimer := timerNow w
    statusTimer := timerNow w
    shouldResetSystem := false
    shouldResetTimeout := 0 }
  -- 時計が `BUILD_TIME` より前なら合わせる
  ioRead env w

def setup (w : World) : World := (Device.start env 0 (arm env (setupDevices env (prepare env w)))).2

/-- 電源が入った直後の状態。ピンの出力は任意である。 -/
def powerOn (h : Hardware) : World := { hw := h, ram := {}, now := 0, io := 0, log := [] }

/-! ## 実行 -/

/-- 実行の一歩。`idle` は時間の経過、`pinHB` はタイマー割り込みで、残りは `loop` の部分である。
`processCommand` は復号された要求ごとの歩に分ける。 -/
inductive Op
  | idle (ms : Nat)
  | pinHB (state : Bool)
  | startNext
  | update (i : Port)
  | request (isadmin : Bool) (port : Int) (r : Request)
  | resetAll
  | status
  | reset
  | leds

/-- 戻らない関数に入った後は、ファームウェアは何もしない。 -/
def step (o : Op) (w : World) : Option World :=
  if w.ram.halted then some w
  else
    match o with
    | .idle ms => some (delay env ms w)
    | .pinHB s => some (checkPinHB s w)
    -- リセットを決めた後は、新しい機器を起動しない
    | .startNext => some (if w.ram.shouldResetSystem then w else startNextDevice env w)
    | .update i => some (Device.update env i w)
    | .request isadmin port r => dispatch env isadmin port r w
    | .resetAll => some (if w.ram.shouldResetAll then doResetAll env w else w)
    | .status => some (updateStatus env w)
    | .reset => some (updateReset w)
    | .leds => some (updateLEDs env w)

/-- 操作の並びの実行。 -/
abbrev run (ops : List Op) (w : World) : Option World := Run.run (step env) ops w

/-- `setup` を終えた状態。 -/
def booted (h : Hardware) : World := setup env (powerOn h)

/-- 遅れがなく、計測の値がすべて 0 の環境。具体的な実行を調べるときに使う。 -/
def Env.ideal : Env where
  latency _ := 0
  current _ _ := 0
  systemCurrent _ := 0
  voltage _ _ := 0
  thermistor _ _ := 0
  clock _ := 0
  clockId := []
  temperature _ := none
  humidity _ := none

/-- 初期化された EEPROM を持ち、すべてのリレーが切れた基板。ポート 1 だけを有効にしてある。 -/
def Hardware.ready : Hardware where
  eeprom
    | 0 => 0xa1
    | 1 => 0xad
    | 2 => 0xa1
    | 3 => 0xad
    | 384 => 1
    | _ => 0
  pin _ := false
  latch _ := false

/-- 一回の `loop` で五つの直列ポートから読んだ行。各行は復号された要求の並びである。 -/
structure PassInput where
  serialUSB : List (List Request)
  serial1 : List (List Request)
  serial2 : List (List Request)
  serial3 : List (List Request)
  serial : List (List Request)

/-- `processCommands(stream, buffer, isadmin, port)` は、各行の要求を順に処理する。 -/
def processCommands (isadmin : Bool) (port : Int) (lines : List (List Request)) : List Op :=
  lines.flatten.map (.request isadmin port)

/-- `loop` の一回の実行を、操作の並びとして表す。 -/
def loopOps (inp : PassInput) : List Op :=
  [.startNext] ++ (List.finRange 5).map .update ++
    processCommands true 0 inp.serialUSB ++ processCommands true 0 inp.serial1 ++
    processCommands false 1 inp.serial2 ++ processCommands false 2 inp.serial3 ++
    processCommands false 0 inp.serial ++ [.resetAll, .status, .reset, .leds]

end Wagman.V4
