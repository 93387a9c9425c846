import Wagman.V3.Record

/-!
# 機器の状態機械（`Device.cpp`）

各関数は `devices[i]` に対するメンバー関数である。戻り値のあるものは、戻り値と状態の組を返す。
-/

namespace Wagman.V3

/-- `devices[i]` -/
def dev (w : World) (i : Port) : Device := w.ram.devices i

/-- 一つの機器の記憶だけを置き換える。 -/
def Ram.setDevice (r : Ram) (i : Port) (d : Device) : Ram :=
  { r with devices := Function.update r.devices i d }

def setDev (i : Port) (d : Device) (w : World) : World := w.setRam (w.ram.setDevice i d)

/-- 今の時刻に `reset()` した計時。 -/
def timerNow (w : World) : DurationTimer := DurationTimer.reset w.now

namespace Device

variable (env : Env)

def heartbeatTimeout : UInt32 := 3600000
def stopMessageTimeout : UInt32 := 10000

/-- `changeState` が機器の記憶に残す結果。四つの計時をすべて `t` に始め直す。 -/
def enter (d : Device) (s : State) (t : DurationTimer) : Device :=
  { d with
    stateTimer := t
    stopMessageTimer := t
    heartbeatTimer := t
    currentLevelTimer := t
    state := s }

def changeState (i : Port) (newState : State) (w : World) : World :=
  (setDev i ((dev w i).enter newState (timerNow w)) w).mark (.state i newState)

def setStopTimeout (i : Port) (timeout : UInt32) (w : World) : World :=
  setDev i { dev w i with stopTimeout := timeout } w

def init (i : Port) (w : World) : World :=
  let w := setDev i { dev w i with
    shouldForceBootMedia := false
    forceBootMedia := .sd
    currentLevel := .low
    startDelay := 0 } w
  let w := setStopTimeout i 60000 w
  let enabled := Record.getDeviceEnabled w.hw.eeprom i
  let w := ioRead env w
  if enabled then changeState i .stopped w else changeState i .disabled w

def canStart (i : Port) (w : World) : Bool :=
  (dev w i).state == .stopped && (dev w i).stateTimer.exceeds w.now (dev w i).startDelay

def timeSinceHeartbeat (i : Port) (w : World) : UInt32 := (dev w i).heartbeatTimer.elapsed w.now

def getNextBootMedia (i : Port) (w : World) : Media :=
  let d := dev w i
  if d.shouldForceBootMedia then d.forceBootMedia
  else if d.managed then
    if Record.getBootFailures w.hw.eeprom i % 4 = 3 then d.secondaryMedia else d.primaryMedia
  else
    if Record.getBootAttempts w.hw.eeprom i % 2 = 1 then d.secondaryMedia else d.primaryMedia

def setNextBootMedia (i : Port) (media : Media) (w : World) : World :=
  let w := setDev i { dev w i with shouldForceBootMedia := true, forceBootMedia := media } w
  setBootMedia env (dev w i).bootSelector media w

/-- リレーの遷移を EEPROM に記しながら、リレーを動かす。`start` と `kill` の同じ部分である。 -/
def driveRelay (i : Port) (turning : UInt8) (on : Bool) (settled : UInt8) (w : World) : World :=
  w |> Record.setRelayState env i turning
    |> delay env 10
    |> setRelay env i on
    |> delay env 500
    |> Record.setRelayState env i settled
    |> delay env 10

/-- `start` のうち、次の媒体を選んで選択ピンに出すまでの部分。 -/
def selectMedia (i : Port) (w : World) : World :=
  let w := setDev i { dev w i with managed := decide (Record.getBootFailures w.hw.eeprom i < 1024) } w
  -- 強制の印に依るので、順序を変えてはならない
  let bootMedia := getNextBootMedia i w
  let w := setDev i { dev w i with shouldForceBootMedia := false } w
  setBootMedia env (dev w i).bootSelector bootMedia w

/-- `start` のうち、起動の回数と時刻を記録する部分。 -/
def recordBoot (i : Port) (w : World) : World :=
  let w := Record.incrementBootAttempts env i w
  let bootTime := getTime env w
  Record.BootLog.addEntry env i bootTime (ioRead env w)

/-- 受け付けられた `start` の本体。 -/
def powerUp (i : Port) (w : World) : World :=
  w |> selectMedia env i
    |> recordBoot env i
    |> driveRelay env i relayTurningOn true relayOn
    |> changeState i .started

def start (i : Port) (w : World) : UInt8 × World :=
  if (dev w i).state ≠ .stopped then (errorInvalidAction, w) else (0, powerUp env i w)

def stop (i : Port) (w : World) : UInt8 × World :=
  if (dev w i).state ≠ .started then (errorInvalidAction, w) else (0, changeState i .stopping w)

/-- 受け付けられた `kill` の本体。 -/
def powerDown (i : Port) (w : World) : World :=
  let w := changeState i .stopped (driveRelay env i relayTurningOff false relayOff w)
  w.setRam { w.ram with startTimer := timerNow w }

def kill (i : Port) (w : World) : UInt8 × World :=
  if (dev w i).state = .disabled then (errorInvalidAction, w) else (0, powerDown env i w)

def enable (i : Port) (w : World) : World :=
  changeState i .stopped (Record.setDeviceEnabled env i true (w.mark (.enable i)))

def disable (i : Port) (w : World) : World :=
  let w := if i ≠ 0 then Record.setDeviceEnabled env i false w else w
  let w := (kill env i w).2
  if i ≠ 0 then changeState i .disabled w else w

/-- 心拍の計時を始め直す。 -/
def beat (i : Port) (w : World) : World :=
  (setDev i { dev w i with heartbeatTimer := timerNow w } w).mark (.heartbeat i)

def onHeartbeat (i : Port) (w : World) : World :=
  let w := beat i w
  match (dev w i).state with
  -- 心拍がなくなるまで、無効にすることを繰り返す
  | .disabled => disable env i w
  | .stopped | .starting => changeState i .started w
  | .started | .stopping => w

def sendExternalHeartbeat (i : Port) (w : World) : World := onHeartbeat env i w

def updateHeartbeat (i : Port) (w : World) : World :=
  if 8 ≤ w.ram.heartbeatCounters i then
    onHeartbeat env i (w.setRam { w.ram with heartbeatCounters := Function.update w.ram.heartbeatCounters i 0 })
  else w

/-- 電流の値の段階。 -/
def currentLevelOf (current : UInt16) : CurrentLevel :=
  if current < 120 then .low
  else if current < 300 then .normal
  else if current < 850 then .stressed
  else .high

def updateFault (i : Port) (w : World) : World :=
  let current := getCurrent env i w
  let w := ioRead env w
  -- 0xffff は電流計の誤り
  if current = 0xffff then w
  else if currentLevelOf current ≠ (dev w i).currentLevel then
    setDev i { dev w i with currentLevelTimer := timerNow w, currentLevel := currentLevelOf current } w
  else w

def updateDisabled (i : Port) (w : World) : World :=
  if i = 0 ∧ (dev w i).stateTimer.exceeds w.now 60000 then enable env i w else w

def updateStarting (i : Port) (w : World) : World :=
  if (dev w i).stateTimer.exceeds w.now 300000 then (kill env i (Record.incrementBootFailures env i w)).2 else w

/-- 心拍が途絶えていれば、失敗を数えて止める。 -/
def checkHeartbeat (i : Port) (w : World) : World :=
  if (dev w i).watchHeartbeat && (dev w i).heartbeatTimer.exceeds w.now heartbeatTimeout then
    (stop i (Record.incrementBootFailures env i w)).2
  else w

def checkCurrent (i : Port) (w : World) : World :=
  if (dev w i).watchCurrent && (dev w i).currentLevelTimer.exceeds w.now 10000 then
    setDev i { dev w i with currentLevelTimer := timerNow w } w
  else w

def updateStartedManaged (i : Port) (w : World) : World :=
  w |> checkHeartbeat env i
    |> checkCurrent i

def updateStartedUnmanaged (i : Port) (w : World) : World :=
  if (dev w i).stateTimer.exceeds w.now 14400000 then
    let media := if getNextBootMedia i w = .sd then .emmc else .sd
    (stop i (setNextBootMedia env i media (ioRead env w))).2
  else w

def updateStarted (i : Port) (w : World) : World :=
  if (dev w i).managed then updateStartedManaged env i w else updateStartedUnmanaged env i w

def sendStopMessage (i : Port) (w : World) : World :=
  if (dev w i).stopMessageTimer.exceeds w.now stopMessageTimeout then
    setDev i { dev w i with stopMessageTimer := timerNow w } w
  else w

/-- 止めるための時間が過ぎていれば、リレーを切る。 -/
def checkStopTimeout (i : Port) (w : World) : World :=
  if (dev w i).stateTimer.exceeds w.now (dev w i).stopTimeout then
    (kill env i (setStopTimeout i 60000 w)).2
  else w

def updateStopping (i : Port) (w : World) : World :=
  w |> sendStopMessage i
    |> checkStopTimeout env i

/-- `updateStopped` は何もしない。 -/
def updateState (i : Port) (w : World) : World :=
  match (dev w i).state with
  | .disabled => updateDisabled env i w
  | .stopped => w
  | .starting => updateStarting env i w
  | .started => updateStarted env i w
  | .stopping => updateStopping env i w

def update (i : Port) (w : World) : World :=
  w |> updateHeartbeat env i
    |> updateFault env i
    |> updateState env i

end Device

end Wagman.V3
