import Wagman.V4.Firmware
import Wagman.V3.Commands

/-!
# もう一つのファームウェア（`safemode`）

同じ基板の、もう一つのファームウェア。命令は文字の行で受け取り、ポート 0 のほかの機器を自動では起動しない。`Record.cpp` の全体と、
`Device.cpp` と `Wagman.cpp` の大部分は `regular_mode` と同じなので、その定義を使い、異なるものだけをここに置く。
-/

namespace Wagman.V4.Safemode

/-- 基板の状態。`regular_mode` と同じである。 -/
abbrev Board := V4.World

/-! ## 機器（`Device.cpp`） -/

namespace Device

variable (env : V4.Env)

def heartbeatTimeout : UInt32 := 300000

/-- 止まっている機器だけを起動する。 -/
def start (i : Port) (w : Board) : UInt8 × Board :=
  if (dev w i).state = .stopped then (0, Device.powerUp env i w) else (errorInvalidAction, w)

def updateHeartbeat (i : Port) (w : Board) : Board :=
  if 8 ≤ w.ram.heartbeatCounters i then
    Device.onHeartbeat env i
      (w.setRam { w.ram with heartbeatCounters := Function.update w.ram.heartbeatCounters i 0 })
  else w

/-- 心拍が途絶えていれば、失敗を数えて止める。 -/
def checkHeartbeat (i : Port) (w : Board) : Board :=
  if (dev w i).watchHeartbeat && (dev w i).heartbeatTimer.exceeds w.now heartbeatTimeout then
    (Device.stop env i (Record.incrementBootFailures env i w)).2
  else w

def updateStartedManaged (i : Port) (w : Board) : Board :=
  w |> checkHeartbeat env i
    |> Device.checkCurrent i

def updateStarted (i : Port) (w : Board) : Board :=
  if (dev w i).managed then updateStartedManaged env i w else Device.updateStartedUnmanaged env i w

/-- `STATE_STARTING` に入れる関数はないので、その場合はない。 -/
def updateState (i : Port) (w : Board) : Board :=
  match (dev w i).state with
  | .disabled => Device.updateDisabled env i w
  | .stopped => w
  | .started => updateStarted env i w
  | .stopping => Device.updateStopping env i w

def update (i : Port) (w : Board) : Board :=
  w |> updateHeartbeat env i
    |> Device.updateFault env i
    |> updateState env i

end Device

/-! ## 全体の状態 -/

/-- 挿してあるカード。`volume` は、区画の種類、クラスタの数、クラスタごとのブロックの数で、区画がなければ `none` である。 -/
structure Card where
  kind : Nat
  volume : Option (Nat × UInt32 × UInt32)

/-- ファームウェアの外の世界。`temperature` と `humidity` は単精度の数のビット列である。 -/
structure Env where
  board : V4.Env
  dateTime : Nat → V3.DateTime
  temperature : Nat → UInt32
  humidity : Nat → UInt32
  card : Nat → Card
  /-- 1024.0 で割った単精度の数 -/
  kilo : UInt32 → UInt32

/-- 基板と、そのほかの状態。 -/
structure World where
  board : Board
  /-- `SerialUSB` に書いた項目 -/
  said : List V3.Out := []
  /-- `hello` と返事をした機器 -/
  greeted : List Port := []
  /-- 時計に合わせた日時 -/
  dates : List V3.DateTime := []
  logging : Bool := true

namespace World

/-- 基板だけを変える。 -/
def act (f : Board → Board) (w : World) : World := { w with board := f w.board }

def print (outs : List V3.Out) (w : World) : World := { w with said := w.said ++ outs }

def println (out : V3.Out) (w : World) : World := w.print [out, .newline]

end World

variable (env : Env)

/-- 値を読む入出力。 -/
def ioRead (w : World) : World := w.act (V4.ioRead env.board)

/-- `for (i = 0; i < 5; i++) f(i)` -/
def eachPort (f : Port → World → World) (w : World) : World := (List.finRange 5).foldl (fun w i => f i w) w

/-! ## 命令ごとの関数（`firmware.ino`） -/

/-- `atoi`。`int` は 32 ビットで、範囲を外れた数は範囲の端とする。 -/
def atoi (s : List UInt8) : Int :=
  let n : Int := match s.dropWhile isspace with
    | 0x2d :: s => -digits s
    | 0x2b :: s => digits s
    | s => digits s
  max (-2 ^ 31) (min n (2 ^ 31 - 1))

/-- 引数を番号として読む。 -/
def portArg (s : List UInt8) : Option Port := V3.port? (toByte (atoi s))

section Commands

variable (argv : List (List UInt8)) (w : World)

def printID (id : List UInt8) : World :=
  (id.drop 2).foldl (fun w b => w.print [.hex (b.toNat / 16), .hex (b.toNat % 16)]) w

def printDate (dt : V3.DateTime) : World :=
  w.print [.num dt.year.toNat, .text " ", .num dt.month.toNat, .text " ", .num dt.day.toNat, .text " ",
    .num dt.hour.toNat, .text " ", .num dt.minute.toNat, .text " ", .num dt.second.toNat]

def commandRTC : UInt8 × World := (0, (ioRead env w).println (.num (env.board.clock w.board.io).toNat))

def commandPing : UInt8 × World :=
  if argv.length ≠ 2 then (V3.errorInvalidArgc, w)
  else match portArg (V3.arg argv 1) with
    | some i => (0, w.act (Device.sendExternalHeartbeat env.board i))
    | none => (V3.errorInvalidPort, w)

def commandStart : UInt8 × World :=
  if argv.length ≠ 2 then (V3.errorInvalidArgc, w)
  else match portArg (V3.arg argv 1) with
    | some i => (0, w.act fun b => b.setRam { b.ram with deviceWantsStart := UInt8.ofNat i })
    | none => (V3.errorInvalidPort, w)

def commandStop : UInt8 × World :=
  if argv.length ≤ 1 then (V3.errorInvalidArgc, w)
  else match portArg (V3.arg argv 1) with
    | some i =>
        if argv.length = 2 then
          (0, w.act fun b => (Device.stop env.board i (Device.setStopTimeout i 60000 b)).2)
        else if argv.length = 3 then
          let timeout := toLong (atoi (V3.arg argv 2)) * 1000
          (0, w.act fun b => (Device.stop env.board i (Device.setStopTimeout i timeout b)).2)
        else (0, w)
    | none => (V3.errorInvalidPort, w)

def commandReset : UInt8 × World :=
  let timeout :=
    if argv.length = 1 then 0
    else if argv.length = 2 then toLong (atoi (V3.arg argv 1)) * 1000
    else w.board.ram.shouldResetTimeout
  (0, w.act fun b => b.setRam { b.ram with
    shouldResetSystem := true
    shouldResetTimer := timerNow b
    shouldResetTimeout := timeout })

def commandID : UInt8 × World :=
  let id := if w.board.ram.wireEnabled then env.board.clockId else List.replicate 8 0xff
  (0, (printID (ioRead env w) id).print [.newline])

def commandDate : UInt8 × World :=
  if argv.length = 1 then
    let dt := if w.board.ram.wireEnabled then env.dateTime w.board.io else ⟨0, 0, 0, 0, 0, 0⟩
    (0, (printDate (ioRead env w) dt).print [.newline])
  else if argv.length = 7 then
    let dt : V3.DateTime := {
      year := toWord (atoi (V3.arg argv 1))
      month := toByte (atoi (V3.arg argv 2))
      day := toByte (atoi (V3.arg argv 3))
      hour := toByte (atoi (V3.arg argv 4))
      minute := toByte (atoi (V3.arg argv 5))
      second := toByte (atoi (V3.arg argv 6)) }
    (0, if w.board.ram.wireEnabled then { ioRead env w with dates := w.dates ++ [dt] } else w)
  else (V3.errorInvalidArgc, w)

def commandCurrent : UInt8 × World :=
  let w := (ioRead env w).print [.num (env.board.systemCurrent w.board.io).toNat]
  let w := eachPort (fun i w => (ioRead env w).print [.text " ", .num (env.board.current w.board.io i).toNat]) w
  (0, w.print [.newline])

def commandHeartbeat : UInt8 × World :=
  (0, eachPort (fun i w => w.println (.num (Device.timeSinceHeartbeat i w.board).toNat)) w)

def commandFailCount : UInt8 × World :=
  (0, eachPort (fun i w => (ioRead env w).println (.num (Record.getBootFailures w.board.hw.eeprom i).toNat)) w)

def commandThermistor : UInt8 × World :=
  (0, eachPort (fun i w => (ioRead env w).println (.num (env.board.thermistor w.board.io i).toNat)) w)

def commandEnvironment : UInt8 × World :=
  let read (f : Nat → UInt32) (w : World) := if w.board.ram.wireEnabled then f w.board.io else V3.nan
  let w := (ioRead env w).print [.text "temperature=", .float (read env.temperature w), .newline]
  (0, (ioRead env w).print [.text "humidity=", .float (read env.humidity w), .newline])

def commandBootMedia : UInt8 × World :=
  if argv.length ≠ 2 ∧ argv.length ≠ 3 then (V3.errorInvalidArgc, w)
  else match portArg (V3.arg argv 1) with
    | none => (V3.errorInvalidPort, w)
    | some i =>
        if argv.length = 3 then
          if V3.arg argv 2 = ascii ['s', 'd'] then
            (0, (w.act (Device.setNextBootMedia env.board i .sd)).println (.text "set sd"))
          else if V3.arg argv 2 = ascii ['e', 'm', 'm', 'c'] then
            (0, (w.act (Device.setNextBootMedia env.board i .emmc)).println (.text "set emmc"))
          else (0, w.println (.text "invalid media"))
        else
          match Device.getNextBootMedia i w.board with
          | .sd => (0, (ioRead env w).println (.text "sd"))
          | .emmc => (0, (ioRead env w).println (.text "emmc"))

def commandLog : UInt8 × World :=
  if argv.length = 2 then
    if V3.arg argv 1 = ascii ['o', 'n'] then (0, { w with logging := true })
    else if V3.arg argv 1 = ascii ['o', 'f', 'f'] then (0, { w with logging := false })
    else (0, w)
  else (0, w)

/-- `bootflags` は 0 のままなので、何も書かない。 -/
def commandBootFlags : UInt8 × World := (0, w)

def commandUptime : UInt8 × World := (0, w.println (.num (Clock.read w.board.now / 1000).toNat))

/-- 引数の番号の機器について、順に `f` を行う。番号でない引数は読み飛ばす。 -/
def eachArg (f : Port → Board → Board) : World :=
  (argv.drop 1).foldl (fun w s => match portArg s with
    | some i => w.act (f i)
    | none => w) w

def commandEnable : UInt8 × World := (0, eachArg argv w (Device.enable env.board))

def commandDisable : UInt8 × World := (0, eachArg argv w (Device.disable env.board))

/-- `cu` でない名前は、すべて電流の監視を変える。 -/
def commandWatch : UInt8 × World :=
  if argv.length = 4 then
    match portArg (V3.arg argv 1) with
    | some i =>
        let mode := decide (V3.arg argv 3 = ascii ['t'])
        if V3.arg argv 2 = ascii ['h', 'b'] then
          (0, w.act fun b => setDev i { dev b i with watchHeartbeat := mode } b)
        else if V3.arg argv 2 ≠ ascii ['c', 'u'] then
          (0, w.act fun b => setDev i { dev b i with watchCurrent := mode } b)
        else (0, w)
    | none => (0, w)
  else (0, w)

def commandBoots : UInt8 × World :=
  (0, (ioRead env w).println (.num (Record.getBootCount w.board.hw.eeprom).toNat))

def commandVersion : UInt8 × World :=
  (0, w.print [.text "hw ", .num 4, .text ".", .num 0, .newline,
    .text "ker ", .num 2, .text ".", .num 0, .text ".", .num 0, .newline,
    .text "time ", .num 1535751871, .newline,
    .text "git ", .text "04af", .newline])

def commandBLFlag : UInt8 × World :=
  if argv.length = 1 then
    let mode := Record.getBootloaderNodeController w.board.hw.eeprom
    let name := if mode = 0 then "off" else if mode = 1 then "sd" else if mode = 2 then "emmc" else "?"
    (0, (ioRead env w).println (.text name))
  else if argv.length = 2 then
    if V3.arg argv 1 = ascii ['o', 'f', 'f'] then (0, w.act (Record.setBootloaderNodeController env.board 0))
    else if V3.arg argv 1 = ascii ['s', 'd'] then (0, w.act (Record.setBootloaderNodeController env.board 1))
    else if V3.arg argv 1 = ascii ['e', 'm', 'm', 'c'] then
      (0, w.act (Record.setBootloaderNodeController env.board 2))
    else (0, w.println (.text "invalid mode"))
  else (0, w)

def commandResetEEPROM : UInt8 × World := (0, w.act (Record.clearMagic env.board))

/-- `card.type()` の名前。 -/
def cardName (kind : Nat) : String :=
  if kind = 1 then "SD1" else if kind = 2 then "SD2" else if kind = 3 then "SDHC" else "Unknown"

/-- 区画がなければ、戻らない。 -/
def commandSDInfo : UInt8 × World :=
  let card := env.card w.board.io
  let w := (ioRead env w).print [.text "Card Type : ", .text (cardName card.kind), .newline]
  match card.volume with
  | none =>
      (0, (w.println (.text "Could not find FAT16/FAT32 partition.\nMake sure you've formatted the card")).act
        fun b => b.setRam { b.ram with halted := true })
  | some (fatType, clusters, blocks) =>
      let kilobytes := blocks * clusters / 2
      (0, w.print [.text "Clusters : ", .num clusters.toNat, .newline,
        .text "Blocks x Cluster : ", .num blocks.toNat, .newline,
        .text "Total Blocks : ", .num (blocks * clusters).toNat, .newline, .newline,
        .text "Volume type is:    FAT", .num fatType, .newline,
        .text "Volume size (Kb):  ", .num kilobytes.toNat, .newline,
        .text "Volume size (Mb):  ", .num (kilobytes / 1024).toNat, .newline,
        .text "Volume size (Gb):  ", .float (env.kilo (kilobytes / 1024)), .newline])

end Commands

/-! ## 命令の実行 -/

/-- `commands` の項目。`sdinfo` のほかは、v3 と同じ名前である。 -/
inductive Command
  | common (c : V3.Command)
  | sdinfo
  deriving DecidableEq

def Command.table : List Command := V3.Command.table.map .common ++ [.sdinfo]

def Command.name : Command → List UInt8
  | .common c => c.name
  | .sdinfo => ascii ['s', 'd', 'i', 'n', 'f', 'o']

def Command.func (c : Command) (argv : List (List UInt8)) (w : World) : UInt8 × World :=
  match c with
  | .common .rtc => commandRTC env w
  | .common .ping => commandPing env argv w
  | .common .start => commandStart argv w
  | .common .stop => commandStop env argv w
  | .common .reset => commandReset argv w
  | .common .id => commandID env w
  | .common .cu => commandCurrent env w
  | .common .hb => commandHeartbeat w
  | .common .env => commandEnvironment env w
  | .common .bs => commandBootMedia env argv w
  | .common .th => commandThermistor env w
  | .common .date => commandDate env argv w
  | .common .bf => commandBootFlags w
  | .common .fc => commandFailCount env w
  | .common .up => commandUptime w
  | .common .enable => commandEnable env argv w
  | .common .disable => commandDisable env argv w
  | .common .watch => commandWatch argv w
  | .common .log => commandLog argv w
  | .common .eereset => commandResetEEPROM env w
  | .common .boots => commandBoots env w
  | .common .ver => commandVersion w
  | .common .blf => commandBLFlag env argv w
  | .sdinfo => commandSDInfo env w

/-- `stale` は、引数のないときに読まれる、値の定まっていない `argv[0]` の指す文字列である。 -/
def executeCommand (sid : List UInt8) (argv : List (List UInt8)) (stale : List UInt8) (w : World) : World :=
  let name := argv.headD stale
  let w := w.print [.text "<<<- sid=", .word sid, .text " ", .word name, .newline]
  let w := match Command.table.find? (·.name = name) with
    | some c => (c.func env argv w).2
    | none => w.println (.text "invalid command")
  -- 戻らない命令の後には、何も書かない
  if w.board.ram.halted then w else w.println (.text "->>>")

def processCommand (line stale : List UInt8) (w : World) : World :=
  match V3.splitArgs line with
  | [] => w
  | a :: rest =>
      if a.head? = some 0x40 then executeCommand env a.tail rest stale w
      else executeCommand env (ascii ['0']) (a :: rest) stale w

/-! ## 主ループの各部分 -/

/-- 自動で起動するのはポート 0 の機器だけである。`showBootLog` は、かかる時間だけを表す。 -/
def startNextDevice (env : V4.Env) (w : Board) : Board :=
  if h : w.ram.deviceWantsStart.toNat < 5 then
    let i : Port := ⟨w.ram.deviceWantsStart.toNat, h⟩
    let w := (w.setRam { w.ram with startTimer := timerNow w }).mark (.next i true)
    let w := (Device.start env i w).2
    w.setRam { w.ram with deviceWantsStart := 255 }
  else if w.ram.startTimer.exceeds w.now 60000 && Device.canStart 0 w then
    let w := (w.setRam { w.ram with startTimer := timerNow w }).mark (.next 0 false)
    V4.ioRead env (Device.start env 0 w).2
  else w

def updateStatus (w : Board) : Board :=
  if w.ram.statusTimer.exceeds w.now 60000 then w.setRam { w.ram with statusTimer := timerNow w } else w

/-- `currentBaseline` -/
def currentBaseline : Port → UInt32
  | 2 => 169
  | _ => 200

/-- `hello` -/
def hello : List UInt8 := ascii ['h', 'e', 'l', 'l', 'o']

/-- `readBytesUntil('\n', heartbeatBuffer, 32)` -/
def readLine (received : List UInt8) : List UInt8 := (received.takeWhile (· ≠ 10)).take 32

/-- 電源の入った機器から届いた行が `hello` で始まれば、心拍を数えて返事をする。 -/
def listen (i : Port) (powered : Bool) (received : List UInt8) (w : World) : Bool × World :=
  if powered && !received.isEmpty then
    let w := ioRead env w
    if hello.isPrefixOf (readLine received) then
      (true, { w.act (fun b => b.setRam { b.ram with
          heartbeatCounters := Function.update b.ram.heartbeatCounters i (b.ram.heartbeatCounters i + 1) }) with
        greeted := w.greeted ++ [i] })
    else (false, w)
  else (false, w)

/-- 0 番の LED と、返事をした機器の LED を、同時に点けるか消す。 -/
def blink (env : V4.Env) (heard₁ heard₂ on : Bool) (b : Board) : Board :=
  let b := setLED env 0 on b
  let b := if heard₁ then setLED env 1 on b else b
  if heard₂ then setLED env 2 on b else b

/-- 主ループの末尾。`serial1` と `serial2` は、二つの機器から届いたバイトである。 -/
def updateLEDs (serial1 serial2 : List UInt8) (w : World) : World :=
  let powered : Port → Bool := fun i => decide (currentBaseline i ≤ env.board.current (w.board.io + i) i)
  let w := eachPort (fun _ w => ioRead env w) w
  let w := eachPort (fun i w => w.act (setLED env.board (i.val + 1) (powered i))) w
  let r₁ := listen env 0 (powered 0) serial1 w
  let r₂ := listen env 1 (powered 1) serial2 r₁.2
  r₂.2.act fun b => b |> blink env.board r₁.1 r₂.1 false
    |> delay env.board 50
    |> blink env.board r₁.1 r₂.1 true

/-! ## 起動 -/

/-- `setupDevices` の表。書かれない欄は静的な初期値のままである。 -/
def setupDevice (i : Port) (d : Device) : Device :=
  match i with
  | 0 => { d with
      bootSelector := 0, primaryMedia := .sd, secondaryMedia := .emmc, watchHeartbeat := true, watchCurrent := false }
  | 1 => { d with
      bootSelector := 1, primaryMedia := .sd, secondaryMedia := .emmc, watchHeartbeat := true, watchCurrent := false }
  | 2 => { d with primaryMedia := .sd, secondaryMedia := .emmc, watchHeartbeat := false, watchCurrent := false }
  | 3 => { d with watchHeartbeat := false, watchCurrent := false }
  | 4 => { d with watchHeartbeat := false, watchCurrent := false }

def setupDevices (env : V4.Env) (w : Board) : Board :=
  let w := w.setRam { w.ram with devices := fun i => setupDevice i (w.ram.devices i) }
  (List.finRange 5).foldl (fun w i => Device.init env i w) w

/-- ポート 0 の `start` は、主ループに任せる。 -/
def setup (env : V4.Env) (w : Board) : Board := arm env (setupDevices env (prepare env w))

/-- `setup` を終えた状態。 -/
def booted (h : Hardware) : World := { board := setup env.board (powerOn h) }

/-! ## 実行 -/

/-- 実行の一歩。`idle` は時間の経過で、残りは `loop` の部分である。 -/
inductive Op
  | idle (ms : Nat)
  | startNext
  | update (i : Port)
  | line (line stale : List UInt8)
  | status
  | reset
  | leds (serial1 serial2 : List UInt8)

/-- 戻らない関数に入った後は、ファームウェアは何もしない。 -/
def step (o : Op) (w : World) : World :=
  if w.board.ram.halted then w
  else
    match o with
    | .idle ms => w.act (delay env.board ms)
    -- リセットを決めた後は、新しい機器を起動しない
    | .startNext => if w.board.ram.shouldResetSystem then w else w.act (startNextDevice env.board)
    | .update i => w.act (Device.update env.board i)
    | .line line stale => processCommand env line stale w
    | .status => w.act updateStatus
    | .reset => w.act updateReset
    | .leds serial1 serial2 => updateLEDs env serial1 serial2 w

/-- 遅れがなく、計測の値がすべて 0 で、カードに区画のない環境。具体的な実行を調べるときに使う。 -/
def Env.ideal : Env where
  board := V4.Env.ideal
  dateTime _ := ⟨0, 0, 0, 0, 0, 0⟩
  temperature _ := 0
  humidity _ := 0
  card _ := ⟨0, none⟩
  kilo _ := 0

/-- 操作の並びの実行。 -/
def run (ops : List Op) (w : World) : World := ops.foldl (fun w o => step env o w) w

end Wagman.V4.Safemode
