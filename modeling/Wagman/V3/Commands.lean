import Wagman.V3.Device
import Wagman.Chars

/-!
# 文字による命令（`firmware.ino`）

行を引数に分け、先頭の引数を命令の名前として実行する。番号の引数は `atoi` で読み、下位の一バイトだけを使う。
-/

namespace Wagman.V3

variable (env : Env)

/-! ## 文字と引数 -/

/-- `atoi`。`int` は 16 ビットで、桁あふれは調べない。 -/
def atoi (s : List UInt8) : Int :=
  let n : Int := match s.dropWhile isspace with
    | 0x2d :: s => -digits s
    | 0x2b :: s => digits s
    | s => digits s
  Int.bmod n (2 ^ 16)

/-- `Wagman::validPort` を満たす番号。 -/
def port? (n : UInt8) : Option Port := if h : n.toNat < 5 then some ⟨n.toNat, h⟩ else none

/-- 引数を番号として読む。 -/
def portArg (s : List UInt8) : Option Port := port? (toByte (atoi s))

/-- `argv[k]`。`k < argc` のときだけ使う。 -/
def arg (argv : List (List UInt8)) (k : Nat) : List UInt8 := argv.getD k []

def maxArgc : Nat := 8

/-- `processCommand` が行を引数に分ける繰り返し。`room` は残りの引数の数で、続けるたびに一文字以上進む。 -/
def scanArgs : Nat → Nat → List UInt8 → List (List UInt8)
  | 0, _, _ => []
  | _, 0, _ => []
  | fuel + 1, room + 1, s =>
      let s := s.dropWhile isspace
      match s.takeWhile isgraph, s.dropWhile isgraph with
      | [], [] => []
      | [], _ :: rest => scanArgs fuel (room + 1) rest
      | a, [] => [a]
      | a, _ :: rest => a :: scanArgs fuel room rest

/-- 終端までの行を引数に分ける。 -/
def splitArgs (line : List UInt8) : List (List UInt8) :=
  let s := line.takeWhile (· ≠ 0)
  scanArgs (s.length + 1) maxArgc s

/-! ## 出力 -/

def prints (outs : List Out) (w : World) : World := outs.foldl (fun w o => print env o w) w

def println (out : Out) (w : World) : World := prints env [out, .newline] w

/-- `for (i = 0; i < 5; i++) f(i)` -/
def eachPort (f : Port → World → World) (w : World) : World :=
  (List.finRange 5).foldl (fun w i => f i w) w

/-- `printID`。八バイトの後ろの六バイトを十六進法で書く。 -/
def printID (id : List UInt8) (w : World) : World :=
  (id.drop 2).foldl (fun w b => prints env [.hex (b.toNat / 16), .hex (b.toNat % 16)] w) w

def printDate (dt : DateTime) (w : World) : World :=
  prints env [.num dt.year.toNat, .text " ", .num dt.month.toNat, .text " ", .num dt.day.toNat, .text " ",
    .num dt.hour.toNat, .text " ", .num dt.minute.toNat, .text " ", .num dt.second.toNat] w

/-! ## 命令ごとの関数 -/

section Commands

variable (argv : List (List UInt8)) (w : World)

def commandRTC : UInt8 × World := (0, println env (.num (env.clock w.io).toNat) (ioRead env w))

def commandPing : UInt8 × World :=
  if argv.length ≠ 2 then (errorInvalidArgc, w)
  else match portArg (arg argv 1) with
    | some i => (0, Device.sendExternalHeartbeat env i w)
    | none => (errorInvalidPort, w)

def commandStart : UInt8 × World :=
  if argv.length ≠ 2 then (errorInvalidArgc, w)
  else match portArg (arg argv 1) with
    | some i => (0, w.setRam { w.ram with deviceWantsStart := UInt8.ofNat i })
    | none => (errorInvalidPort, w)

def commandStop : UInt8 × World :=
  if argv.length ≤ 1 then (errorInvalidArgc, w)
  else match portArg (arg argv 1) with
    | some i =>
        if argv.length = 2 then (0, (Device.stop i (Device.setStopTimeout i 60000 w)).2)
        else if argv.length = 3 then
          (0, (Device.stop i (Device.setStopTimeout i (toLong (atoi (arg argv 2)) * 1000) w)).2)
        else (0, w)
    | none => (errorInvalidPort, w)

def commandReset : UInt8 × World :=
  let timeout :=
    if argv.length = 1 then 0
    else if argv.length = 2 then toLong (atoi (arg argv 1)) * 1000
    else w.ram.shouldResetTimeout
  (0, w.setRam { w.ram with
    shouldResetSystem := true
    shouldResetTimer := timerNow w
    shouldResetTimeout := timeout })

def commandID : UInt8 × World := (0, print env .newline (printID env (getID env w) (ioRead env w)))

def commandDate : UInt8 × World :=
  if argv.length = 1 then (0, print env .newline (printDate env (getDateTime env w) (ioRead env w)))
  else if argv.length = 7 then
    (0, setDateTime env {
      year := toWord (atoi (arg argv 1))
      month := toByte (atoi (arg argv 2))
      day := toByte (atoi (arg argv 3))
      hour := toByte (atoi (arg argv 4))
      minute := toByte (atoi (arg argv 5))
      second := toByte (atoi (arg argv 6)) } w)
  else (errorInvalidArgc, w)

def commandCurrent : UInt8 × World :=
  let w := print env (.num (getSystemCurrent env w).toNat) (ioRead env w)
  let w := eachPort (fun i w => prints env [.text " ", .num (getCurrent env i w).toNat] (ioRead env w)) w
  (0, print env .newline w)

def commandHeartbeat : UInt8 × World :=
  (0, eachPort (fun i w => println env (.num (Device.timeSinceHeartbeat i w).toNat) w) w)

def commandFailCount : UInt8 × World :=
  (0, eachPort (fun i w => println env (.num (Record.getBootFailures w.hw.eeprom i).toNat) (ioRead env w)) w)

def commandThermistor : UInt8 × World :=
  (0, eachPort (fun i w => println env (.num (getThermistor env i w).toNat) (ioRead env w)) w)

def commandEnvironment : UInt8 × World :=
  let w := prints env [.text "temperature=", .float (getTemperature env w), .newline] (ioRead env w)
  (0, prints env [.text "humidity=", .float (getHumidity env w), .newline] (ioRead env w))

def commandBootMedia : UInt8 × World :=
  if argv.length ≠ 2 ∧ argv.length ≠ 3 then (errorInvalidArgc, w)
  else match portArg (arg argv 1) with
    | none => (errorInvalidPort, w)
    | some i =>
        if argv.length = 3 then
          if arg argv 2 = ascii ['s', 'd'] then
            (0, println env (.text "set sd") (Device.setNextBootMedia env i .sd w))
          else if arg argv 2 = ascii ['e', 'm', 'm', 'c'] then
            (0, println env (.text "set emmc") (Device.setNextBootMedia env i .emmc w))
          else (0, println env (.text "invalid media") w)
        else
          match Device.getNextBootMedia i w with
          | .sd => (0, println env (.text "sd") (ioRead env w))
          | .emmc => (0, println env (.text "emmc") (ioRead env w))

def commandLog : UInt8 × World :=
  if argv.length = 2 then
    if arg argv 1 = ascii ['o', 'n'] then (0, w.setRam { w.ram with logging := true })
    else if arg argv 1 = ascii ['o', 'f', 'f'] then (0, w.setRam { w.ram with logging := false })
    else (0, w)
  else (0, w)

/-- リセットの原因の各ビット。`PORF` は 0、`EXTRF` は 1、`BORF` は 2、`WDRF` は 3 である。 -/
def flagged (bootflags : UInt8) (bit : Nat) : Bool := bootflags.toNat.testBit bit

def commandBootFlags : UInt8 × World :=
  let report (bit : Nat) (name : String) (w : World) : World :=
    if flagged w.ram.bootflags bit then println env (.text name) w else w
  (0, w |> report 3 "WDRF" |> report 2 "BORF" |> report 1 "EXTRF" |> report 0 "PORF")

def commandUptime : UInt8 × World :=
  (0, println env (.num (getTime env w - w.ram.setupTime).toNat) (ioRead env w))

/-- 引数の番号の機器について、順に `f` を行う。番号でない引数は読み飛ばす。 -/
def eachArg (f : Port → World → World) : World :=
  (argv.drop 1).foldl (fun w s => match portArg s with
    | some i => f i w
    | none => w) w

def commandEnable : UInt8 × World := (0, eachArg argv w (Device.enable env))

def commandDisable : UInt8 × World := (0, eachArg argv w (Device.disable env))

/-- `cu` でない名前は、すべて電流の監視を変える。 -/
def commandWatch : UInt8 × World :=
  if argv.length = 4 then
    match portArg (arg argv 1) with
    | some i =>
        let mode := decide (arg argv 3 = ascii ['t'])
        if arg argv 2 = ascii ['h', 'b'] then (0, setDev i { dev w i with watchHeartbeat := mode } w)
        else if arg argv 2 ≠ ascii ['c', 'u'] then (0, setDev i { dev w i with watchCurrent := mode } w)
        else (0, w)
    | none => (0, w)
  else (0, w)

def commandBoots : UInt8 × World :=
  (0, println env (.num (Record.getBootCount w.hw.eeprom).toNat) (ioRead env w))

def buildTime : Nat := 1587742757

def commandVersion : UInt8 × World :=
  (0, prints env [.text "hw ", .num 3, .text ".", .num 1, .newline,
    .text "ker ", .num 1, .text ".", .num 0, .text ".", .num 4, .newline,
    .text "time ", .num buildTime, .newline,
    .text "git ", .text "a64b494dad76e20a3b1549c1e7a4b1335be548f2", .newline] w)

def commandBLFlag : UInt8 × World :=
  if argv.length = 1 then
    let mode := Record.getBootloaderNodeController w.hw.eeprom
    let name := if mode = 0 then "off" else if mode = 1 then "sd" else if mode = 2 then "emmc" else "?"
    (0, println env (.text name) (ioRead env w))
  else if argv.length = 2 then
    if arg argv 1 = ascii ['o', 'f', 'f'] then (0, Record.setBootloaderNodeController env 0 w)
    else if arg argv 1 = ascii ['s', 'd'] then (0, Record.setBootloaderNodeController env 1 w)
    else if arg argv 1 = ascii ['e', 'm', 'm', 'c'] then (0, Record.setBootloaderNodeController env 2 w)
    else (0, println env (.text "invalid mode") w)
  else (0, w)

def commandResetEEPROM : UInt8 × World := (0, Record.clearMagic env w)

end Commands

/-! ## 命令の実行 -/

/-- `commands` の項目。 -/
inductive Command
  | rtc
  | ping
  | start
  | stop
  | reset
  | id
  | cu
  | hb
  | env
  | bs
  | th
  | date
  | bf
  | fc
  | up
  | enable
  | disable
  | watch
  | log
  | eereset
  | boots
  | ver
  | blf
  deriving DecidableEq, Repr

/-- `commands` の表の順の並び。 -/
def Command.table : List Command :=
  [.rtc, .ping, .start, .stop, .reset, .id, .cu, .hb, .env, .bs, .th, .date, .bf, .fc, .up, .enable, .disable,
    .watch, .log, .eereset, .boots, .ver, .blf]

def Command.name : Command → List UInt8
  | .rtc => ascii ['r', 't', 'c']
  | .ping => ascii ['p', 'i', 'n', 'g']
  | .start => ascii ['s', 't', 'a', 'r', 't']
  | .stop => ascii ['s', 't', 'o', 'p']
  | .reset => ascii ['r', 'e', 's', 'e', 't']
  | .id => ascii ['i', 'd']
  | .cu => ascii ['c', 'u']
  | .hb => ascii ['h', 'b']
  | .env => ascii ['e', 'n', 'v']
  | .bs => ascii ['b', 's']
  | .th => ascii ['t', 'h']
  | .date => ascii ['d', 'a', 't', 'e']
  | .bf => ascii ['b', 'f']
  | .fc => ascii ['f', 'c']
  | .up => ascii ['u', 'p']
  | .enable => ascii ['e', 'n', 'a', 'b', 'l', 'e']
  | .disable => ascii ['d', 'i', 's', 'a', 'b', 'l', 'e']
  | .watch => ascii ['w', 'a', 't', 'c', 'h']
  | .log => ascii ['l', 'o', 'g']
  | .eereset => ascii ['e', 'e', 'r', 'e', 's', 'e', 't']
  | .boots => ascii ['b', 'o', 'o', 't', 's']
  | .ver => ascii ['v', 'e', 'r']
  | .blf => ascii ['b', 'l', 'f']

def Command.func (c : Command) (argv : List (List UInt8)) (w : World) : UInt8 × World :=
  match c with
  | .rtc => commandRTC env w
  | .ping => commandPing env argv w
  | .start => commandStart argv w
  | .stop => commandStop argv w
  | .reset => commandReset argv w
  | .id => commandID env w
  | .cu => commandCurrent env w
  | .hb => commandHeartbeat env w
  | .env => commandEnvironment env w
  | .bs => commandBootMedia env argv w
  | .th => commandThermistor env w
  | .date => commandDate env argv w
  | .bf => commandBootFlags env w
  | .fc => commandFailCount env w
  | .up => commandUptime env w
  | .enable => commandEnable env argv w
  | .disable => commandDisable env argv w
  | .watch => commandWatch argv w
  | .log => commandLog argv w
  | .eereset => commandResetEEPROM env w
  | .boots => commandBoots env w
  | .ver => commandVersion env w
  | .blf => commandBLFlag env argv w

/-- `stale` は、引数のないときに読まれる、値の定まっていない `argv[0]` の指す文字列である。 -/
def executeCommand (sid : List UInt8) (argv : List (List UInt8)) (stale : List UInt8) (w : World) :
    World :=
  let name := argv.headD stale
  let w := prints env [.text "<<<- sid=", .word sid, .text " ", .word name, .newline] w
  let w := match Command.table.find? (·.name = name) with
    | some c => (c.func env argv w).2
    | none => println env (.text "invalid command") w
  println env (.text "->>>") w

def processCommand (line stale : List UInt8) (w : World) : World :=
  match splitArgs line with
  | [] => w
  | a :: rest =>
      -- 先頭が `@` なら、応答に付ける名前である
      if a.head? = some 0x40 then executeCommand env a.tail rest stale w
      else executeCommand env (ascii ['0']) (a :: rest) stale w

end Wagman.V3
