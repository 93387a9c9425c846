import Wagman.V3.Commands
import Wagman.Lib.Calendar

/-!
# 時計（`Time.cpp`、`MCP79412RTC.cpp`）

時計は、書かれたバイトを保つレジスターの並びで、進まないものとする。I2C の誤りは表さない。AVR では `int` と `unsigned` は
16 ビット、`time_t` と `unsigned long` は 32 ビットである。`makeTime` は、表の外を読むと `none` になる。
-/

namespace Wagman.V3

/-! ## 秒数との変換 -/

/-- `tmElements_t`。`year` は 1970 年からの年数である。 -/
structure Elements where
  second : UInt8
  minute : UInt8
  hour : UInt8
  wday : UInt8
  day : UInt8
  month : UInt8
  year : UInt8
  deriving DecidableEq

/-- `SECS_PER_DAY` -/
def secsPerDay : UInt32 := 86400

/-- `LEAP_YEAR(Y)` -/
def leapYear (y : Nat) : Bool :=
  decide (0 < 1970 + y) && (1970 + y) % 4 == 0 && ((1970 + y) % 100 != 0 || (1970 + y) % 400 == 0)

def monthDays : List UInt8 := [31, 28, 31, 30, 31, 30, 31, 31, 30, 31, 30, 31]

/-- `makeTime` のうち、月の初めまでの秒数を加える繰り返しの本体。 -/
def addMonth (tm : Elements) (seconds : UInt32) (i : Nat) : Option UInt32 := do
  if i = 2 ∧ leapYear tm.year.toNat then some (seconds + secsPerDay * 29)
  else
    let days ← monthDays[i - 1]?
    some (seconds + secsPerDay * days.toUInt32)

def makeTime (tm : Elements) : Option UInt32 := do
  let seconds := tm.year.toUInt32 * (secsPerDay * 365)
  let seconds := (List.range tm.year.toNat).foldl (fun s i => if leapYear i then s + secsPerDay else s) seconds
  let seconds ← (List.range' 1 (tm.month.toNat - 1)).foldlM (addMonth tm) seconds
  -- 日が 0 なら、前の日になる
  let seconds := seconds + toLong ((tm.day.toNat : Int) - 1) * secsPerDay
  let seconds := seconds + tm.hour.toUInt32 * 3600
  let seconds := seconds + tm.minute.toUInt32 * 60
  some (seconds + tm.second.toUInt32)

/-- `breakTime` のうち、年を求める繰り返し。`(unsigned)` は 16 ビットへの変換である。 -/
def breakYear (time : UInt32) : Nat → UInt8 → UInt32 → Option (UInt8 × UInt32)
  | 0, _, _ => none
  | fuel + 1, year, days =>
      let days := days + if leapYear year.toNat then 366 else 365
      if days.toUInt16.toUInt32 ≤ time then breakYear time fuel (year + 1) days else some (year, days)

/-- `breakTime` のうち、月を求める繰り返し。`rest` は残りの月の数である。 -/
def breakMonth (year : UInt8) : Nat → UInt8 → UInt32 → UInt8 × UInt32
  | 0, month, time => (month, time)
  | rest + 1, month, time =>
      let monthLength : UInt8 :=
        if month = 1 then if leapYear year.toNat then 29 else 28
        else monthDays.getD month.toNat 0
      if monthLength.toUInt32 ≤ time then breakMonth year rest (month + 1) (time - monthLength.toUInt32)
      else (month, time)

def breakTime (timeInput : UInt32) : Option Elements := do
  let second := (timeInput % 60).toUInt8
  let time := timeInput / 60
  let minute := (time % 60).toUInt8
  let time := time / 60
  let hour := (time % 24).toUInt8
  let time := time / 24
  let wday := ((time + 4) % 7 + 1).toUInt8
  let (year, days) ← breakYear time 256 0 0
  let days := days - if leapYear year.toNat then 366 else 365
  let (month, time) := breakMonth year 12 0 (time - days)
  some { second, minute, hour, wday, day := (time + 1).toUInt8, month := month + 1, year }

/-! ## レジスター -/

/-- レジスターの内容。 -/
abbrev Registers := Nat → UInt8

def dec2bcd (n : UInt8) : UInt8 := n + 6 * (n / 10)

def bcd2dec (n : UInt8) : UInt8 := n - (6 : UInt8) * (n >>> 4)

namespace RTC

/-- 書き込みの間は発振器を止め、最後に秒とともに始める。 -/
def write (tm : Elements) (regs : Registers) : Registers :=
  regs |> Bytes.store 0 0x00
    |> Bytes.store 1 (dec2bcd tm.minute)
    |> Bytes.store 2 (dec2bcd tm.hour)
    |> Bytes.store 3 (tm.wday ||| 0x08)
    |> Bytes.store 4 (dec2bcd tm.day)
    |> Bytes.store 5 (dec2bcd tm.month)
    |> Bytes.store 6 (dec2bcd (tm.year - 30))
    |> Bytes.store 0 (dec2bcd tm.second ||| 0x80)

/-- `ST`、`HR1224`、`OSCON`、`VBAT`、`VBATEN`、`LP` のビットを除いて読む。 -/
def read (regs : Registers) : Elements where
  second := bcd2dec (regs 0 &&& 0x7f)
  minute := bcd2dec (regs 1)
  hour := bcd2dec (regs 2 &&& 0xbf)
  wday := regs 3 &&& 0xc7
  day := bcd2dec (regs 4)
  month := bcd2dec (regs 5 &&& 0xdf)
  year := bcd2dec (regs 6) + 30

def set (t : UInt32) (regs : Registers) : Option Registers := do
  let tm ← breakTime t
  some (write tm regs)

def get (regs : Registers) : Option UInt32 := makeTime (read regs)

end RTC

/-- `setup` のうち、時計が `BUILD_TIME` より前なら合わせる部分。 -/
def checkClock (regs : Registers) : Option Registers := do
  let t ← RTC.get regs
  if t < UInt32.ofNat buildTime then RTC.set (UInt32.ofNat buildTime) regs else some regs

/-! ## 日時 -/

/-- `setDateTime` が `makeTime` に渡す値。 -/
def DateTime.elements (dt : DateTime) : Elements where
  second := dt.second
  minute := dt.minute
  hour := dt.hour
  wday := 0
  day := dt.day
  month := dt.month
  year := (dt.year - 1970).toUInt8

/-- `getDateTime` が `read` の結果から作る値。 -/
def Elements.dateTime (tm : Elements) : DateTime where
  year := tm.year.toUInt16 + 1970
  month := tm.month
  day := tm.day
  hour := tm.hour
  minute := tm.minute
  second := tm.second

/-- 事象が時計に及ぼす作用。 -/
def Event.onClock : Event → Registers → Option Registers
  | .setDateTime dt, regs => do
      let t ← makeTime dt.elements
      RTC.set t regs
  | _, regs => some regs

/-- `w` から `w'` までに起きた事象の後の時計。事象は新しいものが先頭にある。 -/
def clockAfter (w w' : World) (regs : Registers) : Option Registers :=
  (w'.log.take (w'.log.length - w.log.length)).foldrM (fun x regs => x.event.onClock regs) regs

/-- 時計から読む `getDateTime` の値。 -/
def readDateTime (w : World) (regs : Registers) : DateTime :=
  if w.ram.wireEnabled then (RTC.read regs).dateTime else ⟨0, 0, 0, 0, 0, 0⟩

end Wagman.V3
