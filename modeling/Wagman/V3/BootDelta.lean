import Wagman.V3.Record

/-!
# 起動の間隔（`firmware.ino`）

起動の記録から、起動の間隔の平均を求める。`Logger` の出力は、`logging` が真のときのものである。
-/

namespace Wagman.V3

variable (m : Nat → UInt8) (device : Port)

/-- `getEntry(i) - getEntry(i - 1)` -/
def bootGap (i : Nat) : UInt32 :=
  Record.BootLog.getEntry m device (UInt8.ofNat i) - Record.BootLog.getEntry m device (UInt8.ofNat (i - 1))

/-- `count` が 0 のときの割り算の値は定まらない。 -/
def meanBootDelta (maxSamples : UInt8) : Option UInt32 :=
  let count := if maxSamples < Record.BootLog.getCount m device then maxSamples else Record.BootLog.getCount m device
  let total := (List.range' 1 (count.toNat - 1)).foldl (fun total i => total + bootGap m device i) 0
  if count = 0 then none else some (total / count.toUInt32)

namespace Logger

/-- `begin` -/
def start (name : String) : List Out := [.text "log: ", .text name, .text " "]

/-- 値を一つずつ、前に空白を置いて書く。 -/
def values (vs : List UInt32) : List Out := vs.flatMap fun v => [.text " ", .num v.toNat]

/-- `end` -/
def finish : List Out := [.newline]

end Logger

def showBootLog : List Out :=
  let count := Record.BootLog.getCount m device
  Logger.start "bootlog" ++
    Logger.values ((List.range count.toNat).map fun i => Record.BootLog.getEntry m device (UInt8.ofNat i)) ++
    Logger.finish ++
    if 1 < count then
      Logger.start "bootdt" ++
        Logger.values ((List.range' 1 (min 4 count.toNat - 1)).map (bootGap m device)) ++
        (if (meanBootDelta m device 3).any (· < 200) then [.text " !"] else []) ++
        Logger.finish
    else []

end Wagman.V3
