import Wagman.Lib.Gf2
import Mathlib.Data.UInt

/-!
# 温度と湿度の計測器（`HTU21D.cpp`）

計測器は、計測値の二バイトと検査の一バイトを送る。`Bus` は、`requestFrom` の後に `available()` が返す数と、`read()` が返すバイトを表す。
`float` に変えた計測値は 16 ビットの整数で、`float` で正確に表せるので、自然数で表す。
-/

namespace Wagman.V3.HTU21D

/-- `SHIFTED_DIVISOR` -/
def shiftedDivisor : UInt32 := 0x988000

/-- `check_crc` の、`i` からの `n` 回の繰り返し。 -/
def checkLoop : Nat → Nat → UInt32 → UInt32 → UInt32
  | 0, _, remainder, _ => remainder
  | n + 1, i, remainder, divsor =>
      let remainder := if remainder &&& 1 <<< UInt32.ofNat (23 - i) ≠ 0 then remainder ^^^ divsor else remainder
      checkLoop n (i + 1) remainder (divsor >>> 1)

/-- `check_crc` -/
def checkCrc (message_from_sensor : UInt16) (check_value_from_sensor : UInt8) : UInt8 :=
  (checkLoop 16 0 (message_from_sensor.toUInt32 <<< 8 ||| check_value_from_sensor.toUInt32) shiftedDivisor).toUInt8

/-- 一度の計測での、`Wire` の振る舞い。`available k` は、`k` 度目に調べたときの数である。 -/
structure Bus where
  available : Nat → Nat
  msb : UInt8
  lsb : UInt8
  checksum : UInt8

/-- `readHumidity` の待つ繰り返し。終わったときの `timeout` を返す。`n` は 100 までの残りである。 -/
def waitHumidity (available : Nat → Nat) : Nat → Nat → Nat
  | 0, timeout => timeout
  | n + 1, timeout => if available timeout < 3 then waitHumidity available n (timeout + 1) else timeout

/-- `readTemperature` の待つ繰り返し。間に合わなければ `false` である。 -/
def waitTemperature (available : Nat → Nat) : Nat → Nat → Bool
  | 0, _ => false
  | n + 1, counter => if available counter < 3 then waitTemperature available n (counter + 1) else true

/-- 届いた三バイトから得る値。 -/
def decode (bus : Bus) : Nat :=
  let raw := bus.msb.toUInt16 <<< 8 ||| bus.lsb.toUInt16
  if checkCrc raw bus.checksum ≠ 0 then 999 else (raw &&& 0xfffc).toNat

def readHumidity (bus : Bus) : Nat := if 100 ≤ waitHumidity bus.available 100 0 then 998 else decode bus

def readTemperature (bus : Bus) : Nat := if waitTemperature bus.available 101 0 then decode bus else 998

end Wagman.V3.HTU21D
