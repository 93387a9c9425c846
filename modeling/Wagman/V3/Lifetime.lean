import Wagman.V3.Firmware
import Wagman.Lib.Lifetime

/-!
# 電源の投入の繰り返し

基板は、起動し、どこかで途切れ、また起動することを繰り返す。途切れるのは二つの事象の間のどこでもよく、EEPROM の内容だけが次の
起動に残る。
-/

namespace Wagman.V3

open Machine

/-- 一回の投入。`bootflags` はブートローダーが `0x41` 番地に残すリセットの原因、`pin` は電源が入った直後のピンの状態、`lost` は
途切れたために起きなかった事象の数である。 -/
structure Life where
  env : Env
  bootflags : UInt8
  pin : Nat → Bool
  ops : List Op
  lost : Nat

namespace Life

/-- 電源が入った直後の装置の状態。 -/
def start (b : Life) (eeprom : Nat → UInt8) : Hardware where
  eeprom := Bytes.store 0x41 b.bootflags eeprom
  pin := b.pin

/-- 途切れるまでの記録。 -/
def log (b : Life) (eeprom : Nat → UInt8) : Log := (run b.env b.ops (booted b.env (b.start eeprom))).log.drop b.lost

/-- 途切れたときに残る EEPROM の内容。 -/
def after (b : Life) (eeprom : Nat → UInt8) : Nat → UInt8 := (replay (b.start eeprom) (b.log eeprom)).eeprom

end Life

/-- 投入を繰り返したときの、それぞれの記録。 -/
def lifetime (bs : List Life) (eeprom : Nat → UInt8) : List Log := Lifetime.logs Life.log Life.after bs eeprom

end Wagman.V3
