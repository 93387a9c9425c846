import Wagman.V2.Firmware
import Wagman.Lib.Lifetime

/-!
# 電源の投入の繰り返し

基板は、起動し、どこかで途切れ、また起動することを繰り返す。途切れるのは二つの事象の間のどこでもよく、EEPROM の内容だけが次の
起動に残る。
-/

namespace Wagman.V2

open Machine

/-- 一回の投入。`lost` は、途切れたために起きなかった事象の数である。 -/
structure Life where
  env : Env
  ops : List Op
  lost : Nat

namespace Life

/-- 途切れるまでの記録。 -/
def log (b : Life) (e : Eeprom) : Log := (run b.env b.ops (setup b.env (powerOn e))).log.drop b.lost

/-- 途切れたときに残る EEPROM の内容。 -/
def after (b : Life) (e : Eeprom) : Eeprom := (replay (powerOn e).hw (b.log e)).eeprom

end Life

/-- 投入を繰り返したときの、全体の記録。新しい事象ほど前にある。 -/
def record (bs : List Life) (e : Eeprom) : Log := (Lifetime.logs Life.log Life.after bs e).reverse.flatten

end Wagman.V2
