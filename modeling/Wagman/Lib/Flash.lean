import Mathlib.Data.UInt
import Mathlib.Logic.Function.Basic

/-!
# ページごとに消して書くフラッシュメモリー

消去はページのすべてのビットを 1 にし、書き込みは 1 のビットを 0 にするだけである。書き込む値は、語ごとに一度だけ書ける一時の
バッファーに用意する。
-/

namespace Flash

/-! ## 一時のバッファー -/

/-- 語ごとの値。書かれていない語は `none` である。 -/
abbrev Buffer := Nat → Option UInt16

namespace Buffer

def empty : Buffer := fun _ => none

/-- `k` 番目の語に書く。すでに書かれていれば変わらない。 -/
def fill (k : Nat) (v : UInt16) (b : Buffer) : Buffer := Function.update b k (some ((b k).getD v))

/-- 下位のバイトが偶数番目にある。 -/
def byte (b : Buffer) (x : Nat) : UInt8 :=
  let v := (b (x / 2)).getD 0xffff
  if x % 2 = 0 then v.toUInt8 else (v >>> 8).toUInt8

/-- 二つのバイトからなる語。 -/
def word (lo hi : UInt8) : UInt16 := hi.toUInt16 <<< 8 ||| lo.toUInt16

end Buffer

/-! ## 消去と書き込み -/

section Page

-- ページの大きさ
variable (size : Nat)

/-- 番地 `a` を含むページを消す。 -/
def erase (a : Nat) (m : Nat → UInt8) : Nat → UInt8 := fun x => if x / size = a / size then 0xff else m x

/-- 番地 `a` を含むページに書く。 -/
def program (a : Nat) (b : Buffer) (m : Nat → UInt8) : Nat → UInt8 :=
  fun x => if x / size = a / size then m x &&& b.byte (x % size) else m x

variable {size}

theorem erase_of_ne {a x : Nat} (h : x / size ≠ a / size) (m : Nat → UInt8) : erase size a m x = m x := if_neg h

theorem program_of_ne {a x : Nat} (h : x / size ≠ a / size) (b : Buffer) (m : Nat → UInt8) :
    program size a b m x = m x :=
  if_neg h

end Page

/-! ## バッファーに用意する並び -/

namespace Buffer

end Buffer

end Flash
