import Mathlib.Data.UInt

/-!
# 文字と数の変換

C の `ctype.h` の述語と、十進法の読み取り、整数型の変換。文字はバイトで表す。
-/

namespace Wagman

/-- 文字列の定数。 -/
def ascii (s : List Char) : List UInt8 := s.map fun c => UInt8.ofNat c.toNat

def isspace (c : UInt8) : Bool := c == 0x20 || (9 ≤ c && c ≤ 13)

def isgraph (c : UInt8) : Bool := 0x21 ≤ c && c ≤ 0x7e

def isdigit (c : UInt8) : Bool := 0x30 ≤ c && c ≤ 0x39

theorem isspace_of_isdigit {c : UInt8} (h : isdigit c = true) : isspace c = false := by
  simp only [isspace, isdigit, Bool.and_eq_true, decide_eq_true_eq, Bool.or_eq_false_iff, beq_eq_false_iff_ne, ne_eq,
    ← UInt8.toNat_inj, Bool.and_eq_false_iff, decide_eq_false_iff_not, UInt8.le_iff_toNat_le,
    UInt8.reduceToNat] at h ⊢
  omega

/-- 先頭の数字の並びを十進法で読む。 -/
def digits (s : List UInt8) : Nat := (s.takeWhile isdigit).foldl (fun n c => 10 * n + (c.toNat - 0x30)) 0

/-- `byte` への変換。 -/
def toByte (n : Int) : UInt8 := UInt8.ofNat (n % 2 ^ 8).toNat

/-- `uint16_t` への変換。 -/
def toWord (n : Int) : UInt16 := UInt16.ofNat (n % 2 ^ 16).toNat

/-- `unsigned long` への変換。 -/
def toLong (n : Int) : UInt32 := UInt32.ofNat (n % 2 ^ 32).toNat

end Wagman
