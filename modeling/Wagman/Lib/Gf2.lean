import Mathlib.Algebra.Polynomial.Div
import Mathlib.Algebra.Polynomial.FieldDivision
import Mathlib.Algebra.Field.ZMod
import Mathlib.Data.Nat.Bitwise
import Mathlib.Data.Nat.Size

/-!
# 2 を法とする多項式と、ビットの並び

自然数のビットの並びを、2 を法とする多項式とみなす。排他的論理和は和に、左への桁送りは `X` の冪との積に当たる。上の桁から除数を
引いていく割り算が余りを求めることと、余りで見つけられる誤りの種類を示す。
-/

open Polynomial

namespace Gf2

/-- ビットの並びの表す多項式。 -/
noncomputable def poly (w : Nat) : (ZMod 2)[X] := ∑ i ∈ Finset.range w.size, if w.testBit i then X ^ i else 0

theorem coeff_poly (w i : Nat) : (poly w).coeff i = if w.testBit i then 1 else 0 := by
  rw [poly, Polynomial.finsetSum_coeff]
  by_cases hi : i < w.size
  · rw [Finset.sum_eq_single_of_mem i (Finset.mem_range.mpr hi)]
    · split
      · exact coeff_X_pow_self i
      · rfl
    · intro j _ hj
      split
      · rw [coeff_X_pow, if_neg hj.symm]
      · rfl
  · have hlt : w < 2 ^ i := Nat.size_le.mp (Nat.le_of_not_lt hi)
    rw [Nat.testBit_lt_two_pow hlt, if_neg Bool.false_ne_true]
    refine Finset.sum_eq_zero fun j hj => ?_
    have hne : i ≠ j := by
      have := Finset.mem_range.mp hj
      omega
    split
    · rw [coeff_X_pow, if_neg hne]
    · rfl

theorem poly_inj {a b : Nat} : poly a = poly b ↔ a = b := by
  refine ⟨fun h => Nat.eq_of_testBit_eq fun i => ?_, congrArg poly⟩
  have hi := congrArg (fun p => p.coeff i) h
  rw [coeff_poly, coeff_poly] at hi
  cases ha : a.testBit i <;> cases hb : b.testBit i <;> simp_all

@[simp] theorem poly_zero : poly 0 = 0 := by
  ext i
  rw [coeff_poly, Nat.zero_testBit, coeff_zero, if_neg Bool.false_ne_true]

theorem poly_eq_zero_iff {w : Nat} : poly w = 0 ↔ w = 0 := by rw [← poly_zero, poly_inj]

theorem poly_xor (a b : Nat) : poly (a ^^^ b) = poly a + poly b := by
  ext i
  rw [coeff_add, coeff_poly, coeff_poly, coeff_poly, Nat.testBit_xor]
  cases a.testBit i <;> cases b.testBit i
  · rfl
  · rfl
  · rfl
  · decide

theorem poly_shiftLeft (w k : Nat) : poly (w <<< k) = poly w * X ^ k := by
  ext i
  rw [coeff_mul_X_pow', coeff_poly, Nat.testBit_shiftLeft]
  by_cases hk : k ≤ i
  · rw [if_pos hk, coeff_poly, decide_eq_true hk, Bool.true_and]
  · rw [if_neg hk, decide_eq_false hk, Bool.false_and, if_neg Bool.false_ne_true]

theorem degree_poly_lt {w n : Nat} (h : w < 2 ^ n) : (poly w).degree < n := by
  rw [Polynomial.degree_lt_iff_coeff_zero]
  intro i hi
  rw [coeff_poly, Nat.testBit_lt_two_pow (Nat.lt_of_lt_of_le h (Nat.pow_le_pow_right Nat.two_pos hi)),
    if_neg Bool.false_ne_true]

/-- 最も上のビットが `n` 番目なら、次数は `n` である。 -/
theorem degree_poly_eq {g n : Nat} (hlt : g < 2 ^ (n + 1)) (htop : g.testBit n = true) : (poly g).degree = n := by
  refine le_antisymm ?_ ?_
  · have hdeg := degree_poly_lt hlt
    exact Order.lt_succ_iff.mp (by exact_mod_cast hdeg)
  · refine Polynomial.le_degree_of_ne_zero ?_
    rw [coeff_poly, if_pos htop]
    exact one_ne_zero

/-! ## 割り算 -/

/-- `n + k` 桁の `w` から、上の桁から順に `g` を引いていった余り。 -/
def reduce (g n : Nat) : Nat → Nat → Nat
  | 0, w => w
  | k + 1, w => reduce g n k (if w.testBit (n + k) then w ^^^ g <<< k else w)

/-- 次数 `n` の除数。 -/
structure Divisor (g n : Nat) : Prop where
  lt : g < 2 ^ (n + 1)
  top : g.testBit n = true

section Divisor

variable {g n : Nat} (hg : Divisor g n)

include hg

/-- 一歩で、最も上の桁が消える。 -/
theorem step_lt {k w : Nat} (hw : w < 2 ^ (n + (k + 1))) :
    (if w.testBit (n + k) then w ^^^ g <<< k else w) < 2 ^ (n + k) := by
  have hshift : g <<< k < 2 ^ (n + (k + 1)) := by
    rw [Nat.shiftLeft_eq, show n + (k + 1) = (n + 1) + k by omega, Nat.pow_add]
    exact Nat.mul_lt_mul_of_pos_right hg.lt (Nat.two_pow_pos k)
  refine Nat.lt_pow_two_of_testBit _ fun i hi => ?_
  rcases Nat.eq_or_lt_of_le hi with rfl | hi
  · split
    · next htop =>
        rw [Nat.testBit_xor, htop, Nat.testBit_shiftLeft, Nat.add_sub_cancel, hg.top,
          decide_eq_true (Nat.le_add_left k n)]
        rfl
    · next htop => exact Bool.eq_false_of_not_eq_true htop
  · have hpow : 2 ^ (n + (k + 1)) ≤ 2 ^ i := Nat.pow_le_pow_right Nat.two_pos hi
    split
    · rw [Nat.testBit_xor, Nat.testBit_lt_two_pow (Nat.lt_of_lt_of_le hw hpow),
        Nat.testBit_lt_two_pow (Nat.lt_of_lt_of_le hshift hpow)]
      rfl
    · exact Nat.testBit_lt_two_pow (Nat.lt_of_lt_of_le hw hpow)

theorem reduce_lt {k w : Nat} (hw : w < 2 ^ (n + k)) : reduce g n k w < 2 ^ n := by
  induction k generalizing w with
  | zero => exact hw
  | succ k ih => exact ih (step_lt hg hw)

omit hg in
/-- 除数の倍数であるかは、余りで決まる。 -/
theorem dvd_reduce (g n k w : Nat) : poly g ∣ poly (reduce g n k w) ↔ poly g ∣ poly w := by
  induction k generalizing w with
  | zero => exact Iff.rfl
  | succ k ih =>
      rw [reduce, ih]
      split
      · rw [poly_xor, poly_shiftLeft]
        exact (dvd_add_left (Dvd.intro _ rfl))
      · exact Iff.rfl

/-- 次数の小さい多項式は、0 のほかに割り切れない。 -/
theorem eq_zero_of_dvd {w : Nat} (hw : w < 2 ^ n) (h : poly g ∣ poly w) : w = 0 := by
  refine poly_eq_zero_iff.mp (Polynomial.eq_zero_of_dvd_of_degree_lt h ?_)
  rw [degree_poly_eq hg.lt hg.top]
  exact degree_poly_lt hw

/-- 余りが 0 であることは、割り切れることである。 -/
theorem reduce_eq_zero_iff {k w : Nat} (hw : w < 2 ^ (n + k)) : reduce g n k w = 0 ↔ poly g ∣ poly w := by
  rw [← dvd_reduce g n k w]
  refine ⟨fun h => ?_, eq_zero_of_dvd hg (reduce_lt hg hw)⟩
  rw [h, poly_zero]
  exact dvd_zero _

end Divisor

/-! ## 誤りの検出 -/

section Error

variable {g n : Nat}

/-- 定数項のある除数は、`X` の冪を掛けても割り切れるかを変えない。 -/
theorem dvd_shiftLeft_iff (h0 : g.testBit 0 = true) (w k : Nat) : poly g ∣ poly (w <<< k) ↔ poly g ∣ poly w := by
  rw [poly_shiftLeft]
  refine ⟨fun h => ?_, fun h => h.mul_right _⟩
  have hcop : IsCoprime (poly g) X := by
    refine ((Polynomial.irreducible_X (R := ZMod 2)).coprime_iff_not_dvd.mpr fun hdvd => ?_).symm
    have hzero := Polynomial.X_dvd_iff.mp hdvd
    rw [coeff_poly, if_pos h0] at hzero
    exact one_ne_zero hzero
  exact (hcop.pow_right).dvd_of_dvd_mul_right h

/-- 長さが次数を超えない、続いた誤りは、割り切れない。 -/
theorem not_dvd_burst (hg : Divisor g n) (h0 : g.testBit 0 = true) {b : Nat} (hb : b ≠ 0) (hlt : b < 2 ^ n) (k : Nat) :
    ¬poly g ∣ poly (b <<< k) := by
  rw [dvd_shiftLeft_iff h0]
  exact fun h => hb (eq_zero_of_dvd hg hlt h)

/-- 立っているビットの数。 -/
def weight (w : Nat) : Nat := ((List.range w.size).filter w.testBit).length

theorem eval_one_poly (w : Nat) : (poly w).eval 1 = (weight w : ZMod 2) := by
  rw [poly, Polynomial.eval_finsetSum, weight]
  generalize w.size = m
  induction m with
  | zero => rfl
  | succ m ih =>
      rw [Finset.sum_range_succ, ih, List.range_succ, List.filter_append, List.length_append, Nat.cast_add]
      congr 1
      cases hm : w.testBit m with
      | true => simp [hm]
      | false => simp [hm]

/-- 立っているビットの数が偶数の除数は、奇数個の誤りを割り切らない。 -/
theorem not_dvd_odd (hg : weight g % 2 = 0) {w : Nat} (hw : weight w % 2 = 1) : ¬poly g ∣ poly w := by
  rintro ⟨q, hq⟩
  have heval := congrArg (Polynomial.eval 1) hq
  rw [Polynomial.eval_mul, eval_one_poly, eval_one_poly, (ZMod.natCast_eq_zero_iff _ 2).mpr (Nat.dvd_of_mod_eq_zero hg),
    zero_mul, ZMod.natCast_eq_zero_iff] at heval
  omega

/-- 二つの誤りは、その間隔の二項を割り切らなければ見つかる。 -/
theorem dvd_double_iff (h0 : g.testBit 0 = true) (i d : Nat) :
    poly g ∣ poly (1 <<< i ^^^ 1 <<< (i + d)) ↔ poly g ∣ poly (1 ^^^ 1 <<< d) := by
  have hfactor : 1 <<< i ^^^ 1 <<< (i + d) = (1 ^^^ 1 <<< d) <<< i := by
    rw [Nat.shiftLeft_xor_distrib, Nat.add_comm i d, Nat.shiftLeft_add]
  rw [hfactor, dvd_shiftLeft_iff h0]

end Error

end Gf2
