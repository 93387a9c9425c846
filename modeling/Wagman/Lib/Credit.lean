import Mathlib.Algebra.BigOperators.Ring.List
import Mathlib.Algebra.Ring.Nat

/-!
# 蓄えと支払い

一歩ごとに、支払いと蓄えの和が、操作の与える分より多くは増えないとき、実行の全体の支払いは、与えられた分と初めの蓄えを超えない。
-/

namespace Credit

variable {S O : Type} (step : O → S → S) (spent banked : S → Nat) (grant : O → Nat)

/-- 支払いと蓄えの和は、一歩で、操作の与える分より多くは増えない。 -/
def Covered : Prop := ∀ o s, spent (step o s) + banked (step o s) ≤ spent s + banked s + grant o

variable {step spent banked grant}

theorem Covered.run (h : Covered step spent banked grant) (os : List O) (s : S) :
    spent (os.foldl (fun s o => step o s) s) + banked (os.foldl (fun s o => step o s) s) ≤
      spent s + banked s + (os.map grant).sum := by
  induction os generalizing s with
  | nil => simp
  | cons o os ih =>
      have hstep := h o s
      have hrest := ih (step o s)
      simp only [List.foldl_cons, List.map_cons, List.sum_cons]
      omega

/-- 支払いも蓄えもない状態から始めれば、支払いは与えられた分を超えない。 -/
theorem Covered.spent_le (h : Covered step spent banked grant) {s : S} (hs : spent s = 0) (hb : banked s = 0)
    (os : List O) : spent (os.foldl (fun s o => step o s) s) ≤ (os.map grant).sum := by
  have hrun := h.run os s
  omega

/-- 条件を満たす操作が一つずつ与えるとき、与えられた分は、その操作の数である。 -/
theorem sum_grant (f : O → Bool) (os : List O) : (os.map fun o => (f o).toNat).sum = os.countP f := by
  induction os with
  | nil => rfl
  | cons o os ih => rw [List.map_cons, List.sum_cons, ih, List.countP_cons, Nat.add_comm]; cases f o <;> rfl

/-- 二種類の操作が、一つごとに `a` と 1 を与えるとき、与えられた分は、その操作の数から分かる。 -/
theorem sum_grants (a : Nat) (f g : O → Bool) (os : List O) :
    (os.map fun o => a * (f o).toNat + (g o).toNat).sum = a * os.countP f + os.countP g := by
  rw [List.sum_map_add, List.sum_map_mul_left, sum_grant, sum_grant]

end Credit
