import Mathlib.Data.List.Basic

/-!
# 環状の記録

容量 `cap` の場所に、古いものから順に書き続けた記録。`j` 番目の値は場所 `j % cap` にあり、残っているのは最後の `cap` 個
までである。
-/

namespace Ring

variable {α : Type} {cap : Nat} {cells cells' : Nat → α} {xs : List α}

/-- 最後の `cap` 個までの値。 -/
def latest (cap : Nat) (xs : List α) : List α := xs.drop (xs.length - cap)

theorem length_latest (cap : Nat) (xs : List α) : (latest cap xs).length = min xs.length cap := by
  rw [latest, List.length_drop]
  omega

/-- 順に書いた値 `xs` のうち、最後の `cap` 個までが残っている。 -/
def Holds (cap : Nat) (cells : Nat → α) (xs : List α) : Prop :=
  ∀ (j : Nat) (h : j < xs.length), xs.length ≤ j + cap → cells (j % cap) = xs[j]

theorem Holds.nil : Holds cap cells [] := fun _ h => absurd h (Nat.not_lt_zero _)

/-- 次の場所に `x` を書けば、`x` を加えた値が残る。 -/
theorem Holds.push (h : Holds cap cells xs) (x : α) (hnew : cells' (xs.length % cap) = x)
    (hold : ∀ k < cap, k ≠ xs.length % cap → cells' k = cells k) : Holds cap cells' (xs ++ [x]) := by
  intro j hj hfresh
  rw [List.length_append, List.length_singleton] at hj hfresh
  by_cases hlast : j = xs.length
  · subst hlast
    rw [hnew]
    simp
  · have hlt : j < xs.length := by omega
    have hcap : 0 < cap := by omega
    have hne : j % cap ≠ xs.length % cap := by
      intro he
      have hzero := Nat.sub_mod_eq_zero_of_mod_eq he.symm
      rw [Nat.mod_eq_of_lt (by omega)] at hzero
      omega
    rw [hold _ (Nat.mod_lt _ hcap) hne, h j hlt (by omega), List.getElem_append_left hlt]

/-- 残っている値を古い順に読む。 -/
theorem Holds.get (h : Holds cap cells xs) {i : Nat} (hi : i < (latest cap xs).length) :
    cells ((xs.length - cap + i) % cap) = (latest cap xs)[i] := by
  have hlen := length_latest cap xs
  have hj : xs.length - cap + i < xs.length := by omega
  rw [h _ hj (by omega)]
  simp [latest]

end Ring
