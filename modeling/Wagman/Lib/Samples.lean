import Wagman.Lib.Run

/-!
# 見た値の変化

操作のうちのいくつかは、外の値を見る。見た値の並びから、値の変わった回数を数え、一歩ごとの評価を実行の全体の評価にまとめる。
-/

namespace Samples

variable {α : Type} [DecidableEq α]

/-- 隣と違う値の現れる回数。 -/
def changes : List α → Nat
  | x :: y :: l => (if x ≠ y then 1 else 0) + changes (y :: l)
  | _ => 0

variable {S O : Type} {step : O → S → Option S} (sample : O → Option α) (last : S → α) (P : Nat → S → Prop)

/-- 状態が最後に見た値を `last` に覚えていて、違う値を見た一歩でだけ評価が一つ増えるなら、実行の全体で増えるのは、覚えていた値から
始めて、見た値の変わった回数である。 -/
theorem run_induct
    (hsee : ∀ o s s' n y, sample o = some y → P n s → step o s = some s' →
      last s' = y ∧ P (n + if last s ≠ y then 1 else 0) s')
    (hskip : ∀ o s s' n, sample o = none → P n s → step o s = some s' → last s' = last s ∧ P n s')
    {os : List O} {s s' : S} {n : Nat} (h : Run.run step os s = some s') (h₀ : P n s) :
    P (n + changes (last s :: os.filterMap sample)) s' := by
  induction os generalizing s n with
  | nil => cases h; exact h₀
  | cons o os ih =>
      obtain ⟨t, ht, hr⟩ := Run.run_cons.mp h
      cases ho : sample o with
      | none =>
          obtain ⟨hlast, hp⟩ := hskip o s t n ho h₀ ht
          rw [List.filterMap_cons_none ho, ← hlast]
          exact ih hr hp
      | some y =>
          obtain ⟨hlast, hp⟩ := hsee o s t n y ho h₀ ht
          have hrest := ih hr hp
          rw [hlast] at hrest
          rw [List.filterMap_cons_some ho, changes, ← Nat.add_assoc]
          exact hrest

end Samples
