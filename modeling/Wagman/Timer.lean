import Wagman.Lib.Clock

/-!
# 経過時間の計測（`Timer.cpp`）とポートの番号

v3 の `Timer` と v4 の `DurationTimer` は同じ内容である。`millis()` は実時間の下位 32 ビットを返す。
-/

namespace Wagman

/-- v3 と v4 のポートの番号 `Fin 5` の数字は、どのモジュールでもこの証明を使う。 -/
instance (priority := 2000) neZeroPorts : NeZero 5 := ⟨nofun⟩

/-- 最後に `reset` したときの `millis()` の値を持つ。 -/
structure DurationTimer where
  start : UInt32 := 0
  deriving DecidableEq, Repr

namespace DurationTimer

/-- 実時間 `now` での `reset()` の結果。 -/
def reset (now : Nat) : DurationTimer := ⟨Clock.read now⟩

def elapsed (t : DurationTimer) (now : Nat) : UInt32 := Clock.read now - t.start

def exceeds (t : DurationTimer) (now : Nat) (time : UInt32) : Bool :=
  decide (time < Clock.read now - t.start)

/-- 何周していても、`exceeds` が真なら実時間でも `time` を超えている。 -/
theorem lt_of_exceeds_reset {s now : Nat} {time : UInt32} (h : s ≤ now)
    (he : (reset s).exceeds now time = true) : time.toNat < now - s :=
  Clock.lt_of_lt_read_sub_read h (of_decide_eq_true he)

/-- 最後の `reset` から一周していなければ、`exceeds` は実時間の比較と一致する。 -/
theorem exceeds_reset_iff {s now : Nat} {time : UInt32} (h : s ≤ now) (hlt : now - s < 2 ^ 32) :
    (reset s).exceeds now time = true ↔ time.toNat < now - s := by
  unfold exceeds
  rw [decide_eq_true_iff]
  exact Clock.lt_read_sub_read_iff h hlt

end DurationTimer

end Wagman
