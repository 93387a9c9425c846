import Mathlib.Data.UInt
import Mathlib.Data.Nat.ModEq

/-!
# 桁あふれする 32 ビットの時計

実時間を上限のない自然数とし、時計はその下位 32 ビットだけを返す。時計の差から実時間の差について言えることを、
差が一周に満たないときと、何周したか分からないときに分けて示す。
-/

namespace Clock

/-- 時計が返す値。 -/
def read (t : Nat) : UInt32 := UInt32.ofNat t

/-- 時計の差は、実時間の差の下位 32 ビットである。 -/
theorem toNat_read_sub_read {s t : Nat} (h : s ≤ t) : (read t - read s).toNat = (t - s) % 2 ^ 32 := by
  simp only [read, UInt32.toNat_sub, UInt32.toNat_ofNat']
  omega

/-- 何周していても、時計の差が `d` を超えていれば、実時間の差も `d` を超えている。 -/
theorem lt_of_lt_read_sub_read {s t : Nat} {d : UInt32} (h : s ≤ t) (hd : d < read t - read s) :
    d.toNat < t - s := by
  have hd' : d.toNat < (read t - read s).toNat := UInt32.lt_iff_toNat_lt.mp hd
  rw [toNat_read_sub_read h] at hd'
  exact Nat.lt_of_lt_of_le hd' (Nat.mod_le _ _)

/-- 実時間の差が一周に満たなければ、時計の差は実時間の差と同じ判定を与える。 -/
theorem lt_read_sub_read_iff {s t : Nat} {d : UInt32} (h : s ≤ t) (hlt : t - s < 2 ^ 32) :
    d < read t - read s ↔ d.toNat < t - s := by
  rw [UInt32.lt_iff_toNat_lt, toNat_read_sub_read h, Nat.mod_eq_of_lt hlt]

end Clock
