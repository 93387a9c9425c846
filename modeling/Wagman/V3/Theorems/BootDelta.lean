import Wagman.V3.BootDelta

/-!
# 起動の間隔の平均

`meanBootDelta` は、最も古い項目からの間隔の和を、間隔の数でなく項目の数で割る。最近の間隔の平均に等しくなる条件を、
記録の両端の差で示す。
-/

namespace Wagman.V3

open Record

variable {m : Nat → UInt8} {d : Port} {maxSamples : UInt8}

/-! ## 記録の項目 -/

/-- 記録の `i` 番目に古い時刻。 -/
def bootTime (m : Nat → UInt8) (d : Port) (i : Nat) : Nat := (BootLog.getEntry m d (UInt8.ofNat i)).toNat

def logCount (m : Nat → UInt8) (d : Port) : Nat := (BootLog.getCount m d).toNat

/-- 時刻は古い順に並んでいる。 -/
def InOrder (m : Nat → UInt8) (d : Port) : Prop := ∀ i, i + 1 < logCount m d → bootTime m d i ≤ bootTime m d (i + 1)

instance (m : Nat → UInt8) (d : Port) : Decidable (InOrder m d) :=
  decidable_of_iff (∀ i < logCount m d - 1, bootTime m d i ≤ bootTime m d (i + 1))
    ⟨fun h i hi => h i (by omega), fun h i hi => h i (by omega)⟩

/-- 平均を取る項目の数。 -/
def samples (m : Nat → UInt8) (d : Port) (maxSamples : UInt8) : Nat := min maxSamples.toNat (logCount m d)

/-- 最も古い `c` 個の項目の両端の差。 -/
def oldestSpan (m : Nat → UInt8) (d : Port) (c : Nat) : Nat := bootTime m d (c - 1) - bootTime m d 0

/-- 最も新しい `c` 個の項目の両端の差。 -/
def latestSpan (m : Nat → UInt8) (d : Port) (c : Nat) : Nat :=
  bootTime m d (logCount m d - 1) - bootTime m d (logCount m d - c)

/-- 最も新しい `c` 個の項目の、間隔の平均。 -/
def meanGap (m : Nat → UInt8) (d : Port) (c : Nat) : Nat := latestSpan m d c / (c - 1)

/-! ## 和と平均 -/

/-- 続く項目の差の和は、両端の差である。 -/
theorem foldl_bootGap (m : Nat → UInt8) (d : Port) (k : Nat) :
    (List.range' 1 k).foldl (fun total i => total + bootGap m d i) 0 =
      BootLog.getEntry m d (UInt8.ofNat k) - BootLog.getEntry m d 0 := by
  induction k with
  | zero => simp
  | succ k ih =>
      rw [List.range'_1_concat, List.foldl_append, ih]
      simp only [List.foldl_cons, List.foldl_nil, bootGap, Nat.add_comm 1 k, Nat.add_sub_cancel]
      grind

theorem bootTime_le (h : InOrder m d) {k : Nat} (hk : k < logCount m d) : bootTime m d 0 ≤ bootTime m d k := by
  induction k with
  | zero => exact Nat.le_refl _
  | succ k ih => exact Nat.le_trans (ih (by omega)) (h k hk)

/-- 平均は、最も古い項目の両端の差を、項目の数で割ったものである。 -/
theorem meanBootDelta_eq (hcount : 2 ≤ logCount m d) (hmax : 2 ≤ maxSamples.toNat) (h : InOrder m d) :
    ∃ v, meanBootDelta m d maxSamples = some v ∧
      v.toNat = oldestSpan m d (samples m d maxSamples) / samples m d maxSamples := by
  let count := if maxSamples < BootLog.getCount m d then maxSamples else BootLog.getCount m d
  have hc : count.toNat = samples m d maxSamples := by
    simp only [count, samples, logCount]
    split
    · rename_i hlt
      have := UInt8.lt_iff_toNat_lt.mp hlt
      omega
    · rename_i hge
      have := UInt8.lt_iff_toNat_lt.not.mp hge
      omega
  have hle : 2 ≤ samples m d maxSamples := Nat.le_min.mpr ⟨hmax, hcount⟩
  have hsamples : samples m d maxSamples ≤ logCount m d := Nat.min_le_right _ _
  have hne : count ≠ 0 := by
    intro h0
    rw [h0] at hc
    simp at hc
    omega
  have hspan : (BootLog.getEntry m d (UInt8.ofNat (samples m d maxSamples - 1)) - BootLog.getEntry m d 0).toNat =
      oldestSpan m d (samples m d maxSamples) :=
    UInt32.toNat_sub_of_le _ _ (UInt32.le_iff_toNat_le.mpr (bootTime_le h (by omega)))
  refine ⟨_, if_neg hne, ?_⟩
  rw [UInt32.toNat_div, foldl_bootGap, UInt8.toNat_toUInt32, hc, hspan]

/-! ## 平均が間隔の平均に等しい条件 -/

/-- `meanBootDelta` が、最近の間隔の平均を返す。 -/
def MeanOk (m : Nat → UInt8) (d : Port) (maxSamples : UInt8) : Prop :=
  ∃ v, meanBootDelta m d maxSamples = some v ∧ v.toNat = meanGap m d (samples m d maxSamples)

/-- `showBootLog` の警告は、最近の間隔の平均が 200 秒に満たないときにだけ出る。 -/
def WarningOk (m : Nat → UInt8) (d : Port) : Prop :=
  .text " !" ∈ showBootLog m d ↔ meanGap m d (samples m d 3) < 200

theorem div_eq_iff_window {a c q : Nat} (hc : 0 < c) : a / c = q ↔ c * q ≤ a ∧ a < c * q + c := by
  rw [Nat.div_eq_iff hc, Nat.mul_comm q c]
  omega

theorem meanOk_iff (hcount : 2 ≤ logCount m d) (hmax : 2 ≤ maxSamples.toNat) (h : InOrder m d) :
    MeanOk m d maxSamples ↔
      samples m d maxSamples * meanGap m d (samples m d maxSamples) ≤ oldestSpan m d (samples m d maxSamples) ∧
      oldestSpan m d (samples m d maxSamples) <
        samples m d maxSamples * meanGap m d (samples m d maxSamples) + samples m d maxSamples := by
  have hle : 2 ≤ samples m d maxSamples := Nat.le_min.mpr ⟨hmax, hcount⟩
  obtain ⟨v, hv, heq⟩ := meanBootDelta_eq hcount hmax h
  rw [← div_eq_iff_window (by omega), ← heq]
  constructor
  · rintro ⟨v', hv', hmean⟩
    rw [hv, Option.some.injEq] at hv'
    rw [hv', hmean]
  · exact fun hmean => ⟨v, hv, hmean⟩

/-! ## 警告 -/

theorem not_mem_values (vs : List UInt32) : Out.text " !" ∉ Logger.values vs := by
  simp [Logger.values]

/-- 警告は、`meanBootDelta` の値が 200 より小さいときにだけ書かれる。 -/
theorem mem_showBootLog_iff (hcount : 2 ≤ logCount m d) :
    .text " !" ∈ showBootLog m d ↔ (meanBootDelta m d 3).any (· < 200) = true := by
  have hlt : 1 < BootLog.getCount m d := UInt8.lt_iff_toNat_lt.mpr hcount
  simp only [showBootLog, if_pos hlt, List.mem_append, not_mem_values, Logger.start, Logger.finish]
  split
  · rename_i hw
    simp [hw]
  · rename_i hw
    simp [hw]

theorem warningOk_iff (hcount : 2 ≤ logCount m d) (h : InOrder m d) :
    WarningOk m d ↔ (oldestSpan m d (samples m d 3) < 200 * samples m d 3 ↔
      latestSpan m d (samples m d 3) < 200 * (samples m d 3 - 1)) := by
  have hle : 2 ≤ samples m d 3 := Nat.le_min.mpr ⟨by decide, hcount⟩
  have hmax : 2 ≤ (3 : UInt8).toNat := by decide
  obtain ⟨v, hv, heq⟩ := meanBootDelta_eq hcount hmax h
  have hcode : .text " !" ∈ showBootLog m d ↔ oldestSpan m d (samples m d 3) < 200 * samples m d 3 := by
    rw [mem_showBootLog_iff hcount, hv, Option.any_some, decide_eq_true_eq, UInt32.lt_iff_toNat_lt, heq,
      Nat.div_lt_iff_lt_mul (by omega)]
    rfl
  rw [WarningOk, hcode, meanGap, Nat.div_lt_iff_lt_mul (by omega)]

/-! ## 間隔の平均の正しさ -/

/-- 平均が最近の間隔の平均に等しいのは、最も古い `c` 個の項目の両端の差が、最近の間隔の平均の `c` 倍から `c` 未満だけ
大きいときに限る。警告が正しいのは、古い項目の差と新しい項目の差が、それぞれの限度を同時に下回るときに限る。 -/
theorem mean_boot_delta_iff (m : Nat → UInt8) (d : Port) (maxSamples : UInt8) (hcount : 2 ≤ logCount m d)
    (hmax : 2 ≤ maxSamples.toNat) (h : InOrder m d) :
    (MeanOk m d maxSamples ↔
      samples m d maxSamples * meanGap m d (samples m d maxSamples) ≤ oldestSpan m d (samples m d maxSamples) ∧
      oldestSpan m d (samples m d maxSamples) <
        samples m d maxSamples * meanGap m d (samples m d maxSamples) + samples m d maxSamples) ∧
    (WarningOk m d ↔ (oldestSpan m d (samples m d 3) < 200 * samples m d 3 ↔
      latestSpan m d (samples m d 3) < 200 * (samples m d 3 - 1))) :=
  ⟨meanOk_iff hcount hmax h, warningOk_iff hcount h⟩

/-- ポート 0 の記録に、0、200、201、301 秒の起動がある。 -/
def slowingLog : Nat → UInt8
  | 321 => 4
  | 326 => 200
  | 330 => 201
  | 334 => 45
  | 335 => 1
  | _ => 0

theorem mean_boot_delta_iff_slowing : MeanOk slowingLog 0 2 :=
  (mean_boot_delta_iff slowingLog 0 2 (by decide) (by decide) (by decide +kernel)).1.mpr (by decide +kernel)

/-- ポート 0 の記録に、0 秒と 300 秒の起動がある。 -/
def twoBoots : Nat → UInt8
  | 321 => 2
  | 326 => 44
  | 327 => 1
  | _ => 0

/-- 300 秒の間隔の平均が 150 秒とされ、警告が出る。 -/
theorem mean_boot_delta_halved : 2 ≤ logCount twoBoots 0 ∧ InOrder twoBoots 0 ∧ meanGap twoBoots 0 2 = 300 ∧
    meanBootDelta twoBoots 0 3 = some 150 ∧ .text " !" ∈ showBootLog twoBoots 0 ∧
    ¬ MeanOk twoBoots 0 3 ∧ ¬ WarningOk twoBoots 0 := by
  have hcount : 2 ≤ logCount twoBoots 0 := by decide
  have horder : InOrder twoBoots 0 := by decide +kernel
  refine ⟨hcount, horder, by decide +kernel, by decide +kernel, by decide +kernel, fun h => ?_, fun h => ?_⟩
  · have hw := (meanOk_iff hcount (by decide) horder).mp h
    exact absurd hw (by decide +kernel)
  · have hw := (warningOk_iff hcount horder).mp h
    exact absurd hw (by decide +kernel)

/-- 起動の間隔が一定なら、平均が正しいのは間隔が 0 のときだけである。 -/
theorem meanOk_of_regular (g : Nat) (hcount : 2 ≤ logCount m d) (hmax : 2 ≤ maxSamples.toNat)
    (h : ∀ i, i + 1 < logCount m d → bootTime m d (i + 1) = bootTime m d i + g) : MeanOk m d maxSamples ↔ g = 0 := by
  have hle : 2 ≤ samples m d maxSamples := Nat.le_min.mpr ⟨hmax, hcount⟩
  have hsamples : samples m d maxSamples ≤ logCount m d := Nat.min_le_right _ _
  have htime : ∀ i, i < logCount m d → bootTime m d i = bootTime m d 0 + i * g := by
    intro i
    induction i with
    | zero => simp
    | succ i ih =>
        intro hi
        rw [h i hi, ih (by omega), Nat.succ_mul, Nat.add_assoc]
  have hold : oldestSpan m d (samples m d maxSamples) = (samples m d maxSamples - 1) * g := by
    rw [oldestSpan, htime (samples m d maxSamples - 1) (by omega), Nat.add_sub_cancel_left]
  have hlatest : latestSpan m d (samples m d maxSamples) = (samples m d maxSamples - 1) * g := by
    rw [latestSpan, htime (logCount m d - 1) (by omega), htime (logCount m d - samples m d maxSamples) (by omega),
      Nat.add_sub_add_left, ← Nat.sub_mul]
    congr 1
    omega
  have hmean : meanGap m d (samples m d maxSamples) = g := by
    rw [meanGap, hlatest, Nat.mul_div_cancel_left _ (by omega)]
  rw [meanOk_iff hcount hmax fun i hi => by rw [h i hi]; exact Nat.le_add_right _ _, hmean, hold, Nat.sub_one_mul]
  constructor
  · intro hw
    have hpos : g ≤ samples m d maxSamples * g := Nat.le_mul_of_pos_left g (by omega)
    omega
  · rintro rfl
    exact ⟨by simp, by simp; omega⟩

end Wagman.V3
