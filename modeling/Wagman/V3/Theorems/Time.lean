import Wagman.V3.Theorems.Clock

/-!
# 秒数と時計

`breakTime` と `makeTime` は、32 ビットの秒数と、暦にあって秒数が 32 ビットに収まる日時とを、一対一に対応させる。
時計は 2000 年からの年を二桁だけ保つので、2000 年より前の秒数は、96 年後の秒数として読まれる。
-/

namespace Wagman.V3

open Calendar (Stamp)

variable {tm tm' : Elements}

/-! ## 往復 -/

theorem Elements.stamp_inj (h : tm.stamp = tm'.stamp) (hw : tm.wday = tm'.wday) : tm = tm' := by
  cases tm
  cases tm'
  simp only [Elements.stamp, Stamp.mk.injEq, Nat.add_left_cancel_iff, UInt8.toNat_inj] at h
  simp only at hw
  simp [h, hw]

theorem le_year_stamp (tm : Elements) : 1970 ≤ tm.stamp.year := Nat.le_add_right _ _

theorem wday_breakTime {t : UInt32} (h : breakTime t = some tm) :
    tm.wday.toNat = (t.toNat / 86400 + 4) % 7 + 1 := by
  obtain ⟨y, m, d, -, -, -, -, hrun⟩ := breakTime_run t
  obtain rfl := Option.some.inj (h.symm.trans hrun)
  have hlt := t.toNat_lt
  simp only [UInt32.toNat_toUInt8, UInt32.toNat_add, UInt32.toNat_mod, UInt32.toNat_div, UInt32.reduceToNat]
  omega

/-- 暦の日時の秒数が 32 ビットに収まれば、`makeTime` はその秒数を返す。 -/
theorem makeTime_eq_some_iff {t : UInt32} (hv : tm.stamp.Valid) (hs : tm.stamp.seconds 1970 < 2 ^ 32) :
    makeTime tm = some t ↔ tm.stamp.seconds 1970 = t.toNat := by
  rw [makeTime_eq tm hv.month_le hv.month_pos hv.day_pos, Option.some.injEq, ← UInt32.toNat_inj,
    UInt32.toNat_ofNat', Nat.mod_eq_of_lt hs]

/-- `breakTime` は必ず日時を返す。それは、暦にあって `makeTime` がもとの秒数に戻す、ただ一つの日時である。曜日は、1970 年 1 月 1 日
を木曜日とする。 -/
theorem breakTime_eq_some_iff (t : UInt32) :
    (∃ tm, breakTime t = some tm) ∧
    ∀ tm, breakTime t = some tm ↔ tm.stamp.Valid ∧ tm.stamp.seconds 1970 < 2 ^ 32 ∧ makeTime tm = some t ∧
      tm.wday.toNat = (t.toNat / 86400 + 4) % 7 + 1 := by
  obtain ⟨tm', hbreak, hvalid, hsec, -⟩ := breakTime_eq t
  have hlt : tm'.stamp.seconds 1970 < 2 ^ 32 := by
    rw [hsec]
    exact t.toNat_lt
  refine ⟨⟨tm', hbreak⟩, fun tm => ⟨?_, ?_⟩⟩
  · intro h
    obtain rfl := Option.some.inj (h.symm.trans hbreak)
    exact ⟨hvalid, hlt, (makeTime_eq_some_iff hvalid hlt).mpr hsec, wday_breakTime h⟩
  · rintro ⟨hv, hs, hmake, hwday⟩
    rw [makeTime_eq_some_iff hv hs, ← hsec] at hmake
    have hstamp := hv.seconds_inj hvalid (le_year_stamp tm) (le_year_stamp tm') hmake
    rw [← wday_breakTime hbreak, UInt8.toNat_inj] at hwday
    rw [hbreak, Elements.stamp_inj hstamp hwday]

/-! ## 時計の往復 -/

/-- 2000 年 1 月 1 日の秒数。 -/
def year2000 : UInt32 := 946684800

/-- 96 年の秒数。 -/
def years96 : UInt32 := 3029529600

theorem yearStart_early : ∀ y < 30,
    yearStart (y + 96) = yearStart y + 35064 ∧ Calendar.leap (1970 + (y + 96)) = Calendar.leap (1970 + y) := by
  decide +kernel

/-- 2000 年より前の日時は、96 年後の同じ月日の日時と、一定の秒数だけ離れている。 -/
theorem seconds_early {s : Stamp} (hy : 1970 ≤ s.year) (hy' : s.year < 2000) :
    Stamp.seconds 1970 { s with year := s.year + 96 } = s.seconds 1970 + years96.toNat := by
  obtain ⟨y, hyear⟩ := Nat.exists_eq_add_of_le hy
  obtain ⟨hstart, hleap⟩ := yearStart_early y (by omega)
  have hstart₁ : yearStart (s.year + 96 - 1970) = yearStart (s.year - 1970) + 35064 := by
    rw [hyear, Nat.add_assoc, Nat.add_sub_cancel_left, Nat.add_sub_cancel_left, hstart]
  have hleap₁ : Calendar.leap (s.year + 96) = Calendar.leap s.year := by rw [hyear, Nat.add_assoc, hleap]
  simp only [yearStart] at hstart₁
  simp only [Stamp.seconds, Stamp.days, Stamp.dayOfYear, hstart₁, hleap₁, years96, UInt32.reduceToNat]
  omega

theorem year_lt_iff (hv : tm.stamp.Valid) : tm.year.toNat < 30 ↔ tm.stamp.seconds 1970 < year2000.toNat := by
  have hyear : tm.stamp.year = 1970 + tm.year.toNat := rfl
  obtain ⟨hle, hlt⟩ := hv.days_mem (le_year_stamp tm)
  have h30 : yearStart 30 = 10957 := by decide +kernel
  have hhour := hv.hour_lt
  have hminute := hv.minute_lt
  have hsecond := hv.second_lt
  rw [Stamp.seconds]
  simp only [year2000, UInt32.reduceToNat]
  constructor
  · intro h
    have hmono : yearStart (tm.stamp.year - 1970 + 1) ≤ yearStart 30 := Calendar.start_mono (by omega)
    have hdays : tm.stamp.days 1970 < 10957 := by
      rw [← h30]
      exact Nat.lt_of_lt_of_le hlt hmono
    omega
  · intro h
    by_contra hn
    have hmono : yearStart 30 ≤ yearStart (tm.stamp.year - 1970) := Calendar.start_mono (by omega)
    have hdays : 10957 ≤ tm.stamp.days 1970 := by
      rw [← h30]
      exact Nat.le_trans hmono hle
    omega

/-- 書いて読んだ日時は、2000 年より前の年が 96 年後になるほかは、もとの日時である。 -/
theorem stamp_write (hv : tm.stamp.Valid) (hy : tm.year.toNat ≤ 136) (regs : Registers) :
    (RTC.read (RTC.write tm regs)).stamp =
      if tm.year.toNat < 30 then { tm.stamp with year := tm.stamp.year + 96 } else tm.stamp := by
  rw [← stamp_dateTime, dateTime_write hv hy]
  split
  · rename_i hearly
    have hyear : ((tm.year + 96).toUInt16 + 1970).toNat = 1970 + tm.year.toNat + 96 := by
      simp only [UInt16.toNat_add, UInt8.toNat_toUInt16, UInt8.toNat_add, UInt16.reduceToNat, UInt8.reduceToNat]
      omega
    simp only [DateTime.stamp, Elements.dateTime, Elements.stamp, hyear]
  · exact stamp_dateTime

theorem rtc_get_set (t : UInt32) (regs : Registers) :
    (RTC.set t regs).bind RTC.get = some (if t < year2000 then t + years96 else t) := by
  obtain ⟨tm, hbreak, hvalid, hsec, hyear⟩ := breakTime_eq t
  have hset : RTC.set t regs = some (RTC.write tm regs) := by rw [RTC.set, hbreak]; rfl
  have hstamp := stamp_write hvalid hyear regs
  have hearly := year_lt_iff hvalid
  rw [hsec, ← UInt32.lt_iff_toNat_lt] at hearly
  simp only [hearly] at hstamp
  rw [hset, Option.bind_some, RTC.get]
  generalize RTC.read (RTC.write tm regs) = r at hstamp
  have hmonth : r.month.toNat = tm.month.toNat ∧ r.day.toNat = tm.day.toNat := by
    have hm : r.stamp.month = tm.stamp.month := by
      rw [hstamp]
      split
      · rfl
      · rfl
    have hd : r.stamp.day = tm.stamp.day := by
      rw [hstamp]
      split
      · rfl
      · rfl
    exact ⟨hm, hd⟩
  rw [makeTime_eq r (by rw [hmonth.1]; exact hvalid.month_le) (by rw [hmonth.1]; exact hvalid.month_pos)
    (by rw [hmonth.2]; exact hvalid.day_pos), hstamp]
  refine congrArg some ?_
  split
  · rename_i h
    rw [seconds_early (le_year_stamp tm) ?_, hsec, UInt32.ofNat_add, UInt32.ofNat_toNat, UInt32.ofNat_toNat]
    have hlt := hearly.mpr h
    have hy : tm.stamp.year = 1970 + tm.year.toNat := rfl
    omega
  · rw [hsec, UInt32.ofNat_toNat]

/-- 秒数に合わせた時計は、2000 年以降の秒数をそのまま返し、2000 年より前の秒数を 96 年後の秒数として返す。起動の後の時計は、
`BUILD_TIME` より前の秒数を返さず、`BUILD_TIME` 以降を指していた時計は変わらない。 -/
theorem clock_kept (t : UInt32) (regs : Registers) :
    (RTC.set t regs).bind RTC.get = some (if t < year2000 then t + years96 else t) ∧
      ((checkClock regs).bind RTC.get).map UInt32.toNat = (RTC.get regs).map fun t => max t.toNat buildTime := by
  refine ⟨rtc_get_set t regs, ?_⟩
  cases hget : RTC.get regs with
  | none => simp [checkClock, hget]
  | some s =>
      simp only [checkClock, hget, Option.bind_eq_bind, Option.bind_some, Option.map_some]
      have hbuild : (UInt32.ofNat buildTime).toNat = buildTime := by decide
      by_cases hlt : s < UInt32.ofNat buildTime
      · have hlate : ¬UInt32.ofNat buildTime < year2000 := by decide
        rw [if_pos hlt, rtc_get_set, if_neg hlate, Option.map_some, hbuild]
        rw [UInt32.lt_iff_toNat_lt, hbuild] at hlt
        rw [Nat.max_eq_right (Nat.le_of_lt hlt)]
      · rw [if_neg hlt, Option.bind_some, hget, Option.map_some]
        rw [UInt32.lt_iff_toNat_lt, hbuild] at hlt
        rw [Nat.max_eq_left (Nat.le_of_not_lt hlt)]

end Wagman.V3
