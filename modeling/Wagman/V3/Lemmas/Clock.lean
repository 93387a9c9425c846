import Wagman.V3.Clock

/-!
# 秒数と日時の対応

`makeTime` は、暦にある日時の秒数を 32 ビットに収めた値を返す。`breakTime` は必ず終わり、秒数がちょうどその値になる暦の日時を返す。
-/

namespace Wagman.V3

open Calendar (Stamp start monthLength)

/-- 暦の日時として読む。 -/
def Elements.stamp (tm : Elements) : Stamp :=
  ⟨1970 + tm.year.toNat, tm.month.toNat, tm.day.toNat, tm.hour.toNat, tm.minute.toNat, tm.second.toNat⟩

/-- 1970 年から `n` 年後の初めまでの日数。 -/
def yearStart (n : Nat) : Nat := start (fun k => Calendar.yearLength (1970 + k)) n

/-! ## `makeTime` -/

theorem leapYear_eq (y : Nat) : leapYear y = Calendar.leap (1970 + y) := by
  have hpos : 0 < 1970 + y := by omega
  rw [leapYear, decide_eq_true hpos, Bool.true_and, Calendar.leap]

theorem yearStart_succ (n : Nat) : yearStart (n + 1) = yearStart n + if leapYear n then 366 else 365 := by
  rw [yearStart, start, ← yearStart, Calendar.yearLength, leapYear_eq]

/-- 平年の日数を越える分は、うるう年の数である。 -/
theorem foldl_leapYear (n : Nat) (s : UInt32) :
    (List.range n).foldl (fun s i => if leapYear i then s + secsPerDay else s) s + UInt32.ofNat (86400 * (365 * n)) =
      s + UInt32.ofNat (86400 * yearStart n) := by
  induction n with
  | zero => rfl
  | succ n ih =>
      rw [List.range_succ, List.foldl_append, List.foldl_cons, List.foldl_nil, yearStart_succ]
      generalize (List.range n).foldl (fun s i => if leapYear i then s + secsPerDay else s) s = x at ih ⊢
      simp only [UInt32.ofNat_mul, UInt32.ofNat_add] at ih ⊢
      cases leapYear n with
      | false =>
          simp only [Bool.false_eq_true, if_false]
          grind
      | true =>
          simp only [if_true, secsPerDay]
          grind

theorem monthDays_getElem? : ∀ l, ∀ m < 12, ¬(m = 1 ∧ l = true) →
    monthDays[m]? = some (UInt8.ofNat (monthLength l m)) := by
  decide

theorem toNat_monthLength (l : Bool) (m : Nat) : (UInt8.ofNat (monthLength l m)).toNat = monthLength l m := by
  rw [UInt8.toNat_ofNat', Nat.mod_eq_of_lt]
  rw [monthLength]
  split
  · split
    · decide
    · decide
  · split
    · decide
    · decide

theorem foldlM_addMonth (tm : Elements) (s : UInt32) {m : Nat} (hm : m ≤ 12) :
    (List.range' 1 m).foldlM (addMonth tm) s =
      some (s + UInt32.ofNat (86400 * start (monthLength (leapYear tm.year.toNat)) m)) := by
  induction m with
  | zero => simp [start]
  | succ m ih =>
      have hrange : List.range' 1 (m + 1) = List.range' 1 m ++ [1 + m] := List.range'_1_concat
      rw [hrange, List.foldlM_append, ih (by omega), start]
      simp only [Option.bind_eq_bind, Option.bind_some, List.foldlM_cons, List.foldlM_nil, addMonth,
        UInt32.ofNat_mul, UInt32.ofNat_add]
      by_cases hfeb : m = 1 ∧ leapYear tm.year.toNat = true
      · obtain ⟨rfl, hl⟩ := hfeb
        have hdays : monthLength true 1 = 29 := rfl
        rw [if_pos ⟨rfl, hl⟩, hl, hdays]
        refine congrArg some ?_
        simp only [secsPerDay]
        grind
      · have hnot : ¬(1 + m = 2 ∧ leapYear tm.year.toNat = true) := fun h => hfeb ⟨by omega, h.2⟩
        rw [if_neg hnot, Nat.add_sub_cancel_left, monthDays_getElem? _ m (by omega) hfeb, Option.bind_some]
        refine congrArg some ?_
        rw [← UInt32.ofNat_uInt8ToNat, toNat_monthLength]
        simp only [secsPerDay]
        grind

/-- 暦にある月の日時については、秒数を 32 ビットに収めた値になる。 -/
theorem makeTime_eq (tm : Elements) (hm : tm.month.toNat ≤ 12) (hm' : 1 ≤ tm.month.toNat) (hd : 1 ≤ tm.day.toNat) :
    makeTime tm = some (UInt32.ofNat (tm.stamp.seconds 1970)) := by
  have hstart : tm.stamp.seconds 1970 = ((((yearStart tm.year.toNat +
      start (monthLength (leapYear tm.year.toNat)) (tm.month.toNat - 1) + (tm.day.toNat - 1)) * 24 +
      tm.hour.toNat) * 60 + tm.minute.toNat) * 60 + tm.second.toNat) := by
    simp only [Elements.stamp, Stamp.seconds, Stamp.days, Stamp.dayOfYear, Nat.add_sub_cancel_left, leapYear_eq,
      yearStart, Nat.add_assoc]
  have hday : toLong ((tm.day.toNat : Int) - 1) = UInt32.ofNat (tm.day.toNat - 1) := by
    have hlt := tm.day.toNat_lt
    rw [toLong]
    refine congrArg UInt32.ofNat ?_
    omega
  have hyear := foldl_leapYear tm.year.toNat (tm.year.toUInt32 * (secsPerDay * 365))
  have hmonth := fun s => foldlM_addMonth tm s (m := tm.month.toNat - 1) (by omega)
  simp only [makeTime, hmonth, hday, Option.bind_eq_bind, Option.bind_some]
  generalize (List.range tm.year.toNat).foldl _ _ = x at hyear ⊢
  rw [hstart]
  simp only [← UInt32.ofNat_uInt8ToNat, UInt32.ofNat_mul, UInt32.ofNat_add, secsPerDay] at hyear ⊢
  refine congrArg some ?_
  grind

/-! ## `breakTime` -/

/-- 32 ビットの秒数が表す日数は、2106 年を越えない。 -/
theorem lt_yearStart : 49710 < yearStart 137 := by decide +kernel

theorem le_of_yearStart {y d : Nat} (hd : d ≤ 49710) (h : yearStart y ≤ d) : y ≤ 136 :=
  Calendar.le_of_start h (Nat.lt_of_le_of_lt hd lt_yearStart)

theorem narrow_ofNat {d : Nat} (hd : d < 65536) (time : UInt32) :
    (UInt32.ofNat d).toUInt16.toUInt32 ≤ time ↔ d ≤ time.toNat := by
  rw [UInt32.le_iff_toNat_le, UInt16.toNat_toUInt32, UInt32.toNat_toUInt16, UInt32.toNat_ofNat']
  omega

/-- 16 ビットに収めても、年を求める繰り返しは正しい年で終わる。 -/
theorem breakYear_eq (time : UInt32) (ht : time.toNat ≤ 49710) (fuel : Nat) {y : Nat} (hy : yearStart y ≤ time.toNat)
    (hfuel : 137 ≤ fuel + y) :
    ∃ y', y' ≤ 136 ∧ yearStart y' ≤ time.toNat ∧ time.toNat < yearStart (y' + 1) ∧
      breakYear time fuel (UInt8.ofNat y) (UInt32.ofNat (yearStart y)) =
        some (UInt8.ofNat y', UInt32.ofNat (yearStart (y' + 1))) := by
  have hle := le_of_yearStart ht hy
  induction fuel generalizing y with
  | zero => omega
  | succ fuel ih =>
      have hyear : (UInt8.ofNat y).toNat = y := by
        rw [UInt8.toNat_ofNat', Nat.mod_eq_of_lt]
        omega
      have hdays : UInt32.ofNat (yearStart y) + (if leapYear y then 366 else 365) =
          UInt32.ofNat (yearStart (y + 1)) := by
        rw [yearStart_succ]
        cases leapYear y with
        | false => exact (UInt32.ofNat_add _ _).symm
        | true => exact (UInt32.ofNat_add _ _).symm
      have hbound : yearStart (y + 1) < 65536 := by
        rw [yearStart_succ]
        split
        · omega
        · omega
      rw [breakYear, hyear, hdays]
      simp only [narrow_ofNat hbound]
      by_cases hnext : yearStart (y + 1) ≤ time.toNat
      · rw [if_pos hnext]
        have hsucc : UInt8.ofNat y + 1 = UInt8.ofNat (y + 1) := (UInt8.ofNat_add y 1).symm
        rw [hsucc]
        exact ih hnext (by omega) (le_of_yearStart ht hnext)
      · rw [if_neg hnext]
        exact ⟨y, hle, hy, by omega, rfl⟩

theorem ite_monthDays : ∀ l, ∀ m < 12,
    (if UInt8.ofNat m = 1 then if l = true then 29 else 28 else monthDays.getD m 0) =
      UInt8.ofNat (monthLength l m) := by
  decide

theorem start_monthLength_le (l : Bool) : start (monthLength l) 12 ≤ 366 := by
  cases l with
  | false => decide
  | true => decide

/-- 月を求める繰り返しは、その年の中の正しい月で終わる。 -/
theorem breakMonth_eq (year : UInt8) (rest : Nat) {m x : Nat} (hm : rest + m = 12)
    (hx : start (monthLength (leapYear year.toNat)) m + x < start (monthLength (leapYear year.toNat)) 12) :
    ∃ m' d, m' < 12 ∧ d < monthLength (leapYear year.toNat) m' ∧
      start (monthLength (leapYear year.toNat)) m + x = start (monthLength (leapYear year.toNat)) m' + d ∧
      breakMonth year rest (UInt8.ofNat m) (UInt32.ofNat x) = (UInt8.ofNat m', UInt32.ofNat d) := by
  induction rest generalizing m x with
  | zero =>
      obtain rfl : m = 12 := by omega
      omega
  | succ rest ih =>
      have hyear := start_monthLength_le (leapYear year.toNat)
      have hmonth : (UInt8.ofNat m).toNat = m := by
        rw [UInt8.toNat_ofNat', Nat.mod_eq_of_lt]
        omega
      have hlen := ite_monthDays (leapYear year.toNat) m (by omega)
      have hcmp : (UInt8.ofNat (monthLength (leapYear year.toNat) m)).toUInt32 ≤ UInt32.ofNat x ↔
          monthLength (leapYear year.toNat) m ≤ x := by
        rw [UInt32.le_iff_toNat_le, UInt8.toNat_toUInt32, toNat_monthLength, UInt32.toNat_ofNat', Nat.mod_eq_of_lt]
        omega
      simp only [breakMonth, hmonth, hlen, hcmp]
      by_cases hnext : monthLength (leapYear year.toNat) m ≤ x
      · have hsucc : UInt8.ofNat m + 1 = UInt8.ofNat (m + 1) := (UInt8.ofNat_add m 1).symm
        have hsub : UInt32.ofNat x - (UInt8.ofNat (monthLength (leapYear year.toNat) m)).toUInt32 =
            UInt32.ofNat (x - monthLength (leapYear year.toNat) m) := by
          rw [UInt32.ofNat_sub hnext, ← UInt32.ofNat_uInt8ToNat, toNat_monthLength]
        have hshift : start (monthLength (leapYear year.toNat)) (m + 1) + (x - monthLength (leapYear year.toNat) m) =
            start (monthLength (leapYear year.toNat)) m + x := by
          rw [start]
          omega
        rw [if_pos hnext, hsucc, hsub, ← hshift]
        exact ih (by omega) (by omega)
      · rw [if_neg hnext]
        exact ⟨m, x, by omega, by omega, rfl, rfl⟩

/-- `breakTime` の年と月の繰り返しの結果。`d` は月の初めからの日数である。 -/
theorem breakTime_run (t : UInt32) :
    ∃ y m d, y ≤ 136 ∧ m < 12 ∧ d < monthLength (leapYear y) m ∧
      t.toNat / 60 / 60 / 24 = yearStart y + (start (monthLength (leapYear y)) m + d) ∧
      breakTime t = some {
        second := (t % 60).toUInt8
        minute := (t / 60 % 60).toUInt8
        hour := (t / 60 / 60 % 24).toUInt8
        wday := ((t / 60 / 60 / 24 + 4) % 7 + 1).toUInt8
        day := (UInt32.ofNat d + 1).toUInt8
        month := UInt8.ofNat m + 1
        year := UInt8.ofNat y } := by
  have hlt := t.toNat_lt
  have htime : (t / 60 / 60 / 24).toNat = t.toNat / 60 / 60 / 24 := by
    simp only [UInt32.toNat_div, UInt32.reduceToNat]
  -- 年
  obtain ⟨y, hy, hy₁, hy₂, hyear⟩ := breakYear_eq (t / 60 / 60 / 24) (y := 0) (by omega) 256 (Nat.zero_le _)
    (by omega)
  have hyear : breakYear (t / 60 / 60 / 24) 256 0 0 = some (UInt8.ofNat y, UInt32.ofNat (yearStart (y + 1))) := hyear
  have hy' : (UInt8.ofNat y).toNat = y := by
    rw [UInt8.toNat_ofNat', Nat.mod_eq_of_lt]
    omega
  have hback : UInt32.ofNat (yearStart (y + 1)) - (if leapYear y then 366 else 365) = UInt32.ofNat (yearStart y) := by
    rw [yearStart_succ]
    cases leapYear y with
    | false =>
        simp only [Bool.false_eq_true, if_false, UInt32.ofNat_add]
        grind
    | true =>
        simp only [if_true, UInt32.ofNat_add]
        grind
  have hday : t / 60 / 60 / 24 - UInt32.ofNat (yearStart y) =
      UInt32.ofNat (t.toNat / 60 / 60 / 24 - yearStart y) := by
    rw [UInt32.ofNat_sub (by omega), ← htime, UInt32.ofNat_toNat]
  -- 月
  have hlen : yearStart (y + 1) = yearStart y + start (monthLength (leapYear y)) 12 := by
    rw [yearStart_succ, leapYear_eq, Calendar.start_monthLength_twelve, Calendar.yearLength]
  obtain ⟨m, d, hm, hd, hsum, hmonth⟩ := breakMonth_eq (UInt8.ofNat y) 12 (m := 0)
    (x := t.toNat / 60 / 60 / 24 - yearStart y) rfl (by rw [hy', start]; omega)
  have hmonth : breakMonth (UInt8.ofNat y) 12 0 (UInt32.ofNat (t.toNat / 60 / 60 / 24 - yearStart y)) =
      (UInt8.ofNat m, UInt32.ofNat d) := hmonth
  rw [hy', start] at hsum
  rw [hy'] at hd
  refine ⟨y, m, d, hy, hm, hd, by omega, ?_⟩
  simp only [breakTime, hyear, hy', hback, hday, hmonth, Option.bind_eq_bind, Option.bind_some]

/-- `breakTime` は、秒数がちょうど `t` になる暦の日時を返す。 -/
theorem breakTime_eq (t : UInt32) :
    ∃ tm, breakTime t = some tm ∧ tm.stamp.Valid ∧ tm.stamp.seconds 1970 = t.toNat ∧ tm.year.toNat ≤ 136 := by
  obtain ⟨y, m, d, hy, hm, hd, hdays, hrun⟩ := breakTime_run t
  have hlen : d < 31 := by
    have hle := start_monthLength_le (leapYear y)
    have hmax : ∀ l, ∀ m < 12, monthLength l m ≤ 31 := by decide
    exact Nat.lt_of_lt_of_le hd (hmax _ m hm)
  refine ⟨_, hrun, ?_⟩
  generalize htm : Elements.mk _ _ _ _ _ _ _ = tm
  have hyear : tm.year.toNat = y := by
    rw [← htm, UInt8.toNat_ofNat', Nat.mod_eq_of_lt]
    omega
  have hmonth : tm.month.toNat = m + 1 := by
    simp only [← htm, UInt8.toNat_add, UInt8.toNat_ofNat', UInt8.reduceToNat]
    omega
  have hday : tm.day.toNat = d + 1 := by
    simp only [← htm, UInt32.toNat_toUInt8, UInt32.toNat_add, UInt32.toNat_ofNat', UInt32.reduceToNat]
    omega
  have hhour : tm.hour.toNat = t.toNat / 60 / 60 % 24 := by
    rw [← htm, UInt32.toNat_toUInt8]
    simp only [UInt32.toNat_mod, UInt32.toNat_div, UInt32.reduceToNat]
    omega
  have hminute : tm.minute.toNat = t.toNat / 60 % 60 := by
    rw [← htm, UInt32.toNat_toUInt8]
    simp only [UInt32.toNat_mod, UInt32.toNat_div, UInt32.reduceToNat]
    omega
  have hsecond : tm.second.toNat = t.toNat % 60 := by
    rw [← htm, UInt32.toNat_toUInt8]
    simp only [UInt32.toNat_mod, UInt32.reduceToNat]
    omega
  have hstamp : tm.stamp = ⟨1970 + y, m + 1, d + 1, t.toNat / 60 / 60 % 24, t.toNat / 60 % 60, t.toNat % 60⟩ := by
    rw [Elements.stamp, hyear, hmonth, hday, hhour, hminute, hsecond]
  rw [leapYear_eq] at hd hdays
  refine ⟨?_, ?_, by omega⟩
  · rw [hstamp]
    exact ⟨Nat.le_add_left 1 m, hm, Nat.le_add_left 1 d, hd, Nat.mod_lt _ (by decide), Nat.mod_lt _ (by decide),
      Nat.mod_lt _ (by decide)⟩
  · simp only [hstamp, Stamp.seconds, Stamp.days, Stamp.dayOfYear, Nat.add_sub_cancel_left, Nat.add_sub_cancel]
    rw [yearStart] at hdays
    omega

/-! ## レジスター -/

theorem bcd2dec_dec2bcd : ∀ n < 160, bcd2dec (dec2bcd (UInt8.ofNat n)) = UInt8.ofNat n := by decide +kernel

/-- 秒、時、月を除いて読むビットは、書かれる値に影響しない。 -/
theorem bcd2dec_masked : (∀ n < 60, bcd2dec ((dec2bcd (UInt8.ofNat n) ||| 0x80) &&& 0x7f) = UInt8.ofNat n) ∧
    (∀ n < 24, bcd2dec (dec2bcd (UInt8.ofNat n) &&& 0xbf) = UInt8.ofNat n) ∧
    ∀ n < 13, bcd2dec (dec2bcd (UInt8.ofNat n) &&& 0xdf) = UInt8.ofNat n := by
  decide +kernel

/-- 2000 年より前の年は、96 年後の年になる。 -/
theorem bcd2dec_year : ∀ y < 137,
    bcd2dec (dec2bcd (UInt8.ofNat y - 30)) + 30 = if y < 30 then UInt8.ofNat y + 96 else UInt8.ofNat y := by
  decide +kernel

theorem read_write (tm : Elements) (regs : Registers) : RTC.read (RTC.write tm regs) = {
    second := bcd2dec ((dec2bcd tm.second ||| 0x80) &&& 0x7f)
    minute := bcd2dec (dec2bcd tm.minute)
    hour := bcd2dec (dec2bcd tm.hour &&& 0xbf)
    wday := (tm.wday ||| 0x08) &&& 0xc7
    day := bcd2dec (dec2bcd tm.day)
    month := bcd2dec (dec2bcd tm.month &&& 0xdf)
    year := bcd2dec (dec2bcd (tm.year - 30)) + 30 } := rfl

/-- 暦の日時を書いて読むと、年のほかは同じ値になる。 -/
theorem dateTime_write {tm : Elements} (h : tm.stamp.Valid) (hy : tm.year.toNat ≤ 136) (regs : Registers) :
    (RTC.read (RTC.write tm regs)).dateTime = { tm.dateTime with
      year := (if tm.year.toNat < 30 then tm.year + 96 else tm.year).toUInt16 + 1970 } := by
  have hlen : ∀ l, ∀ m < 12, monthLength l m ≤ 31 := by decide
  have hday : tm.day.toNat < 160 := by
    have hle := hlen (Calendar.leap tm.stamp.year) (tm.month.toNat - 1) (by
      have hmonth : tm.month.toNat ≤ 12 := h.month_le
      omega)
    exact Nat.lt_of_le_of_lt (Nat.le_trans h.day_le hle) (by decide)
  have hsecond := bcd2dec_masked.1 tm.second.toNat h.second_lt
  have hminute := bcd2dec_dec2bcd tm.minute.toNat (Nat.lt_trans h.minute_lt (by decide))
  have hhour := bcd2dec_masked.2.1 tm.hour.toNat h.hour_lt
  have hday := bcd2dec_dec2bcd tm.day.toNat hday
  have hmonth := bcd2dec_masked.2.2 tm.month.toNat (Nat.lt_succ_of_le h.month_le)
  have hyear := bcd2dec_year tm.year.toNat (Nat.lt_succ_of_le hy)
  simp only [UInt8.ofNat_toNat] at hsecond hminute hhour hday hmonth hyear
  simp only [read_write, Elements.dateTime, hsecond, hminute, hhour, hday, hmonth, hyear]

/-! ## 時計を合わせる -/

/-- 暦の日時として読む。 -/
def DateTime.stamp (dt : DateTime) : Stamp :=
  ⟨dt.year.toNat, dt.month.toNat, dt.day.toNat, dt.hour.toNat, dt.minute.toNat, dt.second.toNat⟩

theorem DateTime.stamp_inj {dt dt' : DateTime} (h : dt.stamp = dt'.stamp) : dt = dt' := by
  cases dt
  cases dt'
  simp only [DateTime.stamp, Stamp.mk.injEq, UInt16.toNat_inj, UInt8.toNat_inj] at h
  simp [h]

theorem stamp_elements {dt : DateTime} (hy : 1970 ≤ dt.year.toNat) (hy' : dt.year.toNat ≤ 2225) :
    dt.elements.stamp = dt.stamp := by
  have hyear : (dt.year - 1970).toUInt8.toNat = dt.year.toNat - 1970 := by
    rw [UInt16.toNat_toUInt8, UInt16.toNat_sub_of_le]
    · simp only [UInt16.reduceToNat]
      omega
    · rwa [UInt16.le_iff_toNat_le]
  rw [Elements.stamp, DateTime.stamp]
  simp only [DateTime.elements, hyear, Nat.add_sub_of_le hy]

end Wagman.V3
