import Mathlib.Data.Nat.Notation

/-!
# 暦

長さの決まった期間が順に続くとき、通し番号がどの期間の何番目であるかは一つに定まる。年と月をこの期間として、グレゴリオ暦の
日時と、`epoch` 年の初めからの秒数が一対一に対応することを示す。
-/

namespace Calendar

/-! ## 期間の並び -/

/-- `n` 番目の期間の始まり。 -/
def start (len : Nat → Nat) : Nat → Nat
  | 0 => 0
  | n + 1 => start len n + len n

section Start

variable {len : Nat → Nat} {m n x : Nat}

theorem start_mono (h : m ≤ n) : start len m ≤ start len n := by
  induction h with
  | refl => exact Nat.le_refl _
  | step _ ih => exact Nat.le_trans ih (Nat.le_add_right _ _)

/-- 始まりが `x` を越えない期間は、終わりが `x` より後の期間より後にはない。 -/
theorem le_of_start (hm : start len m ≤ x) (hn : x < start len (n + 1)) : m ≤ n := by
  refine Nat.le_of_not_lt fun h => ?_
  have hle : start len (n + 1) ≤ start len m := start_mono h
  omega

/-- 通し番号 `x` を含む期間は一つだけである。 -/
theorem start_unique (hm : start len m ≤ x) (hm' : x < start len (m + 1)) (hn : start len n ≤ x)
    (hn' : x < start len (n + 1)) : m = n :=
  Nat.le_antisymm (le_of_start hm hn') (le_of_start hn hm')

end Start

/-! ## 年と月 -/

/-- うるう年 -/
def leap (y : Nat) : Bool := y % 4 == 0 && (y % 100 != 0 || y % 400 == 0)

def yearLength (y : Nat) : Nat := if leap y then 366 else 365

/-- 0 から数えて `m` 番目の月の日数。 -/
def monthLength (leap : Bool) (m : Nat) : Nat :=
  if m = 1 then if leap then 29 else 28
  else if m = 3 ∨ m = 5 ∨ m = 8 ∨ m = 10 then 30
  else 31

theorem start_monthLength_twelve (y : Nat) : start (monthLength (leap y)) 12 = yearLength y := by
  rw [yearLength]
  cases leap y with
  | false => rfl
  | true => rfl

/-! ## 日時 -/

/-- 日時。月と日は 1 から数える。 -/
structure Stamp where
  year : Nat
  month : Nat
  day : Nat
  hour : Nat
  minute : Nat
  second : Nat
  deriving DecidableEq

namespace Stamp

/-- 暦にある日時。 -/
structure Valid (s : Stamp) : Prop where
  month_pos : 1 ≤ s.month
  month_le : s.month ≤ 12
  day_pos : 1 ≤ s.day
  day_le : s.day ≤ monthLength (leap s.year) (s.month - 1)
  hour_lt : s.hour < 24
  minute_lt : s.minute < 60
  second_lt : s.second < 60

/-- 年の初めからの日数。 -/
def dayOfYear (s : Stamp) : Nat := start (monthLength (leap s.year)) (s.month - 1) + (s.day - 1)

/-- `epoch` 年の初めからの日数。 -/
def days (epoch : Nat) (s : Stamp) : Nat := start (fun k => yearLength (epoch + k)) (s.year - epoch) + s.dayOfYear

/-- `epoch` 年の初めからの秒数。 -/
def seconds (epoch : Nat) (s : Stamp) : Nat := ((s.days epoch * 24 + s.hour) * 60 + s.minute) * 60 + s.second

variable {epoch : Nat} {s t : Stamp}

theorem Valid.dayOfYear_lt (h : s.Valid) :
    start (monthLength (leap s.year)) (s.month - 1) ≤ s.dayOfYear ∧
      s.dayOfYear < start (monthLength (leap s.year)) (s.month - 1 + 1) := by
  have hpos := h.day_pos
  have hle := h.day_le
  rw [dayOfYear, start]
  omega

theorem Valid.dayOfYear_lt_yearLength (h : s.Valid) : s.dayOfYear < yearLength s.year := by
  have hmonth := h.month_pos
  have hmonth' := h.month_le
  rw [← start_monthLength_twelve]
  exact Nat.lt_of_lt_of_le h.dayOfYear_lt.2 (start_mono (by omega))

theorem Valid.days_mem (h : s.Valid) (hy : epoch ≤ s.year) :
    start (fun k => yearLength (epoch + k)) (s.year - epoch) ≤ s.days epoch ∧
      s.days epoch < start (fun k => yearLength (epoch + k)) (s.year - epoch + 1) := by
  have hlt := h.dayOfYear_lt_yearLength
  have hyear : epoch + (s.year - epoch) = s.year := by omega
  rw [days, start, hyear]
  omega

/-- 同じ年の同じ日は、同じ月の同じ日である。 -/
theorem Valid.month_eq (hs : s.Valid) (ht : t.Valid) (hy : s.year = t.year) (h : s.dayOfYear = t.dayOfYear) :
    s.month = t.month ∧ s.day = t.day := by
  obtain ⟨hs₁, hs₂⟩ := hs.dayOfYear_lt
  obtain ⟨ht₁, ht₂⟩ := ht.dayOfYear_lt
  rw [hy, h] at hs₁ hs₂
  have hmonth := start_unique hs₁ hs₂ ht₁ ht₂
  have hs₃ := hs.month_pos
  have ht₃ := ht.month_pos
  have heq : s.month = t.month := by omega
  rw [dayOfYear, dayOfYear, hy, heq] at h
  have hs₄ := hs.day_pos
  have ht₄ := ht.day_pos
  exact ⟨heq, by omega⟩

/-- 暦にある日時は、秒数から定まる。 -/
theorem Valid.seconds_inj (hs : s.Valid) (ht : t.Valid) (hys : epoch ≤ s.year) (hyt : epoch ≤ t.year)
    (h : s.seconds epoch = t.seconds epoch) : s = t := by
  have hs₁ := hs.hour_lt
  have hs₂ := hs.minute_lt
  have hs₃ := hs.second_lt
  have ht₁ := ht.hour_lt
  have ht₂ := ht.minute_lt
  have ht₃ := ht.second_lt
  obtain ⟨hdays, hhour, hminute, hsecond⟩ :
      s.days epoch = t.days epoch ∧ s.hour = t.hour ∧ s.minute = t.minute ∧ s.second = t.second := by
    simp only [seconds] at h
    omega
  obtain ⟨hs₄, hs₅⟩ := hs.days_mem hys
  obtain ⟨ht₄, ht₅⟩ := ht.days_mem hyt
  rw [hdays] at hs₄ hs₅
  have hyear := start_unique hs₄ hs₅ ht₄ ht₅
  have heq : s.year = t.year := by omega
  have hday : s.dayOfYear = t.dayOfYear := by
    simp only [days, heq] at hdays
    omega
  obtain ⟨hmonth, hday'⟩ := hs.month_eq ht heq hday
  cases s
  cases t
  simp only at heq hmonth hday' hhour hminute hsecond
  rw [heq, hmonth, hday', hhour, hminute, hsecond]

end Stamp

end Calendar
