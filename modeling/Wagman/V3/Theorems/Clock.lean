import Wagman.V3.Lemmas.Arguments
import Wagman.V3.Lemmas.Clock

/-!
# 時計を合わせて読む

2000 年から、秒数が 32 ビットに収まる 2106 年 2 月までの日時は、合わせたとおりに読まれる。`date` の引数は検査されないので、
それ以外の六つの数では、頼まれていない日時になるか、`makeTime` が月の表の外を読む。
-/

namespace Wagman.V3

open Machine
open Calendar (Stamp start)

/-! ## 合わせた日時 -/

section Set

variable {dt : DateTime} {regs regs' : Registers}

/-- 秒数が 32 ビットに収まる年。 -/
theorem seconds_lt {s : Stamp} (h : s.Valid) (hy : 1970 ≤ s.year) (hy' : s.year ≤ 2105) :
    s.seconds 1970 < 2 ^ 32 := by
  have hdays : s.days 1970 < yearStart (s.year - 1970 + 1) := (h.days_mem hy).2
  have hmono : yearStart (s.year - 1970 + 1) ≤ yearStart 136 := Calendar.start_mono (by omega)
  have hend : yearStart 136 = 49673 := by decide +kernel
  have hhour := h.hour_lt
  have hminute := h.minute_lt
  have hsecond := h.second_lt
  rw [Stamp.seconds]
  omega

theorem year_le_of_seconds {s : Stamp} (h : s.Valid) (hy : 1970 ≤ s.year) (hs : s.seconds 1970 < 2 ^ 32) :
    s.year ≤ 2106 := by
  have hdays : yearStart (s.year - 1970) ≤ s.days 1970 := (h.days_mem hy).1
  have hle : s.days 1970 ≤ 49710 := by
    rw [Stamp.seconds] at hs
    omega
  have hyear := le_of_yearStart hle hdays
  omega

theorem onClock_eq_some_iff :
    (Event.setDateTime dt).onClock regs = some regs' ↔
      ∃ t tm, makeTime dt.elements = some t ∧ breakTime t = some tm ∧ RTC.write tm regs = regs' := by
  simp only [Event.onClock, RTC.set, Option.bind_eq_bind, Option.bind_eq_some_iff, Option.some.injEq]
  constructor
  · rintro ⟨t, ht, tm, htm, hr⟩
    exact ⟨t, tm, ht, htm, hr⟩
  · rintro ⟨t, tm, ht, htm, hr⟩
    exact ⟨t, ht, tm, htm, hr⟩

/-- 暦の日時に合わせると、秒数を 32 ビットに収めた日時が書かれる。 -/
theorem onClock_valid (hv : dt.stamp.Valid) (hy : 1970 ≤ dt.year.toNat) (hy' : dt.year.toNat ≤ 2225)
    (regs : Registers) :
    ∃ tm, (Event.setDateTime dt).onClock regs = some (RTC.write tm regs) ∧ tm.stamp.Valid ∧ tm.year.toNat ≤ 136 ∧
      tm.stamp.seconds 1970 = dt.stamp.seconds 1970 % 2 ^ 32 := by
  have hmake := makeTime_eq dt.elements hv.month_le hv.month_pos hv.day_pos
  rw [stamp_elements hy hy'] at hmake
  obtain ⟨tm, hbreak, hvalid, hsec, hyear⟩ := breakTime_eq (UInt32.ofNat (dt.stamp.seconds 1970))
  rw [UInt32.toNat_ofNat'] at hsec
  exact ⟨tm, onClock_eq_some_iff.mpr ⟨_, tm, hmake, hbreak, rfl⟩, hvalid, hyear, hsec⟩

theorem stamp_dateTime {tm : Elements} : tm.dateTime.stamp = tm.stamp := by
  have hlt := tm.year.toNat_lt
  have hyear : (tm.year.toUInt16 + 1970).toNat = 1970 + tm.year.toNat := by
    simp only [UInt16.toNat_add, UInt8.toNat_toUInt16, UInt16.reduceToNat]
    omega
  rw [DateTime.stamp, Elements.stamp]
  simp only [Elements.dateTime, hyear]

/-- 暦の日時は、2000 年以降で秒数が 32 ビットに収まれば、合わせたとおりに読まれる。 -/
theorem read_onClock (hv : dt.stamp.Valid) (hy : 2000 ≤ dt.year.toNat) (hs : dt.stamp.seconds 1970 < 2 ^ 32)
    (regs : Registers) :
    ∃ regs', (Event.setDateTime dt).onClock regs = some regs' ∧ (RTC.read regs').dateTime = dt := by
  have hle : 1970 ≤ dt.stamp.year := Nat.le_trans (by decide) hy
  have hmax := year_le_of_seconds hv hle hs
  obtain ⟨tm, hclock, hvalid, hyear, hsec⟩ := onClock_valid hv hle (Nat.le_trans hmax (by decide)) regs
  rw [Nat.mod_eq_of_lt hs] at hsec
  have hstamp := hvalid.seconds_inj hv (Nat.le_add_right _ _) hle hsec
  have hlate : ¬tm.year.toNat < 30 := by
    have heq : 1970 + tm.year.toNat = dt.year.toNat := congrArg Stamp.year hstamp
    omega
  refine ⟨_, hclock, DateTime.stamp_inj ?_⟩
  rw [dateTime_write hvalid hyear, if_neg hlate, ← hstamp, ← stamp_dateTime]
  rfl

/-- 合わせたとおりに読まれる暦の日時は、2000 年以降で、秒数が 32 ビットに収まる。 -/
theorem range_of_read (hv : dt.stamp.Valid) (h : (Event.setDateTime dt).onClock regs = some regs')
    (hr : (RTC.read regs').dateTime = dt) : 2000 ≤ dt.year.toNat ∧ dt.stamp.seconds 1970 < 2 ^ 32 := by
  obtain ⟨t, tm, hmake, hbreak, rfl⟩ := onClock_eq_some_iff.mp h
  obtain ⟨tm', hbreak', hvalid, hsec, hyear⟩ := breakTime_eq t
  obtain rfl := Option.some.inj (hbreak.symm.trans hbreak')
  rw [dateTime_write hvalid hyear] at hr
  by_cases hearly : tm.year.toNat < 30
  · -- 2000 年より前の日時は、ほかの年として読まれる
    rw [if_pos hearly] at hr
    have hdt : dt.year.toNat = tm.year.toNat + 2066 := by
      rw [← hr]
      simp only [UInt16.toNat_add, UInt8.toNat_toUInt16, UInt8.toNat_add, UInt16.reduceToNat, UInt8.reduceToNat]
      omega
    have hle : 1970 ≤ dt.stamp.year := show 1970 ≤ dt.year.toNat by omega
    have hmake' := makeTime_eq dt.elements hv.month_le hv.month_pos hv.day_pos
    rw [stamp_elements hle (by omega), hmake] at hmake'
    have hlt : dt.stamp.seconds 1970 < 2 ^ 32 := seconds_lt hv hle (show dt.year.toNat ≤ 2105 by omega)
    rw [Option.some.inj hmake', UInt32.toNat_ofNat', Nat.mod_eq_of_lt hlt] at hsec
    have hyear' : 1970 + tm.year.toNat = dt.year.toNat :=
      congrArg Stamp.year (hvalid.seconds_inj hv (Nat.le_add_right _ _) hle hsec)
    omega
  · rw [if_neg hearly] at hr
    have hstamp : dt.stamp = tm.stamp := by
      rw [← stamp_dateTime, ← hr]
      rfl
    have hdt : dt.year.toNat = 1970 + tm.year.toNat := congrArg Stamp.year hstamp
    refine ⟨by omega, ?_⟩
    rw [hstamp, hsec]
    exact t.toNat_lt

end Set

section Date

variable {env : Env} {w : World} {regs : Registers} {dt : DateTime} {argv : List (List UInt8)}

theorem clockAfter_self : clockAfter w w regs = some regs := by
  rw [clockAfter, Nat.sub_self]
  rfl

theorem clockAfter_setDateTime (hw : w.ram.wireEnabled = true) :
    clockAfter w (setDateTime env dt w) regs = (Event.setDateTime dt).onClock regs := by
  have hlog : (setDateTime env dt w).log = ⟨w.now, .setDateTime dt⟩ :: w.log := by
    rw [setDateTime, if_pos hw]
    rfl
  rw [clockAfter, hlog, List.length_cons, Nat.add_sub_cancel_left, List.take_one]
  simp

theorem readDateTime_setDateTime (hw : w.ram.wireEnabled = true) (regs : Registers) :
    readDateTime (setDateTime env dt w) regs = (RTC.read regs).dateTime := by
  rw [readDateTime, setDateTime, if_pos hw]
  exact if_pos hw

end Date

/-- 2000 年から 2099 年までの暦の日時は、合わせたとおりに読まれる。 -/
theorem date_round_trip (env : Env) {w : World} (hw : w.ram.wireEnabled = true) {dt : DateTime} (hv : dt.stamp.Valid)
    (hy : 2000 ≤ dt.year.toNat) (hy' : dt.year.toNat ≤ 2099) (regs : Registers) :
    ∃ regs', clockAfter w (setDateTime env dt w) regs = some regs' ∧
      readDateTime (setDateTime env dt w) regs' = dt := by
  have hs := seconds_lt hv (show 1970 ≤ dt.year.toNat by omega) (show dt.year.toNat ≤ 2105 by omega)
  obtain ⟨regs', hclock, hread⟩ := read_onClock hv hy hs regs
  exact ⟨regs', (clockAfter_setDateTime hw).trans hclock, (readDateTime_setDateTime hw regs').trans hread⟩

theorem date_round_trip_leap_day :
    ∃ regs', clockAfter (powerOn Hardware.ready)
        (setDateTime Env.ideal ⟨2096, 2, 29, 23, 59, 59⟩ (powerOn Hardware.ready)) (fun _ => 0) = some regs' ∧
      readDateTime (setDateTime Env.ideal ⟨2096, 2, 29, 23, 59, 59⟩ (powerOn Hardware.ready)) regs' =
        ⟨2096, 2, 29, 23, 59, 59⟩ := by
  refine date_round_trip Env.ideal rfl ?_ (by decide) (by decide) _
  exact ⟨by decide, by decide, by decide, by decide, by decide, by decide, by decide⟩

/-! ## `date` の引数 -/

/-- 数字だけの並びの値。 -/
def natural (s : List UInt8) : Option Nat := if s ≠ [] ∧ s.all isdigit = true then some (digits s) else none

/-- 符号を付けられる十進法の整数。 -/
def decimal (s : List UInt8) : Option Int :=
  match s with
  | 0x2d :: t => (natural t).map fun n : Nat => -(n : Int)
  | 0x2b :: t => (natural t).map fun n : Nat => (n : Int)
  | t => (natural t).map fun n : Nat => (n : Int)

/-- 六つの引数は、`dt` の六つの数を表す。 -/
structure Asks (argv : List (List UInt8)) (dt : DateTime) : Prop where
  year : decimal (arg argv 1) = some (dt.year.toNat : Int)
  month : decimal (arg argv 2) = some (dt.month.toNat : Int)
  day : decimal (arg argv 3) = some (dt.day.toNat : Int)
  hour : decimal (arg argv 4) = some (dt.hour.toNat : Int)
  minute : decimal (arg argv 5) = some (dt.minute.toNat : Int)
  second : decimal (arg argv 6) = some (dt.second.toNat : Int)

/-- 月の表の外を読まず、時計は変わらないか、引数が表す暦の日時に合わせられて、そのとおりに読まれる。 -/
def Obeyed (argv : List (List UInt8)) (w w' : World) (regs : Registers) : Prop :=
  ∃ regs', clockAfter w w' regs = some regs' ∧
    (regs' = regs ∨ (readDateTime w' regs').stamp.Valid ∧ Asks argv (readDateTime w' regs'))

section Args

variable {env : Env} {w : World} {argv : List (List UInt8)} {dt : DateTime} {s : List UInt8} {n : Nat}

/-- `commandDate` が引数から作る日時。 -/
def dateArgs (argv : List (List UInt8)) : DateTime where
  year := toWord (atoi (arg argv 1))
  month := toByte (atoi (arg argv 2))
  day := toByte (atoi (arg argv 3))
  hour := toByte (atoi (arg argv 4))
  minute := toByte (atoi (arg argv 5))
  second := toByte (atoi (arg argv 6))

theorem commandDate_eq (hl : argv.length = 7) : (commandDate env argv w).2 = setDateTime env (dateArgs argv) w := by
  simp only [commandDate, hl]
  rfl

theorem of_natural {f : Nat → Int} (h : (natural s).map f = some (n : Int)) :
    (s ≠ [] ∧ s.all isdigit = true) ∧ f (digits s) = n := by
  rw [natural] at h
  split at h
  · rename_i hs
    exact ⟨hs, Option.some.inj h⟩
  · cases h

theorem atoi_of_decimal (h : decimal s = some (n : Int)) : atoi s = Int.bmod n (2 ^ 16) := by
  unfold decimal at h
  split at h
  · obtain ⟨-, hn⟩ := of_natural h
    rw [← hn]
    rfl
  · obtain ⟨-, hn⟩ := of_natural h
    rw [← hn]
    rfl
  · obtain ⟨⟨hne, hall⟩, hn⟩ := of_natural h
    rw [atoi_of_digits hne hall, hn]

theorem toByte_atoi {c : UInt8} (h : decimal s = some (c.toNat : Int)) : toByte (atoi s) = c := by
  have hlt := c.toNat_lt
  rw [atoi_of_decimal h, Int.bmod_eq_of_le (by omega) (by omega), toByte, ← UInt8.toNat_inj, UInt8.toNat_ofNat']
  omega

theorem toWord_atoi {c : UInt16} (h : decimal s = some (c.toNat : Int)) : toWord (atoi s) = c := by
  have hlt := c.toNat_lt
  have hmod : Int.bmod c.toNat (2 ^ 16) % 2 ^ 16 = (c.toNat : Int) % 2 ^ 16 := Int.bmod_emod
  rw [atoi_of_decimal h, toWord, hmod, ← UInt16.toNat_inj, UInt16.toNat_ofNat']
  omega

theorem dateArgs_of_asks (h : Asks argv dt) : dateArgs argv = dt := by
  rw [dateArgs, toWord_atoi h.year, toByte_atoi h.month, toByte_atoi h.day, toByte_atoi h.hour, toByte_atoi h.minute,
    toByte_atoi h.second]

/-- 合わせた後の分のレジスターは、`0xff` ではない。 -/
theorem onClock_ne {regs' : Registers} (h : (Event.setDateTime dt).onClock (fun _ => 0xff) = some regs') :
    regs' ≠ fun _ => 0xff := by
  obtain ⟨t, tm, -, hbreak, rfl⟩ := onClock_eq_some_iff.mp h
  obtain ⟨tm', hbreak', hvalid, -, -⟩ := breakTime_eq t
  obtain rfl := Option.some.inj (hbreak.symm.trans hbreak')
  intro heq
  have hreg : dec2bcd tm.minute = 0xff := congrFun heq 1
  have hminute := bcd2dec_dec2bcd tm.minute.toNat (Nat.lt_trans hvalid.minute_lt (by decide))
  have hlt : tm.minute.toNat < 60 := hvalid.minute_lt
  rw [UInt8.ofNat_toNat, hreg] at hminute
  rw [← hminute] at hlt
  exact absurd hlt (by decide)

end Args

/-- `date` が頼まれたとおりに働くのは、I2C を使わないか、六つの引数が、2000 年以降で秒数が 32 ビットに収まる暦の日時を表す
ちょうどそのときである。 -/
theorem date_obeyed_iff (env : Env) {argv : List (List UInt8)} (hl : argv.length = 7) (w : World) :
    (∀ regs, Obeyed argv w (commandDate env argv w).2 regs) ↔
      w.ram.wireEnabled = false ∨
        ∃ dt, Asks argv dt ∧ dt.stamp.Valid ∧ 2000 ≤ dt.year.toNat ∧ dt.stamp.seconds 1970 < 2 ^ 32 := by
  cases hw : w.ram.wireEnabled with
  | false =>
      have hsame : setDateTime env (dateArgs argv) w = w := by
        rw [setDateTime, if_neg (by simp [hw])]
      refine ⟨fun _ => .inl rfl, fun _ regs => ⟨regs, ?_, .inl rfl⟩⟩
      rw [commandDate_eq hl, hsame, clockAfter_self]
  | true =>
      rw [commandDate_eq hl]
      constructor
      · intro h
        obtain ⟨regs', hclock, hor⟩ := h fun _ => 0xff
        rw [clockAfter_setDateTime hw] at hclock
        rw [readDateTime_setDateTime hw] at hor
        obtain ⟨hvalid, hasks⟩ := hor.resolve_left (onClock_ne hclock)
        have hdt := dateArgs_of_asks hasks
        rw [hdt] at hclock
        exact .inr ⟨_, hasks, hvalid, range_of_read hvalid hclock rfl⟩
      · rintro (hfalse | ⟨dt, hasks, hvalid, hy, hs⟩) regs
        · cases hfalse
        · obtain ⟨regs', hclock, hread⟩ := read_onClock hvalid hy hs regs
          refine ⟨regs', ?_, .inr ?_⟩
          · rw [dateArgs_of_asks hasks, clockAfter_setDateTime hw, hclock]
          · rw [readDateTime_setDateTime hw, hread]
            exact ⟨hvalid, hasks⟩

/-- 引数が `2016 m d 0 0 0` の行。 -/
def dateLine (m d : List UInt8) : List (List UInt8) :=
  [ascii ['d', 'a', 't', 'e'], ascii ['2', '0', '1', '6'], m, d, ascii ['0'], ascii ['0'], ascii ['0']]

theorem date_obeyed_iff_sample : Obeyed (dateLine (ascii ['2']) (ascii ['2', '9'])) (powerOn Hardware.ready)
    (commandDate Env.ideal (dateLine (ascii ['2']) (ascii ['2', '9'])) (powerOn Hardware.ready)).2 (fun _ => 0) := by
  refine (date_obeyed_iff Env.ideal rfl _).mpr (.inr ⟨⟨2016, 2, 29, 0, 0, 0⟩, ?_, ?_, by decide, by decide +kernel⟩) _
  · exact ⟨by decide, by decide, by decide, by decide, by decide, by decide⟩
  · exact ⟨by decide, by decide, by decide, by decide, by decide, by decide, by decide⟩

/-- `date 2016 2 30 0 0 0` は 3 月 1 日になり、`date 2016 14 1 0 0 0` は月の表の外を読む。 -/
theorem date_accepts_bad : ∃ w, w = powerOn Hardware.ready ∧
    (∃ regs', clockAfter w (commandDate Env.ideal (dateLine (ascii ['2']) (ascii ['3', '0'])) w).2 (fun _ => 0xff) =
        some regs' ∧ (RTC.read regs').dateTime = ⟨2016, 3, 1, 0, 0, 0⟩) ∧
    ¬Obeyed (dateLine (ascii ['2']) (ascii ['3', '0'])) w
      (commandDate Env.ideal (dateLine (ascii ['2']) (ascii ['3', '0'])) w).2 (fun _ => 0xff) ∧
    clockAfter w (commandDate Env.ideal (dateLine (ascii ['1', '4']) (ascii ['1'])) w).2 (fun _ => 0xff) = none := by
  have hw : (powerOn Hardware.ready).ram.wireEnabled = true := rfl
  have hdate : ∀ m d, clockAfter (powerOn Hardware.ready)
      (commandDate Env.ideal (dateLine m d) (powerOn Hardware.ready)).2 (fun _ => 0xff) =
      (Event.setDateTime (dateArgs (dateLine m d))).onClock fun _ => 0xff := by
    intro m d
    rw [commandDate_eq rfl, clockAfter_setDateTime hw]
  have hmake : makeTime (dateArgs (dateLine (ascii ['2']) (ascii ['3', '0']))).elements = some 1456790400 := by
    decide +kernel
  have hbreak : breakTime 1456790400 = some ⟨0, 0, 0, 3, 1, 3, 46⟩ := by decide +kernel
  have hread : ∀ regs, (RTC.read (RTC.write ⟨0, 0, 0, 3, 1, 3, 46⟩ regs)).dateTime = ⟨2016, 3, 1, 0, 0, 0⟩ := by
    intro regs
    rw [read_write]
    decide +kernel
  have hclock : (Event.setDateTime (dateArgs (dateLine (ascii ['2']) (ascii ['3', '0'])))).onClock (fun _ => 0xff) =
      some (RTC.write ⟨0, 0, 0, 3, 1, 3, 46⟩ fun _ => 0xff) := onClock_eq_some_iff.mpr ⟨_, _, hmake, hbreak, rfl⟩
  refine ⟨_, rfl, ⟨_, (hdate _ _).trans hclock, hread _⟩, ?_, ?_⟩
  · rintro ⟨regs', hclock', hor⟩
    rw [hdate] at hclock'
    rw [commandDate_eq rfl, readDateTime_setDateTime hw] at hor
    obtain ⟨-, hasks⟩ := hor.resolve_left (onClock_ne hclock')
    obtain rfl := Option.some.inj (hclock.symm.trans hclock')
    have hmonth := hasks.month
    rw [hread] at hmonth
    exact absurd hmonth (by decide)
  · rw [hdate, Event.onClock]
    have hnone : makeTime (dateArgs (dateLine (ascii ['1', '4']) (ascii ['1']))).elements = none := by decide +kernel
    rw [hnone]
    rfl

end Wagman.V3
