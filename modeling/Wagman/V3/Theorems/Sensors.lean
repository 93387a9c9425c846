import Wagman.V3.Sensors
import Wagman.V3.Lemmas.Effects
import Wagman.Lib.Run

/-!
# 健康の値と、読む間に途切れた実行

健康の値は、増やしてから減らすまでの間に途切れた実行の回数を、5 まで数える。5 になった計測器は、もう読まれない。
-/

namespace Wagman.V3.Sensors

open Machine

variable {p q : Probe} {s : Sensor}

theorem healthAddr_inj {s t : Sensor} (h : s.healthAddr = t.healthAddr) : s = t := by
  obtain ⟨k, i⟩ := s
  obtain ⟨l, j⟩ := t
  cases k with
  | current =>
      cases l with
      | current =>
          obtain ⟨rfl, -⟩ := deviceRegion_add_inj (by simp) (by simp) h
          rfl
      | thermistor =>
          obtain ⟨-, ho⟩ := deviceRegion_add_inj (by simp) (by simp) h
          cases ho
  | thermistor =>
      cases l with
      | current =>
          obtain ⟨-, ho⟩ := deviceRegion_add_inj (by simp) (by simp) h
          cases ho
      | thermistor =>
          obtain ⟨rfl, -⟩ := deviceRegion_add_inj (by simp) (by simp) h
          rfl

@[simp] theorem health_setHealth_self (s : Sensor) (v : UInt8) (p : Probe) : (p.setHealth s v).health s = v :=
  Bytes.store_self _ _ _

@[simp] theorem setHealth_cuts (s : Sensor) (v : UInt8) (p : Probe) : (p.setHealth s v).cuts = p.cuts := rfl

theorem health_setHealth_of_ne {s t : Sensor} (h : t ≠ s) (v : UInt8) (p : Probe) :
    (p.setHealth s v).health t = p.health t :=
  Bytes.store_of_ne (fun ha => h (healthAddr_inj ha)) _ _

/-! ## 不変条件 -/

/-- 健康の値は、5 までの `cuts` と、増やしたままの 1 の和である。調べている計測器の `cuts` は 5 に達していない。 -/
structure Counted (s : Sensor) (p : Probe) : Prop where
  health : (p.health s).toNat = min 5 (p.cuts s) + if p.spot.probing = some s then 1 else 0
  below : p.spot.sensor = some s → p.cuts s < 5

theorem Counted.of_idle (h : Counted s p) (hp : p.spot = .idle) : (p.health s).toNat = min 5 (p.cuts s) := by
  have hh := h.health
  rw [hp] at hh
  exact hh

theorem Counted.relocate {spot : Spot} (h : Counted s p) (hp : p.spot.probing ≠ some s) (hs : spot.probing ≠ some s)
    (hb : spot.sensor = some s → p.cuts s < 5) : Counted s { p with spot := spot } := by
  refine ⟨?_, hb⟩
  have hh := h.health
  rw [if_neg hp] at hh
  rw [if_neg hs]
  exact hh

theorem Counted.check {t : Sensor} {rest : List Sensor} (hp : p.spot = .next (t :: rest)) (h : Counted s p) :
    Counted s { p with spot := if 5 ≤ p.health t then .next rest else .attempt t 2 rest } := by
  have hprobing : p.spot.probing ≠ some s := by simp [hp, Spot.probing]
  by_cases hle : 5 ≤ p.health t
  · rw [if_pos hle]
    exact h.relocate hprobing nofun nofun
  · rw [if_neg hle]
    refine h.relocate hprobing nofun fun ht => ?_
    cases ht
    have hlt : (p.health s).toNat < 5 := UInt8.lt_iff_toNat_lt.mp (UInt8.not_le.mp hle)
    have hh := h.health
    rw [if_neg hprobing] at hh
    omega

theorem Counted.raise {t : Sensor} {left : Nat} {rest : List Sensor} (hp : p.spot = .attempt t left rest)
    (h : Counted s p) : Counted s { p.setHealth t (p.health t + 1) with spot := .raised t left rest } := by
  have hh := h.health
  rw [hp] at hh
  by_cases hst : t = s
  · subst hst
    have hlt : p.cuts t < 5 := h.below (by rw [hp]; rfl)
    refine ⟨?_, fun _ => hlt⟩
    have hprobing : (p.health t).toNat = min 5 (p.cuts t) := hh
    have hself : Probe.health { p.setHealth t (p.health t + 1) with spot := .raised t left rest } t =
        p.health t + 1 := health_setHealth_self t _ p
    have hup : (p.health t + 1).toNat = min 5 (p.cuts t) + 1 := by
      rw [UInt8.toNat_add, hprobing]
      simp
      omega
    rw [hself, hup]
    simp [Spot.probing]
  · have hother : Probe.health { p.setHealth t (p.health t + 1) with spot := .raised t left rest } s = p.health s :=
      health_setHealth_of_ne (Ne.symm hst) _ p
    refine ⟨?_, fun hs => absurd (Option.some.inj hs) hst⟩
    rw [hother]
    simpa [Spot.probing, hst] using hh

theorem sensor_after (s t : Sensor) (left : Nat) (value : UInt16) (rest : List Sensor) :
    (Probe.after t left value rest).probing = none ∧
      ((Probe.after t left value rest).sensor = some s → t = s) := by
  unfold Probe.after
  split
  · exact ⟨rfl, nofun⟩
  · split
    · exact ⟨rfl, nofun⟩
    · exact ⟨rfl, fun h => Option.some.inj h⟩

theorem Counted.lower {t : Sensor} {left : Nat} {value : UInt16} {rest : List Sensor}
    (hp : p.spot = .sensed t left value rest) (h : Counted s p) :
    Counted s { p.setHealth t (p.health t - 1) with spot := Probe.after t left value rest } := by
  obtain ⟨hprobing, hsensor⟩ := sensor_after s t left value rest
  have hh := h.health
  rw [hp] at hh
  by_cases hst : t = s
  · subst hst
    have hlt : p.cuts t < 5 := h.below (by rw [hp]; rfl)
    refine ⟨?_, fun _ => hlt⟩
    have hraised : (p.health t).toNat = min 5 (p.cuts t) + 1 := by
      simpa [Spot.probing] using hh
    have hself : Probe.health { p.setHealth t (p.health t - 1) with spot := Probe.after t left value rest } t =
        p.health t - 1 := health_setHealth_self t _ p
    have hone : (1 : UInt8) ≤ p.health t := by
      rw [UInt8.le_iff_toNat_le, hraised]
      exact Nat.le_add_left 1 _
    rw [hself, hprobing, UInt8.toNat_sub_of_le _ _ hone, hraised]
    rfl
  · have hother : Probe.health { p.setHealth t (p.health t - 1) with spot := Probe.after t left value rest } s =
        p.health s := health_setHealth_of_ne (Ne.symm hst) _ p
    refine ⟨?_, fun hs => absurd (hsensor hs) hst⟩
    have hidle : (p.health s).toNat = min 5 (p.cuts s) := by
      simpa [Spot.probing, hst] using hh
    rw [hother, hprobing]
    exact hidle

theorem Counted.reset {t : Sensor} (hp : p.spot.probing = some t) (h : Counted s p) :
    Counted s { p with cuts := Function.update p.cuts t (p.cuts t + 1), spot := .idle } := by
  refine ⟨?_, nofun⟩
  have hh := h.health
  rw [hp] at hh
  have hsame : Probe.health { p with cuts := Function.update p.cuts t (p.cuts t + 1), spot := .idle } s =
      p.health s := rfl
  rw [hsame]
  by_cases hst : t = s
  · subst hst
    have hsensor : p.spot.sensor = some t := by
      cases hspot : p.spot with
      | raised u _ _ =>
          rw [hspot] at hp
          exact hp
      | sensed u _ _ _ =>
          rw [hspot] at hp
          exact hp
      | _ =>
          rw [hspot] at hp
          cases hp
    have hlt := h.below hsensor
    rw [if_pos rfl] at hh
    simp only [Function.update_self, Spot.probing, reduceCtorEq, if_false, hh]
    omega
  · simp only [Function.update_of_ne (Ne.symm hst), Spot.probing, reduceCtorEq, if_false]
    simpa [hst] using hh

theorem Counted.step {m : Move} (h : Counted s p) (hstep : p.step m = some q) : Counted s q := by
  cases m with
  | begin =>
      simp only [Probe.step] at hstep
      split at hstep
      · rename_i hp
        cases hstep
        exact h.relocate (by simp [hp, Spot.probing]) nofun nofun
      · cases hstep
  | check =>
      simp only [Probe.step] at hstep
      split at hstep
      · rename_i t rest hp
        cases hstep
        exact h.check hp
      · cases hstep
  | raise =>
      simp only [Probe.step] at hstep
      split at hstep
      · rename_i t left rest hp
        cases hstep
        exact h.raise hp
      · cases hstep
  | sense value =>
      simp only [Probe.step] at hstep
      split at hstep
      · rename_i t left rest hp
        cases hstep
        refine ⟨?_, fun hs => h.below (by rw [hp]; exact hs)⟩
        have hh := h.health
        rw [hp] at hh
        exact hh
      · cases hstep
  | lower =>
      simp only [Probe.step] at hstep
      split at hstep
      · rename_i t left value rest hp
        cases hstep
        exact h.lower hp
      · cases hstep
  | finish =>
      simp only [Probe.step] at hstep
      split at hstep
      · rename_i hp
        cases hstep
        exact h.relocate (by simp [hp, Spot.probing]) nofun nofun
      · cases hstep
  | reset =>
      simp only [Probe.step] at hstep
      split at hstep
      · rename_i t hp
        cases hstep
        exact h.reset hp
      · rename_i hp
        cases hstep
        exact h.relocate (by simp [hp]) nofun nofun

/-! ## 実行 -/

theorem Counted.run {ms : List Move} (h : Counted s p) (hr : Run.run Probe.step ms p = some q) : Counted s q :=
  Run.run_induct_of_meets (C := fun _ _ => True) (P := Counted s) (fun _ _ _ _ hp hs => hp.step hs) hr
    (Run.Meets.of_forall (fun _ _ => trivial) _) h

theorem counted_start {m : Nat → UInt8} (h : m s.healthAddr = 0) : Counted s (.start m) := by
  refine ⟨?_, nofun⟩
  have hzero : (Probe.start m).health s = 0 := h
  rw [hzero]
  simp [Probe.start, Spot.probing]

theorem step_cuts {m : Move} (hm : m ≠ .reset) (h : p.step m = some q) : q.cuts = p.cuts := by
  cases m with
  | reset => exact absurd rfl hm
  | _ =>
      simp only [Probe.step] at h
      split at h
      · cases h
        rfl
      · cases h

theorem run_cuts {ms : List Move} (hms : ∀ m ∈ ms, m ≠ .reset) (h : Run.run Probe.step ms p = some q) :
    q.cuts = p.cuts :=
  Run.run_induct_of_meets (C := fun m _ => m ≠ .reset) (P := fun q => q.cuts = p.cuts)
    (fun _ _ _ hm hp hs => (step_cuts hm hs).trans hp) h (Run.Meets.of_forall hms _) rfl

/-- 途切れた実行が 5 回に達した計測器は、もう読まれない。 -/
structure Retired (s : Sensor) (n : Nat) (p : Probe) : Prop extends Counted s p where
  cuts : 5 ≤ p.cuts s
  reads : p.reads s = n

theorem Retired.step {n : Nat} {m : Move} (h : Retired s n p) (hstep : p.step m = some q) : Retired s n q := by
  have hcounted := h.toCounted.step hstep
  cases m with
  | sense value =>
      simp only [Probe.step] at hstep
      split at hstep
      · rename_i t left rest hp
        cases hstep
        have hst : s ≠ t := by
          rintro rfl
          have hlt := h.below (by rw [hp]; rfl)
          have hle := h.cuts
          omega
        refine ⟨hcounted, h.cuts, ?_⟩
        simpa only [Function.update_of_ne hst] using h.reads
      · cases hstep
  | reset =>
      simp only [Probe.step] at hstep
      split at hstep
      · rename_i t hp
        cases hstep
        refine ⟨hcounted, ?_, h.reads⟩
        have hle := h.cuts
        by_cases hst : s = t
        · subst hst
          simp only [Function.update_self]
          omega
        · simpa only [Function.update_of_ne hst] using hle
      · cases hstep
        exact ⟨hcounted, h.cuts, h.reads⟩
  | _ =>
      simp only [Probe.step] at hstep
      split at hstep
      · cases hstep
        exact ⟨hcounted, h.cuts, h.reads⟩
      · cases hstep

/-- 健康の値がすべて 0 の EEPROM から始めて、`checkSensors` の実行をどのように続け、どこで途切れさせても、実行の間では、
健康の値は、増やしてから減らすまでの間に途切れた実行の回数を 5 まで数えたものである。最後まで終わった実行は健康の値を
変えず、健康の値が 5 の計測器はもう読まれない。 -/
theorem health_counts_cuts (m : Nat → UInt8) (hm : ∀ s : Sensor, m s.healthAddr = 0) (ms : List Move) (p : Probe)
    (h : Run.run Probe.step ms (.start m) = some p) (hp : p.spot = .idle) (s : Sensor) :
    (p.health s).toNat = min 5 (p.cuts s) ∧ p.health s ≤ 5 ∧
    (∀ ms' q, (∀ o ∈ ms', o ≠ .reset) → Run.run Probe.step ms' p = some q → q.spot = .idle →
      q.health s = p.health s) ∧
    (p.health s = 5 → ∀ ms' q, Run.run Probe.step ms' p = some q → q.reads s = p.reads s) := by
  have hcounted : Counted s p := (counted_start (hm s)).run h
  have hhealth := hcounted.of_idle hp
  refine ⟨hhealth, ?_, fun ms' q hms hr hq => ?_, fun h5 ms' q hr => ?_⟩
  · rw [UInt8.le_iff_toNat_le, hhealth]
    exact Nat.min_le_left 5 _
  · have hq' := (hcounted.run hr).of_idle hq
    rw [run_cuts hms hr, ← hhealth] at hq'
    exact UInt8.toNat_inj.mp hq'
  · have hcuts : 5 ≤ p.cuts s := by
      rw [h5] at hhealth
      have hfive : (5 : UInt8).toNat = 5 := rfl
      omega
    have hretired : Retired s (p.reads s) q :=
      Run.run_induct_of_meets (C := fun _ _ => True) (P := Retired s (p.reads s)) (fun _ _ _ _ hp hs => hp.step hs) hr
        (Run.Meets.of_forall (fun _ _ => trivial) _) ⟨hcounted, hcuts, rfl⟩
    exact hretired.reads

/-- ポート 0 の電流を読む間に五回途切れた後、最後まで終わる実行。読んだ値はすべて 0 である。 -/
def fiveCuts : List Move :=
  (List.replicate 5 [Move.begin, .check, .raise, .reset]).flatten ++
    [.begin, .check] ++ (List.replicate 9 [Move.check, .raise, .sense 0, .lower]).flatten ++ [.finish]

theorem health_counts_cuts_five : ∃ p, Run.run Probe.step fiveCuts (.start fun _ => 0) = some p ∧
    p.cuts ⟨.current, 0⟩ = 5 ∧ (p.health ⟨.current, 0⟩).toNat = 5 ∧ (p.health ⟨.current, 1⟩).toNat = 0 := by
  have hb : ((Run.run Probe.step fiveCuts (.start fun _ => 0)).any fun p =>
      p.spot == .idle && p.cuts ⟨.current, 0⟩ == 5 && p.cuts ⟨.current, 1⟩ == 0) = true := by decide +kernel
  obtain ⟨p, hp, hx⟩ := (Option.any_eq_true _ _).mp hb
  simp only [Bool.and_eq_true, beq_iff_eq] at hx
  obtain ⟨⟨hidle, hc₀⟩, hc₁⟩ := hx
  have hall := health_counts_cuts (fun _ => 0) (fun _ => rfl) fiveCuts p hp hidle
  exact ⟨p, hp, hc₀, by rw [(hall _).1, hc₀]; rfl, by rw [(hall _).1, hc₁]; rfl⟩

/-! ## ファームウェアとの対応 -/

/-- `w` から `w'` までの実行を、リセットのない操作の並びが `p` から `q` まで追う。途中のどの時点の EEPROM も、並びの途中の
EEPROM である。 -/
def Follows (w w' : World) (p q : Probe) : Prop :=
  Trail (fun _ => True) w w' ∧ ∃ ms, (∀ m ∈ ms, m ≠ .reset) ∧ Run.run Probe.step ms p = some q ∧
    q.eeprom = w'.hw.eeprom ∧ ∀ h, During w w' h → ∃ pre u, pre <+: ms ∧ Run.run Probe.step pre p = some u ∧
      u.eeprom = h.eeprom

section Follows

variable {env : Env} {w w' w'' : World} {u : Probe}

theorem Follows.trans (h₁ : Follows w w' p q) (h₂ : Follows w' w'' q u) : Follows w w'' p u := by
  obtain ⟨ht₁, ms₁, hm₁, hr₁, -, hd₁⟩ := h₁
  obtain ⟨ht₂, ms₂, hm₂, hr₂, he₂, hd₂⟩ := h₂
  refine ⟨ht₁.trans ht₂, ms₁ ++ ms₂, ?_, Run.run_append.mpr ⟨q, hr₁, hr₂⟩, he₂, fun h hd => ?_⟩
  · intro m hm
    rcases List.mem_append.mp hm with hm | hm
    · exact hm₁ m hm
    · exact hm₂ m hm
  · rcases (During.trans_iff ht₁ ht₂).mp hd with hd | hd
    · obtain ⟨pre, v, hpre, hv, he⟩ := hd₁ h hd
      exact ⟨pre, v, hpre.trans (List.prefix_append ms₁ ms₂), hv, he⟩
    · obtain ⟨pre, v, hpre, hv, he⟩ := hd₂ h hd
      exact ⟨ms₁ ++ pre, v, (List.prefix_append_right_inj ms₁).mpr hpre, Run.run_append.mpr ⟨q, hr₁, hv⟩, he⟩

theorem Follows.refl (h : p.eeprom = w.hw.eeprom) : Follows w w p p :=
  ⟨Trail.refl w, [], by simp, rfl, h, fun _ hd => ⟨[], p, List.prefix_refl _, rfl, by rw [h, hd.of_log_eq rfl]⟩⟩

theorem Follows.eeprom (h : Follows w w' p q) : q.eeprom = w'.hw.eeprom := by
  obtain ⟨-, ms, -, -, he, -⟩ := h
  exact he

theorem Follows.delay (ms : Nat) (h : Follows w w' p q) : Follows w (V3.delay env ms w') p q := by
  refine h.trans ⟨(still_delay ms).trail, [], by simp, rfl, h.eeprom,
    fun h' hd => ⟨[], q, List.prefix_refl _, rfl, ?_⟩⟩
  have hd' : h' = w'.hw := hd.of_log_eq rfl
  rw [hd']
  exact h.eeprom

/-- 装置を変えない操作。 -/
theorem Follows.quiet {m : Move} {v : Probe} (hm : m ≠ .reset) (hs : q.step m = some v) (hv : v.eeprom = q.eeprom)
    (h : Follows w w' p q) : Follows w w' p v := by
  obtain ⟨ht, ms, hms, hr, he, hd⟩ := h
  refine ⟨ht, ms ++ [m], ?_, Run.run_append.mpr ⟨q, hr, Run.run_cons.mpr ⟨v, hs, rfl⟩⟩, hv.trans he, fun h hd' => ?_⟩
  · intro m' hm'
    rcases List.mem_append.mp hm' with hm' | hm'
    · exact hms m' hm'
    · rw [List.mem_singleton.mp hm']
      exact hm
  · obtain ⟨pre, u, hpre, hu⟩ := hd h hd'
    exact ⟨pre, u, hpre.trans (List.prefix_append _ _), hu⟩

/-- 健康の値の書き込み。 -/
theorem Follows.write {m : Move} {v : Probe} {t : UInt8} (hm : m ≠ .reset) (hs : q.step m = some v)
    (hv : v.eeprom = Bytes.store s.healthAddr t q.eeprom) (h : Follows w w' p q) :
    Follows w (EEPROM.write env s.healthAddr t w') p v := by
  have he := h.eeprom
  have hw : v.eeprom = (EEPROM.write env s.healthAddr t w').hw.eeprom := by
    rw [hv, he]
    rfl
  have hrun : Run.run Probe.step [m] q = some v := Run.run_cons.mpr ⟨v, hs, rfl⟩
  refine h.trans ⟨(still_write trivial).trail, [m], by simpa using hm, hrun, hw, fun h' hd => ?_⟩
  rcases (During.emit_iff env.latency _).mp hd with rfl | rfl
  · exact ⟨[], q, List.nil_prefix, rfl, he⟩
  · exact ⟨[m], v, List.prefix_refl _, hrun, hw⟩

/-- 一回の計測。値を読んだ後の位置は、値から決まる。 -/
theorem follows_attempt (env : Env) {left : Nat} {rest : List Sensor} (value : UInt16)
    (hq : q.spot = .attempt s left rest) (h : Follows w w' p q) {w₂ : World}
    (hw₂ : V3.delay env 50 (ioRead env (V3.delay env 20
      (EEPROM.write env s.healthAddr (w'.hw.eeprom s.healthAddr + 1) w'))) = w₂) :
    ∃ v, v.spot = Probe.after s left value rest ∧
      Follows w (V3.delay env 20 (EEPROM.write env s.healthAddr (w₂.hw.eeprom s.healthAddr - 1) w₂)) p v := by
  let q₁ : Probe := { q.setHealth s (q.health s + 1) with spot := .raised s left rest }
  let q₂ : Probe := { q₁ with
    reads := Function.update q₁.reads s (q₁.reads s + 1), spot := .sensed s left value rest }
  let q₃ : Probe := { q₂.setHealth s (q₂.health s - 1) with spot := Probe.after s left value rest }
  have hraise : q.step .raise = some q₁ := by simp only [Probe.step, hq, q₁]
  have hsense : q₁.step (.sense value) = some q₂ := rfl
  have hlower : q₂.step .lower = some q₃ := rfl
  have hup : q₁.eeprom = Bytes.store s.healthAddr (w'.hw.eeprom s.healthAddr + 1) q.eeprom := by
    rw [← h.eeprom]
    rfl
  have h₁ : Follows w (V3.delay env 20 (EEPROM.write env s.healthAddr (w'.hw.eeprom s.healthAddr + 1) w')) p q₁ :=
    (h.write (m := .raise) nofun hraise hup).delay 20
  have h₂ : Follows w w₂ p q₂ := by
    have hread := h₁.quiet (m := .sense value) nofun hsense rfl
    rw [← hw₂]
    exact (hread.delay 0).delay 50
  have hdown : q₃.eeprom = Bytes.store s.healthAddr (w₂.hw.eeprom s.healthAddr - 1) q₂.eeprom := by
    rw [← h₂.eeprom]
    rfl
  exact ⟨q₃, rfl, (h₂.write (m := .lower) nofun hlower hdown).delay 20⟩

theorem follows_checkSensor {rest : List Sensor} (read : World → UInt16) (left : Nat)
    (hq : q.spot = .attempt s left rest) (h : Follows w w' p q) :
    ∃ v, v.spot = .next rest ∧ Follows w (checkSensor env (fun m => m s.healthAddr) (EEPROM.write env s.healthAddr)
      read s.bound (left + 1) w') p v := by
  induction left generalizing q w' with
  | zero =>
      obtain ⟨v, hv, hf⟩ := follows_attempt env (read (V3.delay env 20
        (EEPROM.write env s.healthAddr (w'.hw.eeprom s.healthAddr + 1) w'))) hq h rfl
      refine ⟨v, ?_, ?_⟩
      · rw [hv, Probe.after]
        split
        · rfl
        · rfl
      · simpa only [checkSensor, ite_self] using hf
  | succ left ih =>
      obtain ⟨v, hv, hf⟩ := follows_attempt env (read (V3.delay env 20
        (EEPROM.write env s.healthAddr (w'.hw.eeprom s.healthAddr + 1) w'))) hq h rfl
      rw [checkSensor]
      by_cases hle : read (V3.delay env 20
        (EEPROM.write env s.healthAddr (w'.hw.eeprom s.healthAddr + 1) w')) ≤ s.bound
      · rw [Probe.after, if_pos hle] at hv
        exact ⟨v, hv, by simpa only [hle, if_true] using hf⟩
      · rw [Probe.after, if_neg hle] at hv
        simpa only [hle, if_false] using ih hv hf

/-- 一つの種類の計測器を、ポートの順に調べる。 -/
theorem follows_sensors (env : Env) (sensor : Port → Sensor) (read : Port → World → UInt16) {rest : List Sensor}
    (is : List Port) (hq : q.spot = .next (is.map sensor ++ rest)) (h : Follows w w' p q) :
    ∃ v, v.spot = .next rest ∧ Follows w (is.foldl (fun w i =>
      if 5 ≤ w.hw.eeprom (sensor i).healthAddr then w
      else checkSensor env (fun m => m (sensor i).healthAddr) (EEPROM.write env (sensor i).healthAddr)
        (read i) (sensor i).bound 3 w) w') p v := by
  induction is generalizing q w' with
  | nil => exact ⟨q, hq, h⟩
  | cons i is ih =>
      rw [List.foldl_cons]
      have hcheck : q.step .check = some { q with
          spot := if 5 ≤ q.health (sensor i) then .next (is.map sensor ++ rest)
            else .attempt (sensor i) 2 (is.map sensor ++ rest) } := by
        simp only [Probe.step, hq, List.map_cons, List.cons_append]
      have hf := h.quiet (m := .check) nofun hcheck rfl
      have hhealth : q.health (sensor i) = w'.hw.eeprom (sensor i).healthAddr := congrFun h.eeprom _
      by_cases hle : 5 ≤ w'.hw.eeprom (sensor i).healthAddr
      · rw [hhealth, if_pos hle] at hf
        rw [if_pos hle]
        exact ih rfl hf
      · rw [hhealth, if_neg hle] at hf
        obtain ⟨v, hv, hf'⟩ := follows_checkSensor (read i) 2 rfl hf
        rw [if_neg hle]
        exact ih hv hf'

theorem follows_checkCurrentSensors {rest : List Sensor}
    (hq : q.spot = .next ((List.finRange 5).map (fun i => ⟨.current, i⟩) ++ rest)) (h : Follows w w' p q) :
    ∃ v, v.spot = .next rest ∧ Follows w (checkCurrentSensors env w') p v := by
  obtain ⟨v, hv, hf⟩ := follows_sensors env (fun i => ⟨.current, i⟩) (getCurrent env) (List.finRange 5) hq h
  refine ⟨v, hv, ?_⟩
  simp only [Sensor.healthAddr, Sensor.bound] at hf
  exact hf

theorem follows_checkThermistors {rest : List Sensor}
    (hq : q.spot = .next ((List.finRange 5).map (fun i => ⟨.thermistor, i⟩) ++ rest)) (h : Follows w w' p q) :
    ∃ v, v.spot = .next rest ∧ Follows w (checkThermistors env w') p v := by
  obtain ⟨v, hv, hf⟩ := follows_sensors env (fun i => ⟨.thermistor, i⟩) (getThermistor env) (List.finRange 5) hq h
  refine ⟨v, hv, ?_⟩
  simp only [Sensor.healthAddr, Sensor.bound] at hf
  exact hf

/-- 途切れない `checkSensors` は、リセットのない操作の並びである。途中のどの時点の EEPROM も、並びの途中に現れる。 -/
theorem follows_checkSensors (env : Env) (hp : p.spot = .idle) (he : p.eeprom = w.hw.eeprom) :
    ∃ q, q.spot = .idle ∧ Follows w (checkSensors env w) p q := by
  have hbegin : p.step .begin = some { p with spot := .next sensors } := by simp only [Probe.step, hp]
  have h₀ : Follows w w p { p with spot := .next sensors } := (Follows.refl he).quiet (m := .begin) nofun hbegin rfl
  obtain ⟨v, hv, h₁⟩ := follows_checkCurrentSensors (q := { p with spot := .next sensors }) rfl h₀
  rw [← List.append_nil (List.map _ _)] at hv
  obtain ⟨u, hu, h₂⟩ := follows_checkThermistors hv h₁
  have hfinish : u.step .finish = some { u with spot := .idle } := by simp only [Probe.step, hu]
  exact ⟨{ u with spot := .idle }, rfl, h₂.quiet (m := .finish) nofun hfinish rfl⟩

end Follows

end Wagman.V3.Sensors
