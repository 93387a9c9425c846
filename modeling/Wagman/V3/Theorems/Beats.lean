import Wagman.V3.Beats
import Wagman.V3.Lemmas.Effects
import Wagman.Lib.Samples

/-!
# 心拍の回数

`onHeartbeat()` を呼ぶたびに、少なくとも 8 回のピンの変化が使われる。比べてから 0 にするまでの間に数えられた変化は捨てられ、
計数が 255 を超えて 0 に戻るときも減るだけなので、呼ばれすぎることはない。ただし、最初に見た値は、ピンの前の値ではなく `LOW` と
比べられる。
-/

namespace Wagman.V3.Beats

open Machine

/-- まだ呼んでいない一回の `onHeartbeat()` のために使う変化。 -/
def Phase.reserved (p : Port) : Phase → Nat
  | .rest => 0
  | .reached i => if i = p then 8 else 0
  | .cleared i => if i = p then 8 else 0

/-- 使われた変化は、見られた変化の回数 `n` を超えない。比べてから 0 にするまでの間は、計数は捨てられるので、使う変化に含めない。 -/
structure Paid (p : Port) (n : Nat) (s : Shared) : Prop where
  counted : 8 * s.calls p + (s.heartbeatCounters p).toNat ≤ n
  reserved : 8 * s.calls p + s.phase.reserved p ≤ n
  both : s.phase ≠ .reached p → 8 * s.calls p + s.phase.reserved p + (s.heartbeatCounters p).toNat ≤ n

variable {p : Port} {n : Nat} {s s' : Shared}

theorem paid_start : Paid p 0 .start :=
  ⟨Nat.le_refl _, Nat.le_refl _, fun _ => Nat.le_refl _⟩

theorem toNat_succ_le (c : UInt8) : (c + 1).toNat ≤ c.toNat + 1 := by
  rw [UInt8.toNat_add]
  exact Nat.mod_le _ _

/-- 割り込みは、覚えていた値と違うときにだけ計数を増やす。 -/
theorem Paid.timer1Overflow (levels : Port → Bool) (h : Paid p n s) :
    Paid p (n + if s.heartbeatState p ≠ levels p then 1 else 0) (s.timer1Overflow levels) := by
  obtain ⟨hc, hr, hb⟩ := h
  have hcalls : (s.timer1Overflow levels).calls = s.calls := rfl
  have hphase : (s.timer1Overflow levels).phase = s.phase := rfl
  have hle := toNat_succ_le (s.heartbeatCounters p)
  by_cases hne : s.heartbeatState p ≠ levels p
  · have hn : (s.timer1Overflow levels).heartbeatCounters p = s.heartbeatCounters p + 1 := if_pos hne
    rw [if_pos hne]
    refine ⟨?_, ?_, fun hp => ?_⟩
    · rw [hcalls, hn]; omega
    · rw [hcalls, hphase]; omega
    · have hb' := hb hp
      rw [hcalls, hphase, hn]; omega
  · have hn : (s.timer1Overflow levels).heartbeatCounters p = s.heartbeatCounters p := if_neg hne
    rw [if_neg hne]
    refine ⟨?_, hr, fun hp => ?_⟩
    · rw [hcalls, hn]; exact hc
    · rw [hcalls, hphase, hn]; exact hb hp

/-- 比べて 8 以上なら、一回の `onHeartbeat()` のために 8 回の変化を取り置く。 -/
theorem Paid.reach {i : Port} (hp : s.phase = .rest) (hi : 8 ≤ s.heartbeatCounters i) (h : Paid p n s) :
    Paid p n { s with phase := .reached i } := by
  obtain ⟨hc, hr, hb⟩ := h
  have hb' := hb (by rw [hp]; nofun)
  rw [hp] at hb'
  by_cases hip : i = p
  · subst hip
    have hi' : 8 ≤ (s.heartbeatCounters i).toNat := hi
    refine ⟨hc, ?_, fun hne => absurd rfl hne⟩
    simp only [Phase.reserved, if_true]
    omega
  · refine ⟨hc, ?_, fun _ => ?_⟩
    · simp only [Phase.reserved, hip, if_false]
      omega
    · simpa only [Phase.reserved, hip, if_false] using hb'

theorem Paid.clear {i : Port} (hp : s.phase = .reached i) (h : Paid p n s) :
    Paid p n { s with heartbeatCounters := Function.update s.heartbeatCounters i 0, phase := .cleared i } := by
  obtain ⟨hc, hr, hb⟩ := h
  rw [hp] at hr
  by_cases hip : i = p
  · subst hip
    refine ⟨?_, hr, fun _ => ?_⟩
    · simp only [Function.update_self, UInt8.toNat_zero]
      omega
    · simpa only [Function.update_self, UInt8.toNat_zero, Nat.add_zero, Phase.reserved] using hr
  · have hb' := hb (by rw [hp]; simpa using hip)
    rw [hp] at hb'
    refine ⟨?_, hr, fun _ => ?_⟩
    · simpa only [Function.update_of_ne (Ne.symm hip)] using hc
    · simpa only [Function.update_of_ne (Ne.symm hip), Phase.reserved] using hb'

theorem Paid.onHeartbeat {i : Port} (hp : s.phase = .cleared i) (h : Paid p n s) :
    Paid p n { s with calls := Function.update s.calls i (s.calls i + 1), phase := .rest } := by
  obtain ⟨hc, hr, hb⟩ := h
  have hb' := hb (by rw [hp]; nofun)
  rw [hp] at hr hb'
  by_cases hip : i = p
  · subst hip
    simp only [Phase.reserved, if_true] at hr hb'
    refine ⟨?_, ?_, fun _ => ?_⟩
    · simp only [Function.update_self]
      omega
    · simp only [Function.update_self, Phase.reserved]
      omega
    · simp only [Function.update_self, Phase.reserved]
      omega
  · simp only [Phase.reserved, hip, if_false, Nat.add_zero] at hr hb'
    refine ⟨?_, ?_, fun _ => ?_⟩
    · simpa only [Function.update_of_ne (Ne.symm hip)] using hc
    · simpa only [Function.update_of_ne (Ne.symm hip), Phase.reserved, Nat.add_zero] using hr
    · simpa only [Function.update_of_ne (Ne.symm hip), Phase.reserved, Nat.add_zero] using hb'

/-- ピンを見ない操作は、変化を使いすぎない。 -/
theorem Paid.step {o : Op} (ho : o.sample p = none) (hs : Paid p n s) (h : s.step o = some s') :
    s'.heartbeatState = s.heartbeatState ∧ Paid p n s' := by
  cases o with
  | timer1Overflow levels => cases ho
  | compare i =>
      simp only [Shared.step] at h
      split at h
      · rename_i hp
        rw [← Option.some.inj h]
        split
        · rename_i hi
          exact ⟨rfl, hs.reach hp hi⟩
        · exact ⟨rfl, hs⟩
      · cases h
  | clear =>
      simp only [Shared.step] at h
      split at h
      · rename_i i hp
        rw [← Option.some.inj h]
        exact ⟨rfl, hs.clear hp⟩
      · cases h
  | onHeartbeat =>
      simp only [Shared.step] at h
      split at h
      · rename_i i hp
        rw [← Option.some.inj h]
        exact ⟨rfl, hs.onHeartbeat hp⟩
      · cases h

theorem Paid.run {ops : List Op} (h : Run.run Shared.step ops s = some s') (hs : Paid p n s) :
    Paid p (n + Samples.changes (s.heartbeatState p :: samples p ops)) s' := by
  refine Samples.run_induct (Op.sample p) (fun s => s.heartbeatState p) (Paid p) ?_ ?_ h hs
  · rintro (levels | i | - | -) s s' n y hy hp ht
    · cases ht
      obtain rfl : levels p = y := Option.some.inj hy
      exact ⟨rfl, hp.timer1Overflow levels⟩
    · cases hy
    · cases hy
    · cases hy
  · intro o s s' n ho hp ht
    obtain ⟨hlast, hp'⟩ := hp.step ho ht
    exact ⟨congrFun hlast p, hp'⟩

/-- どのポートについても、割り込みと `updateHeartbeat` がどのように入り組んでも、どの時点でも、`onHeartbeat()` の回数の 8 倍と
計数の和は、見られたピンの値が、初めの値 `LOW` から数えて変わった回数を超えない。 -/
theorem heartbeats_not_invented (p : Port) (ops : List Op) (s : Shared) (h : Run.run Shared.step ops .start = some s) :
    8 * s.calls p + (s.heartbeatCounters p).toNat ≤ Samples.changes (false :: samples p ops) := by
  have hrun := (Paid.run h (paid_start (p := p))).counted
  rwa [Nat.zero_add] at hrun

/-- ポート 1 のピンの変化を 8 回見て、比べた後にもう一度割り込みが入る。 -/
def lateBeat : List Op :=
  (List.range 8).map (fun n => .timer1Overflow fun _ => n % 2 == 0) ++
    [.compare 1, .timer1Overflow fun _ => true, .clear, .onHeartbeat]

theorem heartbeats_not_invented_late : ∃ s, Run.run Shared.step lateBeat .start = some s ∧
    s.calls 1 = 1 ∧ Samples.changes (false :: samples 1 lateBeat) = 9 ∧
    8 * s.calls 1 + (s.heartbeatCounters 1).toNat ≤ Samples.changes (false :: samples 1 lateBeat) := by
  have hb : ((Run.run Shared.step lateBeat .start).any fun s => s.calls 1 == 1) = true := by decide +kernel
  obtain ⟨s, hs, hx⟩ := (Option.any_eq_true _ _).mp hb
  exact ⟨s, hs, beq_iff_eq.mp hx, by decide +kernel, heartbeats_not_invented 1 lateBeat s hs⟩

/-- 最初に見た値が `HIGH` なら、値は一度も変わっていないのに、計数は 1 になる。 -/
theorem first_sample_counted : ∃ s, Run.run Shared.step [.timer1Overflow fun _ => true] .start = some s ∧
    Samples.changes (samples 1 [.timer1Overflow fun _ => true]) = 0 ∧
    ¬ 8 * s.calls 1 + (s.heartbeatCounters 1).toNat ≤ Samples.changes (samples 1 [.timer1Overflow fun _ => true]) :=
  ⟨Shared.start.timer1Overflow fun _ => true, rfl, rfl, by decide⟩

/-! ## ファームウェアとの対応 -/

/-- 割り込みと `loop` が使う変数が、ファームウェアの変数と等しい。 -/
def Shared.Agrees (s : Shared) (w : World) : Prop :=
  s.heartbeatState = w.ram.heartbeatState ∧ s.heartbeatCounters = w.ram.heartbeatCounters

section Refine

variable {env : Env} {w : World}

/-- 初めの値は、`Wagman::init` を終えたファームウェアの値である。 -/
theorem agrees_start (h : w.ram.heartbeatState = fun _ => false) : Shared.start.Agrees (wagmanInit env w) :=
  ⟨h.symm, rfl⟩

/-- 割り込みは、ファームウェアの `timer1Overflow` である。 -/
theorem agrees_timer1Overflow (levels : Port → Bool) (h : s.Agrees w) :
    (s.timer1Overflow levels).Agrees (V3.timer1Overflow levels w) := by
  obtain ⟨hs, hc⟩ := h
  simp [Shared.Agrees, Shared.timer1Overflow, V3.timer1Overflow, hs, hc]

theorem agrees_kill (i : Port) (h : s.Agrees w) : s.Agrees (Device.kill env i w).2 := by
  unfold Device.kill
  split
  · exact h
  · have hdrive : Still (fun _ => True) w (Device.driveRelay env i relayTurningOff false relayOff w) :=
      still_driveRelay trivial (fun _ _ => trivial) (fun _ => trivial)
    have hram : s.Agrees (Device.driveRelay env i relayTurningOff false relayOff w) := by
      rw [Shared.Agrees, hdrive.ram]
      exact h
    exact hram

theorem agrees_onHeartbeat (i : Port) (h : s.Agrees w) : s.Agrees (Device.onHeartbeat env i w) := by
  have hbeat : s.Agrees (Device.beat i w) := h
  simp only [Device.onHeartbeat]
  split
  · by_cases hi : i = 0
    · simp only [Device.disable, hi, ne_eq, not_true_eq_false, if_false]
      exact agrees_kill 0 (hi ▸ hbeat)
    · have hclear : s.Agrees (Record.setDeviceEnabled env i false (Device.beat i w)) := hbeat
      simp only [Device.disable, ne_eq, hi, not_false_eq_true, if_true]
      exact agrees_kill i hclear
  · exact hbeat
  · exact hbeat
  · exact hbeat
  · exact hbeat

/-- 割り込みが入らなければ、`updateHeartbeat` は、比べ、0 にし、`onHeartbeat()` を呼ぶ操作である。 -/
theorem agrees_updateHeartbeat (i : Port) (hp : s.phase = .rest) (h : s.Agrees w) :
    ∃ s', Run.run Shared.step
      (if 8 ≤ w.ram.heartbeatCounters i then [.compare i, .clear, .onHeartbeat] else [.compare i]) s = some s' ∧
      s'.Agrees (Device.updateHeartbeat env i w) := by
  obtain ⟨hs, hc⟩ := h
  by_cases hi : 8 ≤ w.ram.heartbeatCounters i
  · have hbeat : Shared.Agrees { s with
        heartbeatCounters := Function.update s.heartbeatCounters i 0
        calls := Function.update s.calls i (s.calls i + 1)
        phase := .rest } (Device.updateHeartbeat env i w) := by
      rw [Device.updateHeartbeat, if_pos hi]
      exact agrees_onHeartbeat i ⟨hs, by simp [hc]⟩
    rw [if_pos hi]
    exact ⟨_, by simp [Run.run, Shared.step, hp, hc, hi], hbeat⟩
  · rw [if_neg hi]
    refine ⟨s, by simp [Run.run, Shared.step, hp, hc, hi], ?_⟩
    rw [Device.updateHeartbeat, if_neg hi]
    exact ⟨hs, hc⟩

end Refine

end Wagman.V3.Beats
