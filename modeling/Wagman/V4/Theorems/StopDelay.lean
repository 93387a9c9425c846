import Wagman.V4.Theorems.Grace

/-!
# 要求された待ち時間

`STOP` の要求の待ち時間は秒で与えられ、ミリ秒への換算は 32 ビットで行われる。換算が桁あふれしなければ、`update` の間隔に
よらず、要求された秒数が過ぎるまでリレーは切られない。桁あふれすれば、それより早く切られる。
-/

namespace Wagman.V4

open Machine

variable {env : Env} {p : Port} {after : UInt32} {w w' u u' : World}

/-- 止める要求が受け付けられた後、`STOP` と `ENABLE` の要求がなければ、`after` 秒に満たない時刻の `update` はリレーを
切らない。 -/
def StopHonoured (p : Port) (after : UInt32) (w : World) : Prop :=
  ∀ (env : Env) (w' : World) (ops : List Op) (u u' : World) (i : Port) (t : Nat),
    commandStopMain env p.val after w = some (1, w') → (∀ o ∈ ops, ¬ o.Stops p ∧ ¬ o.Enables p) →
    run env ops w' = some u → updateTime env i (.update i) u = some t → t < w.now + after.toNat * 1000 →
    step env (.update i) u = some u' → Trail (fun e => e ≠ .relay p false) u u'

/-- 動いている機器を止める要求は、待ち時間を置いて、すぐに止め始める。 -/
theorem commandStopMain_of_started (env : Env) (hs : (dev w p).state = .started) :
    commandStopMain env p.val after w =
      some (1, Device.changeState p .stopping (Device.setStopTimeout p (after * 1000) w)) := by
  have hlt := p.isLt
  have hvalid : validPort p.val = true := by
    simp only [validPort, decide_eq_true_eq]
    omega
  have hidx : index? p.val = some p := by
    rw [index?, dif_pos (by omega)]
    simp
  have hset : (dev (Device.setStopTimeout p (after * 1000) w) p).state = .started := by
    simpa [Device.setStopTimeout] using hs
  simp only [commandStopMain, hvalid, hidx, if_true, Option.map_some, stop_of_started env hset]

/-- 止める要求が受け付けられた時刻に、待ち時間が始まる。 -/
theorem waiting_stop (p : Port) (T : UInt32) (w : World) :
    Waiting p w.now T w.now (Device.changeState p .stopping (Device.setStopTimeout p T w)) where
  state := by simp [dev, Device.enter]
  timer := by
    simp only [dev, Device.changeState_ram, Ram.setDevice_devices_self]
    rfl
  timeout := by simp [dev, Device.enter, Device.setStopTimeout]
  le_now := Nat.le_refl _
  fresh := Nat.le_add_right _ _

/-! ## 換算が桁あふれしないとき -/

/-- 時刻 `e` に待ち時間 `T` で止め始めた後、その間の `update` でリレーを切られていない。 -/
inductive Held (p : Port) (e : Nat) (T : UInt32) (w : World) : Prop
  | halted (h : w.ram.halted = true)
  | waiting (h : Waiting p e T e w)
  | late (h : e + T.toNat < w.now)

namespace Held

variable {e : Nat} {T : UInt32}

/-- 待ち時間を超えたと判定した `update` は、実時間でも待ち時間を過ぎている。 -/
theorem lt_of_expired (hw : Waiting p e T e w) (he : Expired env p w) :
    e + T.toNat < (Device.sense env p w).now := by
  have hle : e ≤ (Device.sense env p w).now :=
    Nat.le_trans hw.le_now (Device.acts_sense env w p).trail.now_le
  unfold Expired at he
  rw [hw.timer, hw.timeout] at he
  have hlt := DurationTimer.lt_of_exceeds_reset hle he
  omega

theorem step {o : Op} (hw : Held p e T w) (hstep : V4.step env o w = some w') (hstop : ¬ o.Stops p)
    (hen : ¬ o.Enables p) : Held p e T w' := by
  by_cases hreset : w' = doResetAll env w
  · exact .halted (by rw [hreset]; rfl)
  · have hon : StepOn env p o w w' := (step_inv hstep).on_of (Or.inr hreset) p
    have hle : w.now ≤ w'.now := hon.trail.now_le
    cases hw with
    | halted h =>
        have heq : w' = w := by simpa [V4.step, h] using hstep.symm
        exact .halted (heq ▸ h)
    | waiting h =>
        rcases hon.stopping_cases h.state hstop hen with hwaits | ⟨-, he, rfl⟩
        · exact .waiting (h.waits hwaits)
        · have hexp : (expiring env p w).now = (Device.sense env p w).now := sendStopMessage_now p _
          have hoff := (timed_powerDown env p (expiring env p w)).now_le
          exact .late (Nat.lt_of_lt_of_le (lt_of_expired h he) (hexp ▸ hoff))
    | late h => exact .late (Nat.lt_of_lt_of_le h hle)

theorem run {ops : List Op} (hw : Held p e T w) (hrun : V4.run env ops w = some w')
    (hops : ∀ o ∈ ops, ¬ o.Stops p ∧ ¬ o.Enables p) : Held p e T w' :=
  Run.run_induct_of_meets (C := fun o _ => ¬ o.Stops p ∧ ¬ o.Enables p)
    (fun _ _ _ hc hw hs => hw.step hs hc.1 hc.2) hrun (Run.Meets.of_forall hops _) hw

theorem update {i : Port} {t : Nat} (hw : Held p e T w) (ht : updateTime env i (.update i) w = some t)
    (hlt : t ≤ e + T.toNat) (hstep : V4.step env (.update i) w = some w') :
    Trail (fun e => e ≠ .relay p false) w w' := by
  obtain ⟨-, hh, rfl⟩ := updateTime_eq_some ht
  have heq : w' = Device.update env i w := by simpa [V4.step, hh] using hstep.symm
  have hmoves : ∀ {v}, Trail (fun e => ¬ e.MovesRelay p) w v → Trail (fun e => e ≠ .relay p false) w v :=
    fun h => h.mono fun e hm he => hm (by rw [he]; rfl)
  rw [heq]
  by_cases hi : p = i
  · subst hi
    cases hw with
    | halted h => rw [hh] at h; cases h
    | waiting h =>
        rcases update_stopping env h.state with ⟨he, -⟩ | ⟨-, hwaits⟩
        · have := lt_of_expired h he
          omega
        · exact hmoves hwaits.trail
    | late h =>
        have := (Device.acts_sense env w p).trail.now_le
        omega
  · exact hmoves ((Frame.ofActs (Device.acts_update env w i) hi).trail.mono fun _ he =>
      not_movesRelay_of_not_about he)

end Held

/-- 換算が桁あふれしなければ、要求された秒数が過ぎるまでリレーは切られない。 -/
theorem honoured_of_lt (hs : (dev w p).state = .started) (h : after.toNat * 1000 < 2 ^ 32) :
    StopHonoured p after w := by
  intro env w' ops u u' i t hstop hops hrun ht hlt hstep
  have hT : (after * 1000).toNat = after.toNat * 1000 := by
    rw [UInt32.toNat_mul]
    exact Nat.mod_eq_of_lt h
  rw [commandStopMain_of_started env hs] at hstop
  cases hstop
  exact ((Held.waiting (waiting_stop p (after * 1000) w)).run hrun hops).update ht (by rw [hT]; omega) hstep

/-- リレーを切らずに終わった機器は止まった後なので、以後はどの操作にもリレーを切られない。 -/
theorem honoured_of_halted (hs : (dev w p).state = .started) (h : w.ram.halted = true) : StopHonoured p after w := by
  intro env w' ops u u' i t hstop _ hrun ht _ _
  rw [commandStopMain_of_started env hs] at hstop
  cases hstop
  have hhalted : u.ram.halted = true :=
    Run.run_induct_of_meets (P := fun v => v.ram.halted = true) (C := fun _ _ => True)
      (fun o v v' _ hv hstep => by simp [V4.step, hv] at hstep; exact hstep ▸ hv) hrun
      (Run.Meets.of_forall (fun _ _ => trivial) _) h
  rw [(updateTime_eq_some ht).2.1] at hhalted
  cases hhalted

/-! ## 換算が桁あふれするとき -/

/-- 遅れのない環境では、止めている途中の `update` が待ち時間を調べるまで時間は経たない。 -/
theorem sense_ideal_now (hs : (dev w p).state = .stopping) : (Device.sense Env.ideal p w).now = w.now := by
  have hfault : ∀ v : World, (Device.updateFault Env.ideal p v).now = v.now := fun v => by
    have h0 : Env.ideal.current v.io p = 0 := rfl
    simp only [Device.updateFault, h0, if_true]
    rfl
  rw [Device.sense, hfault]
  unfold Device.updateHeartbeat
  split
  · have hpow : ∀ v, dev v p = dev w p → (Device.onHeartbeat Env.ideal p v).now = v.now := fun v hv => by
      rw [Device.onHeartbeat_of_powered Env.ideal (Or.inr (hv ▸ hs))]
      rfl
    exact hpow _ rfl
  · rfl

/-- 桁あふれした待ち時間を 1 ミリ秒だけ過ぎた `update` は、要求された秒数より早くリレーを切る。 -/
theorem not_honoured (hs : (dev w p).state = .started) (hh : w.ram.halted = false)
    (h : 2 ^ 32 ≤ after.toNat * 1000) : ¬ StopHonoured p after w := by
  intro hall
  let T : UInt32 := after * 1000
  let v : World := Device.changeState p .stopping (Device.setStopTimeout p T w)
  let u : World := delay Env.ideal (T.toNat + 1) v
  have hT : T.toNat = after.toNat * 1000 % 2 ^ 32 := UInt32.toNat_mul _ _
  have hu : u.ram.halted = false := hh
  have hwait : Waiting p w.now T w.now u := 
    (waiting_stop p T w).waits (.of_frame (Frame.ofStill (still_delay _) fun _ h => h))
  have hnow : (Device.sense Env.ideal p u).now = w.now + (T.toNat + 1) := sense_ideal_now hwait.state
  have hrun : run Env.ideal [.idle (T.toNat + 1)] v = some u := by
    refine Run.run_cons.mpr ⟨u, ?_, rfl⟩
    have hv : v.ram.halted = false := hh
    simp only [V4.step, hv]
    rfl
  have hexp : Expired Env.ideal p u := by
    unfold Expired
    rw [hnow, hwait.timer, hwait.timeout, DurationTimer.exceeds_reset_iff (Nat.le_add_right _ _) (by omega)]
    omega
  have heq : Device.update Env.ideal p u = Device.powerDown Env.ideal p (expiring Env.ideal p u) := by
    rcases update_stopping Env.ideal hwait.state with ⟨-, heq⟩ | ⟨hne, -⟩
    · exact heq
    · exact absurd hexp hne
  obtain ⟨t, new, hlog, hmem⟩ := (turnedOff_update hwait.state heq).driven
  have htrail := hall Env.ideal v [.idle (T.toNat + 1)] u (Device.update Env.ideal p u) p
    (Device.sense Env.ideal p u).now (commandStopMain_of_started Env.ideal hs)
    (fun o ho => by simp only [List.mem_singleton] at ho; rw [ho]; exact ⟨id, id⟩) hrun (by simp [updateTime, hu])
    (by rw [hnow]; omega) (by simp [V4.step, hu])
  exact (htrail.of_log hlog).2 _ hmem rfl

/-! ## 待ち時間が守られる条件 -/

/-- 動いている機器を `after` 秒の待ち時間で止める要求は、`after * 1000` が 32 ビットに収まるとき、かつそのときに限り
守られる。止まった後のファームウェアは何もしない。 -/
theorem stop_honoured_iff (p : Port) (after : UInt32) (w : World) (hs : (dev w p).state = .started) :
    StopHonoured p after w ↔ w.ram.halted = true ∨ after.toNat * 1000 < 2 ^ 32 := by
  constructor
  · intro h
    cases hh : w.ram.halted with
    | true => exact Or.inl rfl
    | false => exact Or.inr (Nat.lt_of_not_le fun hle => not_honoured hs hh hle h)
  · rintro (h | h)
    · exact honoured_of_halted hs h
    · exact honoured_of_lt hs h

/-- 30 秒の待ち時間は守られる。 -/
theorem stop_honoured_iff_ready : (dev (booted Env.ideal Hardware.ready) 0).state = .started ∧
    StopHonoured 0 30 (booted Env.ideal Hardware.ready) := by
  have hs : (dev (booted Env.ideal Hardware.ready) 0).state = .started := by decide +kernel
  exact ⟨hs, (stop_honoured_iff 0 30 _ hs).mpr (Or.inr (by decide))⟩

/-- 4294968 秒の待ち時間は 704 ミリ秒になるので、守られない。 -/
theorem stop_delay_wraps : ¬ ∀ (h : Hardware) (ops : List Op) (env : Env) (p : Port) (after : UInt32) (w : World),
    run env ops (booted env h) = some w → (dev w p).state = .started → after.toNat < 2 ^ 31 →
    StopHonoured p after w := by
  intro hall
  have hs : (dev (booted Env.ideal Hardware.ready) 0).state = .started := by decide +kernel
  have hh : (booted Env.ideal Hardware.ready).ram.halted = false := by decide +kernel
  exact not_honoured hs hh (by decide) (hall Hardware.ready [] Env.ideal 0 4294968 _ rfl hs (by decide))

end Wagman.V4
