import Wagman.V4.Lemmas.Timers

/-!
# 心拍の監視

`millis()` が何周しても、心拍が途絶えた機器は、`update` が一周より短い間隔で呼ばれる限り、実時間で一時間を超えた
最初の `update` で止められる。失敗の回数はそのときにだけ一つ増える。
-/

namespace Wagman.V4

open Machine

variable {env : Env} {p : Port}

/-- `devices[p]` は起動していて、心拍を監視されている。 -/
def Supervised (p : Port) (w : World) : Prop :=
  (dev w p).state = .started ∧ (dev w p).managed = true ∧ (dev w p).watchHeartbeat = true

/-- `update` が計時を調べる時点で、最後の心拍か状態の変化から実時間で一時間を超えている。 -/
def HeartbeatLost (p : Port) (w : World) : Prop := 3600000 < w.now - lastBeat p w.log

/-- 操作 `o` は `devices[p]` の `update` で、心拍が途絶えたことを見つける。 -/
def TimesOut (env : Env) (p : Port) (o : Op) (w : World) : Prop :=
  o = .update p ∧ w.ram.halted = false ∧ Supervised p (Device.sense env p w) ∧
    HeartbeatLost p (Device.sense env p w)

/-- 一歩が `devices[p]` の `update` なら、それが計時を調べる時刻。 -/
def updateTime (env : Env) (p : Port) (o : Op) (w : World) : Option Nat :=
  match o with
  | .update i => if i = p ∧ w.ram.halted = false then some (Device.sense env p w).now else none
  | _ => none

/-- 実行の中の `devices[p]` の `update` が計時を調べる時刻の並び。 -/
def updateTimes (env : Env) (p : Port) : List Op → World → List Nat
  | [], _ => []
  | o :: os, w => (updateTime env p o w).toList ++ ((step env o w).map (updateTimes env p os)).getD []

/-- 続く二つの `update` の間隔。 -/
def Spaced (s t : Nat) : Prop := t < s + (2 ^ 32 - 3600000)

instance : DecidableRel Spaced := fun s t => inferInstanceAs (Decidable (t < s + (2 ^ 32 - 3600000)))

/-! ## 失敗の回数 -/

theorem failures_increment (env : Env) (p : Port) (w : World) :
    Record.getBootFailures (Record.incrementBootFailures env p w).hw.eeprom p =
      Record.getBootFailures w.hw.eeprom p + 1 := by
  unfold Record.incrementBootFailures Record.setBootFailures
  rw [put_eeprom]
  exact word_put_self _ _ _

/-- 心拍の計時が切れている `checkHeartbeat` は、失敗を一つ数えて機器を止める。 -/
theorem checkHeartbeat_lost (env : Env) {w : World} (hs : Supervised p w)
    (he : (dev w p).heartbeatTimer.exceeds w.now Device.heartbeatTimeout = true) :
    (dev (Device.updateState env p w) p).state = .stopping ∧
      Record.getBootFailures (Device.updateState env p w).hw.eeprom p = Record.getBootFailures w.hw.eeprom p + 1 := by
  obtain ⟨hst, hm, hw⟩ := hs
  have hinc : (dev (Record.incrementBootFailures env p w) p).state = .started := by
    simpa only [dev, incrementBootFailures_ram] using hst
  have hstop : Device.updateState env p w =
      Device.checkCurrent p (Device.changeState p .stopping (Record.incrementBootFailures env p w)) := by
    simp only [Device.updateState, hst, Device.updateStarted, hm, if_true, Device.updateStartedManaged,
      Device.checkHeartbeat, hw, he, Bool.and_self, Device.stop, hinc]
  have hcur :=
    Device.acts_checkCurrent (Device.changeState p .stopping (Record.incrementBootFailures env p w)) p
  constructor
  · rw [hstop]
    unfold Device.checkCurrent
    split
    · simp [dev, Device.enter]
    · simp [dev, Device.enter]
  · rw [hstop, Footprint.failures_eq hcur.trail (Or.inr (by simp only [Footprint.power]; omega))]
    exact failures_increment env p w

theorem updateState_failures_eq {w : World}
    (h : ¬ (Supervised p w ∧ (dev w p).heartbeatTimer.exceeds w.now Device.heartbeatTimeout = true)) :
    Record.getBootFailures (Device.updateState env p w).hw.eeprom p = Record.getBootFailures w.hw.eeprom p := by
  have hpower : ∀ {w w' : World}, Acts (.power p) w w' →
      Record.getBootFailures w'.hw.eeprom p = Record.getBootFailures w.hw.eeprom p := fun ha =>
    Footprint.failures_eq ha.trail (Or.inr (by simp only [Footprint.power]; omega))
  unfold Device.updateState
  split
  · exact hpower (Device.acts_updateDisabled env w p)
  · rfl
  · rename_i hst
    unfold Device.updateStarted
    split
    · rename_i hm
      have hno : Device.checkHeartbeat env p w = w := by
        unfold Device.checkHeartbeat
        rw [if_neg]
        rw [Bool.and_eq_true]
        exact fun hc => h ⟨⟨hst, hm, hc.1⟩, hc.2⟩
      simp only [Device.updateStartedManaged, hno]
      exact hpower (Device.acts_checkCurrent w p)
    · exact Footprint.failures_eq (Device.acts_updateStartedUnmanaged env w p).trail
        (Or.inr (by simp only [Footprint.switch, Footprint.power]; omega))
  · exact hpower ((Device.acts_updateStopping env w p).mono (Footprint.relay_le_power p))

theorem updateState_started {w : World} (hs : Supervised p w)
    (he : (dev w p).heartbeatTimer.exceeds w.now Device.heartbeatTimeout = false) :
    (dev (Device.updateState env p w) p).state = .started := by
  obtain ⟨hst, hm, hw⟩ := hs
  simp only [Device.updateState, hst, Device.updateStarted, hm, if_true, Device.updateStartedManaged,
    Device.checkHeartbeat, he, Bool.and_false, Bool.false_eq_true, if_false]
  unfold Device.checkCurrent
  split
  · simpa using hst
  · exact hst

/-- `updateState` の前に、監視されている機器が監視から外れることはない。 -/
theorem sense_supervised (env : Env) {w : World} (hs : Supervised p w) :
    Supervised p (Device.sense env p w) := by
  have hh : Supervised p (Device.updateHeartbeat env p w) := by
    have hbeat : ∀ w₁, dev w₁ p = dev w p → Supervised p (Device.onHeartbeat env p w₁) := by
      intro w₁ hd
      rw [Device.onHeartbeat_of_powered env (Or.inl (by rw [hd]; exact hs.1))]
      simp only [Supervised, Device.dev_beat, hd]
      exact hs
    unfold Device.updateHeartbeat
    split
    · exact hbeat _ rfl
    · exact hs
  simp only [Device.sense, Device.updateFault]
  split
  · exact hh
  · split
    · simp only [Supervised, dev_setDev_self]
      exact hh
    · exact hh

/-- `update` のほかの一歩は、失敗の回数を変えない。 -/
theorem StepOn.failures_eq {o : Op} {w w' : World} (h : StepOn env p o w w') (ho : o ≠ .update p) :
    Record.getBootFailures w'.hw.eeprom p = Record.getBootFailures w.hw.eeprom p := by
  have hacts : ∀ {F : Footprint} {w w' : World}, Acts F w w' → (∀ k, 11 ≤ k → k < 15 → ¬ F.off k) →
      Record.getBootFailures w'.hw.eeprom p = Record.getBootFailures w.hw.eeprom p :=
    fun ha hk => Footprint.failures_eq ha.trail (Or.inr hk)
  cases h with
  | frame hf => exact hf.failures_eq
  | update => exact absurd rfl ho
  | next _ _ h₁ h₂ =>
      rw [h₂.failures_eq, hacts (Device.acts_start env _ p), h₁.failures_eq]
      simp only [Footprint.boot]
      omega
  | ping _ _ _ h₁ h₂ =>
      rw [h₂.failures_eq, hacts (Device.acts_onHeartbeat env _ p), h₁.failures_eq]
      simp only [Footprint.power]
      omega
  | stop t _ _ h₁ =>
      rw [h₁.failures_eq, hacts ((Device.acts_setStopTimeout w p t).trans (Device.acts_stop env _ p))]
      simp only [Footprint.relay]
      omega
  | enable _ _ h₁ =>
      rw [h₁.failures_eq, hacts (Device.acts_enable env w p)]
      simp only [Footprint.power]
      omega
  | media m _ _ _ h₁ =>
      rw [h₁.failures_eq, hacts (Device.acts_setNextBootMedia env w p m)]
      simp only [Footprint.switch, Footprint.power]
      omega

/-! ## 実行を通した不変条件 -/

/-- 前の `update` が計時を調べた時刻 `last` から見て、監視されている機器の計時はまだ切れていなかった。 -/
structure Watched (p : Port) (last : Nat) (w : World) : Prop where
  ok : TimerOk p w
  le_now : last ≤ w.now
  fresh : Supervised p w → last ≤ lastBeat p w.log + 3600000

theorem supervised_of_mode {w w' : World} (hm : (dev w' p).mode = (dev w p).mode)
    (hc : (dev w' p).config = (dev w p).config) (hs : Supervised p w') : Supervised p w := by
  simp only [Device.mode, Prod.mk.injEq, Device.config] at hm hc
  exact ⟨hm.1 ▸ hs.1, hm.2 ▸ hs.2.1, hc.2.2.2.1 ▸ hs.2.2⟩

theorem Watched.step {last : Nat} {w w' : World} (h : Watched p last w) (ht : Timed p w w')
    (hc : (dev w' p).config = (dev w p).config) : Watched p last w' := by
  refine ⟨ht.ok h.ok, Nat.le_trans h.le_now ht.now_le, fun hs => ?_⟩
  rcases ht.keeps with ⟨hb, hm⟩ | hb
  · rw [hb]
    exact h.fresh (supervised_of_mode hm hc hs)
  · have := h.le_now
    omega

theorem Watched.exceeds_iff {last : Nat} {w : World} (h : Watched p last w) (hs : Supervised p w)
    (hgap : Spaced last w.now) :
    (dev w p).heartbeatTimer.exceeds w.now Device.heartbeatTimeout = true ↔ HeartbeatLost p w := by
  have hf := h.fresh hs
  have hle := h.ok.le_now
  unfold Spaced at hgap
  rw [h.ok.timer, DurationTimer.exceeds_reset_iff hle (by omega)]
  rfl

/-- `update` の後、監視の状況は、それが計時を調べた時刻について成り立つ。 -/
theorem Watched.update {last : Nat} {w : World} (h : Watched p last w)
    (hgap : Spaced last (Device.sense env p w).now) :
    Watched p (Device.sense env p w).now (Device.update env p w) := by
  have hc : Watched p last (Device.sense env p w) :=
    h.step (timed_sense env p w) (Device.acts_sense env w p).config
  have ht := timed_updateState env p (Device.sense env p w)
  have hcfg : (dev (Device.update env p w) p).config = (dev (Device.sense env p w) p).config :=
    (Device.acts_updateState env (Device.sense env p w) p).config
  refine ⟨ht.ok hc.ok, ht.now_le, fun hs => ?_⟩
  rcases ht.keeps with ⟨hb, hm⟩ | hb
  · have hs' := supervised_of_mode hm hcfg hs
    have hlost : ¬ HeartbeatLost p (Device.sense env p w) := by
      rw [← hc.exceeds_iff hs' hgap]
      intro he
      have hstop := (checkHeartbeat_lost env hs' he).1
      have hstart : (dev (Device.updateState env p (Device.sense env p w)) p).state = .started := hs.1
      rw [hstop] at hstart
      cases hstart
    unfold HeartbeatLost at hlost
    rw [Device.update_eq, hb]
    omega
  · exact Nat.le_trans hb (Nat.le_add_right _ _)

theorem updateTime_eq_some {o : Op} {w : World} {t : Nat} (h : updateTime env p o w = some t) :
    o = .update p ∧ w.ram.halted = false ∧ t = (Device.sense env p w).now := by
  unfold updateTime at h
  split at h
  · rename_i i
    split at h
    · rename_i hc
      obtain ⟨rfl, hh⟩ := hc
      exact ⟨rfl, hh, (Option.some.inj h).symm⟩
    · cases h
  · cases h

/-- 一歩の後の監視の状況。前の `update` の時刻は、その一歩が `update` なら置き換わる。 -/
theorem Watched.step_of {last : Nat} {o : Op} {w w' : World} (h : Watched p last w)
    (hstep : V4.step env o w = some w') (hall : w.ram.shouldResetAll = false)
    (hgap : ∀ t, updateTime env p o w = some t → Spaced last t) :
    Watched p ((updateTime env p o w).getD last) w' := by
  cases ht : updateTime env p o w with
  | none =>
      have hon := (step_inv hstep).on hall p
      exact h.step (timed_step hon) hon.config_eq
  | some t =>
      obtain ⟨rfl, hh, rfl⟩ := updateTime_eq_some ht
      have hw : w' = Device.update env p w := by simpa [V4.step, hh] using hstep.symm
      rw [hw]
      exact h.update (hgap _ ht)

/-- 実行の終わりで、続く `update` の間隔の条件だけが残る。 -/
theorem Watched.run {ops : List Op} {os : List Op} {last : Nat} {w w' : World} (h : Watched p last w)
    (hrun : V4.run env ops w = some w') (hall : w.ram.shouldResetAll = false)
    (hgap : List.IsChain Spaced (last :: updateTimes env p (ops ++ os) w)) :
    ∃ last', Watched p last' w' ∧ w'.ram.shouldResetAll = false ∧
      List.IsChain Spaced (last' :: updateTimes env p os w') := by
  induction ops generalizing last w with
  | nil => cases hrun; exact ⟨last, h, hall, hgap⟩
  | cons o ops ih =>
      obtain ⟨t, ht, hr⟩ := Run.run_cons.mp hrun
      have hall' := (step_inv ht).resetAll_eq hall
      simp only [List.cons_append, updateTimes, ht, Option.map_some, Option.getD_some] at hgap
      cases hu : updateTime env p o w with
      | none =>
          rw [hu] at hgap
          have hw := h.step_of ht hall (by simp [hu])
          rw [hu] at hw
          exact ih hw hr hall' hgap
      | some u =>
          rw [hu] at hgap
          obtain ⟨hsp, hgap'⟩ := List.isChain_cons_cons.mp hgap
          have hw := h.step_of ht hall (by rintro v hv; cases hu.symm.trans hv; exact hsp)
          rw [hu] at hw
          exact ih hw hr hall' hgap'

theorem watched_booted (env : Env) (h : Hardware) (p : Port) :
    Watched p (booted env h).now (booted env h) := by
  refine ⟨timerOk_booted env h p, Nat.le_refl _, fun hs => ?_⟩
  have hp : p = 0 := by
    by_contra hp
    rcases booted_idle hp env h with hst | hst <;> rw [hs.1] at hst <;> cases hst
  -- ポート 0 の `start` は `setup` の最後の操作で、その最後に状態を変える
  subst hp
  have hlast : lastBeat 0 (booted env h).log = (booted env h).now := by
    rw [booted_eq_powerUp]
    exact lastBeat_changeState 0 _ _
  rw [hlast]
  exact Nat.le_add_right _ _

/-- 一歩の前後での、心拍の監視と失敗の回数。 -/
theorem Watched.exact {last : Nat} {o : Op} {w w' : World} (h : Watched p last w)
    (hstep : V4.step env o w = some w') (hall : w.ram.shouldResetAll = false)
    (hgap : ∀ t, updateTime env p o w = some t → Spaced last t) :
    (o = .update p → w.ram.halted = false → Supervised p w →
      ((dev w' p).state = .stopping ↔ HeartbeatLost p (Device.sense env p w))) ∧
    (TimesOut env p o w →
      Record.getBootFailures w'.hw.eeprom p = Record.getBootFailures w.hw.eeprom p + 1) ∧
    (¬ TimesOut env p o w →
      Record.getBootFailures w'.hw.eeprom p = Record.getBootFailures w.hw.eeprom p) := by
  have hon := (step_inv hstep).on hall p
  by_cases ho : o = .update p
  · subst ho
    cases hh : w.ram.halted with
    | true =>
        have hw : w' = w := by simpa [V4.step, hh] using hstep.symm
        rw [hw]
        refine ⟨fun _ hf => ?_, fun hto => ?_, fun _ => rfl⟩
        · cases hf
        · have hf := hto.2.1
          rw [hh] at hf
          cases hf
    | false =>
        have hw : w' = Device.update env p w := by simpa [V4.step, hh] using hstep.symm
        have hsp : Spaced last (Device.sense env p w).now := hgap _ (by simp [updateTime, hh])
        have hc : Watched p last (Device.sense env p w) :=
          h.step (timed_sense env p w) (Device.acts_sense env w p).config
        have hsame : Record.getBootFailures (Device.sense env p w).hw.eeprom p =
            Record.getBootFailures w.hw.eeprom p :=
          Footprint.failures_eq (Device.acts_sense env w p).trail (Or.inr (by simp only [Footprint.power]; omega))
        rw [hw, Device.update_eq, ← hsame]
        refine ⟨fun _ _ hs => ?_, fun hto => ?_, fun hto => updateState_failures_eq fun hc' => hto ?_⟩
        · have hs' := sense_supervised env hs
          rw [← hc.exceeds_iff hs' hsp]
          constructor
          · intro hst
            by_contra he
            rw [updateState_started hs' (by simpa using he)] at hst
            cases hst
          · exact fun he => (checkHeartbeat_lost env hs' he).1
        · exact (checkHeartbeat_lost env hto.2.2.1 ((hc.exceeds_iff hto.2.2.1 hsp).mpr hto.2.2.2)).2
        · exact ⟨rfl, hh, hc'.1, (hc.exceeds_iff hc'.1 hsp).mp hc'.2⟩
  · exact ⟨fun h => absurd h ho, fun hto => absurd hto.1 ho, fun _ => hon.failures_eq ho⟩

/-! ## 主定理 -/

/-- `update` の間隔がどれも `2 ^ 32 - 3600000` ミリ秒に満たない実行では、監視されている機器は、最後の心拍か
状態の変化から実時間で一時間を超えた `update` で、かつそのときにだけ止められる。失敗の回数はそのような `update` で
一つ増え、ほかの一歩では変わらない。最初の `update` の間隔は `setup` の終わりから測る。 -/
theorem heartbeat_supervision_exact (env : Env) (h : Hardware) (p : Port) (ops : List Op) (o : Op)
    (w w' : World)
    (hrun : run env ops (booted env h) = some w) (hstep : step env o w = some w')
    (hgap : List.IsChain Spaced ((booted env h).now :: updateTimes env p (ops ++ [o]) (booted env h))) :
    (o = .update p → w.ram.halted = false → Supervised p w →
      ((dev w' p).state = .stopping ↔ HeartbeatLost p (Device.sense env p w))) ∧
    (TimesOut env p o w →
      Record.getBootFailures w'.hw.eeprom p = Record.getBootFailures w.hw.eeprom p + 1) ∧
    (¬ TimesOut env p o w →
      Record.getBootFailures w'.hw.eeprom p = Record.getBootFailures w.hw.eeprom p) := by
  obtain ⟨last, hw, hall, hgap'⟩ := (watched_booted env h p).run hrun (booted_globals env h).1 hgap
  refine hw.exact hstep hall fun t ht => ?_
  simp only [updateTimes, ht, Option.toList_some, List.cons_append, List.nil_append] at hgap'
  exact (List.isChain_cons_cons.mp hgap').1

/-- 起動してから心拍のないまま一時間が過ぎると、次の `update` でポート 0 の機器は止められ、失敗が一つ数えられる。 -/
theorem heartbeat_supervision_exact_silent : ∃ w w',
    run Env.ideal [.idle 3600001] (booted Env.ideal Hardware.ready) = some w ∧
      step Env.ideal (.update 0) w = some w' ∧ (dev w' 0).state = .stopping ∧
      Record.getBootFailures w'.hw.eeprom 0 = Record.getBootFailures w.hw.eeprom 0 + 1 := by
  have hh := (booted_globals Env.ideal Hardware.ready).2.2.1
  have hrun : run Env.ideal [.idle 3600001] (booted Env.ideal Hardware.ready) =
      some (delay Env.ideal 3600001 (booted Env.ideal Hardware.ready)) := by simp [Run.run, step, hh]
  have hstep : step Env.ideal (.update 0) (delay Env.ideal 3600001 (booted Env.ideal Hardware.ready)) =
      some (Device.update Env.ideal 0 (delay Env.ideal 3600001 (booted Env.ideal Hardware.ready))) := by
    simp [step, hh]
  have hall :=
    heartbeat_supervision_exact Env.ideal Hardware.ready 0 [.idle 3600001] (.update 0) _ _ hrun hstep
    (by decide +kernel)
  have hs : Supervised 0 (delay Env.ideal 3600001 (booted Env.ideal Hardware.ready)) := by
    unfold Supervised; decide +kernel
  have hl : HeartbeatLost 0
      (Device.sense Env.ideal 0 (delay Env.ideal 3600001 (booted Env.ideal Hardware.ready))) := by
    unfold HeartbeatLost; decide +kernel
  exact ⟨_, _, hrun, hstep, (hall.1 rfl hh hs).mpr hl, hall.2.1 ⟨rfl, hh, sense_supervised _ hs, hl⟩⟩

end Wagman.V4
