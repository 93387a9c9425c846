import Wagman.V4.Theorems.Heartbeat
import Wagman.V4.Theorems.Relay

/-!
# 止めるための待ち時間

止めている途中の機器は、`ENABLE` と `STOP` の要求がない限り、待ち時間を過ぎた最初の `update` でリレーを切られる。
それまでは、どの操作もリレーと状態に関わらない。自動で止めるときの待ち時間が 60 秒より短くならないための条件も
示す。
-/

namespace Wagman.V4

open Machine

variable {env : Env} {p : Port} {w w' w'' : World}

/-! ## 状態の計時 -/

/-- `devices[p]` の状態を変える事象。 -/
def Event.moves (p : Port) : Event → Bool
  | .state q _ => q == p
  | _ => false

/-- 記録の中で最後に `devices[p]` の状態が変わった時刻。 -/
def lastState (p : Port) (log : Log) : Nat := ((log.find? (·.event.moves p)).map Entry.time).getD 0

theorem lastState_cons_of_not {x : Entry Event} (h : x.event.moves p = false) (l : Log) :
    lastState p (x :: l) = lastState p l := by simp [lastState, h]

theorem lastState_changeState (p : Port) (w : World) (s : State) :
    lastState p (Device.changeState p s w).log = w.now := by
  simp [lastState, Event.moves]

/-- 状態の計時は、記録にある最後の状態の変化の時刻に始まる。 -/
structure StateTimerOk (p : Port) (w : World) : Prop where
  timer : (dev w p).stateTimer = DurationTimer.reset (lastState p w.log)
  le_now : lastState p w.log ≤ w.now

namespace StateTimerOk

theorem of_trail (hw : StateTimerOk p w) (h : Trail (fun e => e.moves p = false) w w')
    (ht : (dev w' p).stateTimer = (dev w p).stateTimer) : StateTimerOk p w' := by
  have hlog : lastState p w'.log = lastState p w.log := h.log_eq fun x l hx => lastState_cons_of_not hx l
  exact ⟨by rw [ht, hlog, hw.timer], by rw [hlog]; exact Nat.le_trans hw.le_now h.now_le⟩

theorem of_frame (hw : StateTimerOk p w) (hf : Frame p w w') : StateTimerOk p w' := by
  refine hw.of_trail (hf.trail.mono fun e he => ?_) (by rw [hf.dev])
  cases e with
  | state q s => exact beq_eq_false_iff_ne.mpr he
  | _ => rfl

theorem changeState (s : State) : StateTimerOk p (Device.changeState p s w) := by
  refine ⟨?_, by rw [lastState_changeState]; exact Nat.le_refl _⟩
  rw [lastState_changeState]
  simp [dev, Device.enter, timerNow]

theorem powerDown : StateTimerOk p (Device.powerDown env p w) :=
  (changeState .stopped).of_trail (((Trail.refl _).setRam _).mark rfl) rfl

theorem prim (hw : StateTimerOk p w) (hs : Prim env p (Frame p) w w') : StateTimerOk p w' := by
  cases hs with
  | frame hf => exact hw.of_frame hf
  | tweak d hd =>
      have ht := congrArg Device.stateTimer hd
      exact hw.of_trail (trail_setDev p d) (by rw [dev_setDev_self]; exact ht)
  | beat => exact hw.of_trail ((trail_setDev p _).mark rfl) (by simp)
  | refuse _ _ => exact changeState .disabled
  | halt _ => exact changeState .stopping
  | revive _ _ => exact changeState .stopped
  | off _ => exact powerDown
  | on _ => exact changeState .started
  | fail _ => exact hw.of_trail (still_put (fun _ _ _ _ => rfl) _).trail (by simp [dev])
  | media m => exact hw.of_trail (trail_setNextBootMedia rfl fun _ _ => rfl) (by simp)

theorem step {o : Op} (hs : StepOn env p o w w') (hw : StateTimerOk p w) : StateTimerOk p w' :=
  hs.induct (P := StateTimerOk p) (fun _ _ hp h => h.prim hp) (fun _ _ => changeState .stopped)
    (fun _ _ _ _ _ => changeState .started) hw

theorem booted (env : Env) (h : Hardware) (p : Port) : StateTimerOk p (V4.booted env h) := by
  refine booted_induct (p := p) (fun w w' hf hw => hw.of_frame hf) h ?_ ?_
  · intro w _ _
    rw [Device.init_eq]
    exact changeState _
  · exact fun _ _ _ _ => changeState .started

theorem run {h : Hardware} {ops : List Op} (hrun : V4.run env ops (V4.booted env h) = some w) : StateTimerOk p w :=
  run_invariant_on (fun _ _ _ hs hw => step hs hw) hrun (booted env h p)

end StateTimerOk

/-! ## 止めている途中の操作 -/

/-- 状態も待ち時間も変えず、リレーを動かさない。 -/
structure Waits (p : Port) (w w' : World) : Prop where
  trail : Trail (fun e => ¬ e.MovesRelay p) w w'
  state : (dev w' p).state = (dev w p).state
  timer : (dev w' p).stateTimer = (dev w p).stateTimer
  timeout : (dev w' p).stopTimeout = (dev w p).stopTimeout

namespace Waits

theorem refl (w : World) : Waits p w w := ⟨Trail.refl w, rfl, rfl, rfl⟩

theorem trans (h₁ : Waits p w w') (h₂ : Waits p w' w'') : Waits p w w'' :=
  ⟨h₁.trail.trans h₂.trail, h₂.state.trans h₁.state, h₂.timer.trans h₁.timer, h₂.timeout.trans h₁.timeout⟩

theorem of_frame (hf : Frame p w w') : Waits p w w' :=
  ⟨hf.trail.mono fun _ he => not_movesRelay_of_not_about he, by rw [hf.dev], by rw [hf.dev], by rw [hf.dev]⟩

theorem of_setDev {d : Device} (hs : d.state = (dev w p).state) (ht : d.stateTimer = (dev w p).stateTimer)
    (hto : d.stopTimeout = (dev w p).stopTimeout) : Waits p w (setDev p d w) :=
  ⟨trail_setDev p d, by simpa using hs, by simpa using ht, by simpa using hto⟩

theorem setNextBootMedia (m : Media) : Waits p w (Device.setNextBootMedia env p m w) := by
  refine ⟨trail_setNextBootMedia id fun s b hk => bootSelectorPin_ne_relayClk s p hk, ?_, ?_, ?_⟩ <;> simp

theorem beat : Waits p w (Device.beat p w) := by
  refine ⟨(trail_setDev p _).mark id, ?_, ?_, ?_⟩ <;> simp

theorem updateFault : Waits p w (Device.updateFault env p w) := by
  have hread : Waits p w (ioRead env w) := of_frame (Frame.ofStill still_ioRead fun _ h => h)
  simp only [Device.updateFault]
  split
  · exact hread
  · split
    · exact hread.trans (of_setDev rfl rfl rfl)
    · exact hread

theorem sendStopMessage : Waits p w (Device.sendStopMessage p w) := by
  unfold Device.sendStopMessage
  split
  · exact of_setDev rfl rfl rfl
  · exact refl w

/-- 止めている途中の `update` は、待ち時間を調べるまでは何も変えない。 -/
theorem sense (hs : (dev w p).state = .stopping) : Waits p w (Device.sense env p w) := by
  have hbeat : ∀ v, Frame p w v → Waits p w (Device.onHeartbeat env p v) := by
    intro v hf
    rw [Device.onHeartbeat_of_powered env (Or.inr (by rw [hf.dev]; exact hs))]
    exact (of_frame hf).trans beat
  have hheart : Waits p w (Device.updateHeartbeat env p w) := by
    unfold Device.updateHeartbeat
    split
    · exact hbeat _ (Frame.setRam rfl)
    · exact refl w
  exact hheart.trans updateFault

end Waits

/-- `update` が待ち時間を調べる時点で、計時が待ち時間を超えている。 -/
def Expired (env : Env) (p : Port) (w : World) : Prop :=
  (dev w p).stateTimer.exceeds (Device.sense env p w).now (dev w p).stopTimeout = true

/-- 待ち時間を過ぎた `update` が、リレーを切る直前の状態。 -/
def expiring (env : Env) (p : Port) (w : World) : World :=
  Device.setStopTimeout p 60000 (Device.sendStopMessage p (Device.sense env p w))

theorem sendStopMessage_now (p : Port) (w : World) : (Device.sendStopMessage p w).now = w.now := by
  unfold Device.sendStopMessage
  split <;> rfl

/-- 止めている途中の `update` は、待ち時間を過ぎていればリレーを切り、過ぎていなければ何も変えない。 -/
theorem update_stopping (env : Env) (hs : (dev w p).state = .stopping) :
    (Expired env p w ∧ Device.update env p w = Device.powerDown env p (expiring env p w)) ∨
      (¬ Expired env p w ∧ Waits p w (Device.update env p w)) := by
  have hsense : Waits p w (Device.sense env p w) := Waits.sense hs
  have hmsg : Waits p w (Device.sendStopMessage p (Device.sense env p w)) := hsense.trans Waits.sendStopMessage
  have heq : Device.update env p w =
      Device.checkStopTimeout env p (Device.sendStopMessage p (Device.sense env p w)) := by
    rw [Device.update_eq]
    simp only [Device.updateState, hsense.state, hs, Device.updateStopping]
  rw [heq]
  unfold Device.checkStopTimeout
  rw [hmsg.timer, hmsg.timeout, sendStopMessage_now]
  split
  · rename_i he
    refine Or.inl ⟨he, ?_⟩
    have hne : (dev (expiring env p w) p).state ≠ .disabled := by
      simp only [expiring, Device.setStopTimeout, dev_setDev_self, hmsg.state, hs]
      decide
    exact congrArg Prod.snd (Device.kill_of_ne env hne)
  · rename_i he
    exact Or.inr ⟨he, hmsg⟩

/-- `ENABLE` と `STOP` のほかの一歩は、止めている途中の機器を待たせるか、待ち時間を過ぎた `update` でリレーを切る。 -/
theorem StepOn.stopping_cases {o : Op} (hstep : StepOn env p o w w') (hs : (dev w p).state = .stopping)
    (hstop : ¬ o.Stops p) (hen : ¬ o.Enables p) :
    Waits p w w' ∨ (o = .update p ∧ Expired env p w ∧ w' = Device.powerDown env p (expiring env p w)) := by
  cases hstep with
  | frame hf => exact Or.inl (.of_frame hf)
  | update =>
      rcases update_stopping env hs with ⟨he, heq⟩ | ⟨-, hw⟩
      · exact Or.inr ⟨rfl, he, heq⟩
      · exact Or.inl hw
  | @next _ u _ _ _ h₁ h₂ =>
      rw [Device.start_of_stopping env (by rw [h₁.dev]; exact hs)] at h₂
      exact Or.inl (.of_frame (h₁.trans h₂))
  | @ping _ _ _ _ u _ _ _ _ h₁ h₂ =>
      rw [Device.onHeartbeat_of_powered env (Or.inr (by rw [h₁.dev]; exact hs))] at h₂
      exact Or.inl (((Waits.of_frame h₁).trans .beat).trans (.of_frame h₂))
  | stop t hr ht _ => exact absurd ⟨hr, ht⟩ hstop
  | enable hr ht _ => exact absurd ⟨hr, ht⟩ hen
  | media m _ _ _ h₁ => exact Or.inl ((Waits.setNextBootMedia m).trans (.of_frame h₁))

/-! ## 待ち時間 -/

/-- 続く二つの `update` の間隔は、一周から待ち時間を引いたものに満たない。 -/
def SpacedBy (T : UInt32) (s t : Nat) : Prop := t < s + (2 ^ 32 - T.toNat)

instance (T : UInt32) : DecidableRel (SpacedBy T) := fun s t =>
  inferInstanceAs (Decidable (t < s + (2 ^ 32 - T.toNat)))

/-- 時刻 `e` に止め始めた機器は、前の `update` が待ち時間を調べた時刻 `last` では、まだ待ち時間 `T` を過ぎていない。 -/
structure Waiting (p : Port) (e : Nat) (T : UInt32) (last : Nat) (w : World) : Prop where
  state : (dev w p).state = .stopping
  timer : (dev w p).stateTimer = DurationTimer.reset e
  timeout : (dev w p).stopTimeout = T
  le_now : e ≤ w.now
  fresh : last ≤ e + T.toNat

namespace Waiting

variable {e last : Nat} {T : UInt32}

theorem waits (hw : Waiting p e T last w) (h : Waits p w w') : Waiting p e T last w' where
  state := h.state.trans hw.state
  timer := h.timer.trans hw.timer
  timeout := h.timeout.trans hw.timeout
  le_now := Nat.le_trans hw.le_now h.trail.now_le
  fresh := hw.fresh

/-- 間隔の条件の下で、計時の判定は実時間の比較と一致する。 -/
theorem expired_iff (hw : Waiting p e T last w) (hgap : SpacedBy T last (Device.sense env p w).now) :
    Expired env p w ↔ T.toNat < (Device.sense env p w).now - e := by
  have hle : e ≤ (Device.sense env p w).now :=
    Nat.le_trans hw.le_now (Device.acts_sense env w p).trail.now_le
  have hfresh := hw.fresh
  have hT := T.toNat_lt
  unfold SpacedBy at hgap
  unfold Expired
  rw [hw.timer, hw.timeout]
  exact DurationTimer.exceeds_reset_iff hle (by omega)

/-- 待ち時間を過ぎた `update` でない一歩の後も、待ち続ける。 -/
theorem step {o : Op} (hw : Waiting p e T last w) (hstep : V4.step env o w = some w')
    (hall : w.ram.shouldResetAll = false) (hstop : ¬ o.Stops p) (hen : ¬ o.Enables p)
    (hgap : ∀ t, updateTime env p o w = some t → SpacedBy T last t)
    (hwait : ∀ t, updateTime env p o w = some t → t - e ≤ T.toNat) :
    Waiting p e T ((updateTime env p o w).getD last) w' ∧ Waits p w w' := by
  cases ht : updateTime env p o w with
  | none =>
      rcases ((step_inv hstep).on hall p).stopping_cases hw.state hstop hen with h | ⟨rfl, -, hoff⟩
      · exact ⟨hw.waits h, h⟩
      · -- `update` が調べる時刻がないのは、止まった後だけである
        have hh : w.ram.halted = true := by simpa [updateTime] using ht
        have heq : w' = w := by simpa [V4.step, hh] using hstep.symm
        rw [heq]
        exact ⟨hw, Waits.refl w⟩
  | some t =>
      obtain ⟨rfl, hh, rfl⟩ := updateTime_eq_some ht
      have heq : w' = Device.update env p w := by simpa [V4.step, hh] using hstep.symm
      have hlate := hwait _ ht
      rw [heq]
      rcases update_stopping env hw.state with ⟨he, -⟩ | ⟨-, h⟩
      · have hlt := (hw.expired_iff (hgap _ ht)).mp he
        omega
      · refine ⟨⟨h.state.trans hw.state, h.timer.trans hw.timer, h.timeout.trans hw.timeout,
          Nat.le_trans hw.le_now h.trail.now_le, ?_⟩, h⟩
        simp only [Option.getD_some]
        omega

/-- 待ち時間を過ぎた `update` のない実行の間、機器は待ち続け、続く `update` の間隔の条件だけが残る。 -/
theorem run {ops os : List Op} (hw : Waiting p e T last w) (hrun : V4.run env ops w = some w')
    (hall : w.ram.shouldResetAll = false) (hops : ∀ o ∈ ops, ¬ o.Stops p ∧ ¬ o.Enables p)
    (hgap : List.IsChain (SpacedBy T) (last :: updateTimes env p (ops ++ os) w))
    (hwait : ∀ t ∈ updateTimes env p ops w, t - e ≤ T.toNat) :
    ∃ last', Waiting p e T last' w' ∧ Waits p w w' ∧ w'.ram.shouldResetAll = false ∧
      List.IsChain (SpacedBy T) (last' :: updateTimes env p os w') := by
  induction ops generalizing last w with
  | nil => cases hrun; exact ⟨last, hw, Waits.refl _, hall, hgap⟩
  | cons o ops ih =>
      obtain ⟨v, hv, hr⟩ := Run.run_cons.mp hrun
      obtain ⟨hstop, hen⟩ := hops o (by simp)
      simp only [List.cons_append, updateTimes, hv, Option.map_some, Option.getD_some] at hgap hwait
      have hnow : Waiting p e T ((updateTime env p o w).getD last) v ∧ Waits p w v := by
        refine hw.step hv hall hstop hen ?_ fun t ht => hwait t (by simp [ht])
        intro t ht
        simp only [ht, Option.toList_some, List.cons_append, List.nil_append] at hgap
        exact (List.isChain_cons_cons.mp hgap).1
      have hrest : List.IsChain (SpacedBy T)
          ((updateTime env p o w).getD last :: updateTimes env p (ops ++ os) v) := by
        cases ht : updateTime env p o w with
        | none => simpa [ht] using hgap
        | some t =>
            simp only [ht, Option.toList_some, List.cons_append, List.nil_append] at hgap
            exact (List.isChain_cons_cons.mp hgap).2
      obtain ⟨last', hw', hs, ha, hc⟩ := ih hnow.1 hr ((step_inv hv).resetAll_eq hall)
        (fun o ho => hops o (by simp [ho])) hrest (fun t ht => hwait t (by simp [ht]))
      exact ⟨last', hw', hnow.2.trans hs, ha, hc⟩

theorem ofStateTimer (hw : StateTimerOk p w) (hs : (dev w p).state = .stopping) :
    Waiting p (lastState p w.log) (dev w p).stopTimeout (lastState p w.log) w :=
  ⟨hs, hw.timer, rfl, hw.le_now, Nat.le_add_right _ _⟩

end Waiting

/-- この一歩でポート `p` のリレーが切られ、機器は止まり、待ち時間は既定の値に戻る。 -/
structure TurnedOff (p : Port) (w w' : World) : Prop where
  driven : ∃ t new, w'.log = new ++ w.log ∧ ⟨t, .relay p false⟩ ∈ new
  relay : RelayOff p w'
  state : (dev w' p).state = .stopped
  timeout : (dev w' p).stopTimeout = 60000

theorem driven_driveRelay (env : Env) (p : Port) (t s : UInt8) (mode : Bool) (w : World) :
    ∃ τ new, (Device.driveRelay env p t mode s w).log = new ++ w.log ∧ ⟨τ, .relay p mode⟩ ∈ new :=
  ⟨(delay env 10 (Record.setRelayState env p t w)).now, [_, _, _, _, _, _, ⟨_, .relay p mode⟩, _], rfl, by simp⟩

theorem turnedOff_update (hs : (dev w p).state = .stopping)
    (heq : w' = Device.powerDown env p (expiring env p w)) : TurnedOff p w w' := by
  have hmsg : Waits p w (Device.sendStopMessage p (Device.sense env p w)) := (Waits.sense hs).trans .sendStopMessage
  obtain ⟨new₁, hl₁, -⟩ := hmsg.trail.log
  obtain ⟨t, new₂, hl₂, hmem⟩ := driven_driveRelay env p relayTurningOff relayOff false (expiring env p w)
  obtain ⟨x, y, hlog⟩ : ∃ x y, w'.log = x :: y ::
      (Device.driveRelay env p relayTurningOff false relayOff (expiring env p w)).log := ⟨_, _, by rw [heq]; rfl⟩
  have hexp : (expiring env p w).log = new₁ ++ w.log := hl₁
  refine ⟨⟨t, x :: y :: (new₂ ++ new₁), ?_, by simp [hmem]⟩, ?_, ?_, ?_⟩
  · rw [hlog, hl₂, hexp, List.cons_append, List.cons_append, List.append_assoc]
  · rw [heq]
    exact relayOff_powerDown env p _
  · rw [heq]
    simp [dev, Device.powerDown_ram, Device.enter]
  · rw [heq]
    simp [dev, Device.powerDown_ram, Device.enter, expiring, Device.setStopTimeout]

/-! ## 待ち時間の正確さ -/

/-- 止めている途中の機器は、止め始めてから待ち時間を過ぎた最初の `update` までは状態もリレーも変わらず、その `update` で
リレーを切られて止まる。それまでの `start` は拒まれて何も変えず、心拍は心拍の計時だけを変える。 -/
theorem graceful_stop_exact (env : Env) (h : Hardware) (p : Port) (ops ops' : List Op) (o : Op) (w v v' : World)
    (hrun : run env ops (booted env h) = some w) (hs : (dev w p).state = .stopping)
    (hrest : run env ops' w = some v) (hstep : step env o v = some v')
    (hops : ∀ o' ∈ ops' ++ [o], ¬ o'.Stops p ∧ ¬ o'.Enables p)
    (hgap : List.IsChain (SpacedBy (dev w p).stopTimeout)
      (lastState p w.log :: updateTimes env p (ops' ++ [o]) w))
    (hwait : ∀ t ∈ updateTimes env p ops' w, t - lastState p w.log ≤ (dev w p).stopTimeout.toNat) :
    (dev v p).state = .stopping ∧ Trail (fun e => ¬ e.MovesRelay p) w v ∧
    (∀ t, updateTime env p o v = some t → (dev w p).stopTimeout.toNat < t - lastState p w.log → TurnedOff p v v') ∧
    ((∀ t, updateTime env p o v = some t → t - lastState p w.log ≤ (dev w p).stopTimeout.toNat) →
      (dev v' p).state = .stopping ∧ Trail (fun e => ¬ e.MovesRelay p) w v') ∧
    Device.start env p v = (errorInvalidAction, v) ∧
    dev (Device.onHeartbeat env p v) p = { dev v p with heartbeatTimer := timerNow v } ∧
    (∀ a port r, o = .request a port r → Req.ofId r.id = some .ping →
      ∃ t, dev v' p = { dev v p with heartbeatTimer := t }) := by
  have hw := Waiting.ofStateTimer (StateTimerOk.run hrun) hs
  obtain ⟨last, hv, hwaits, hall, hgap'⟩ :=
    hw.run hrest (run_resetAll hrun) (fun o ho => hops o (by simp [ho])) hgap hwait
  obtain ⟨hstop, hen⟩ := hops o (by simp)
  have hspace : ∀ t, updateTime env p o v = some t → SpacedBy (dev w p).stopTimeout last t := by
    intro t ht
    simp only [updateTimes, ht, Option.toList_some, List.cons_append, List.nil_append] at hgap'
    exact (List.isChain_cons_cons.mp hgap').1
  refine ⟨hv.state, hwaits.trail, ?_, ?_, Device.start_of_stopping env hv.state, ?_, ?_⟩
  · intro t ht hlate
    obtain ⟨rfl, hh, rfl⟩ := updateTime_eq_some ht
    have heq : v' = Device.update env p v := by simpa [V4.step, hh] using hstep.symm
    rcases update_stopping env hv.state with ⟨-, hoff⟩ | ⟨he, -⟩
    · exact turnedOff_update hv.state (heq.trans hoff)
    · exact absurd ((hv.expired_iff (hspace _ ht)).mpr hlate) he
  · intro hearly
    obtain ⟨hv', hlast⟩ := hv.step hstep hall hstop hen hspace hearly
    exact ⟨hv'.state, hwaits.trail.trans hlast.trail⟩
  · rw [Device.onHeartbeat_of_powered env (Or.inr hv.state), Device.dev_beat]
  · rintro a port r rfl hr
    cases (step_inv hstep).on hall p with
    | frame hf => exact ⟨_, hf.dev⟩
    | ping _ _ _ h₁ h₂ =>
        rw [Device.onHeartbeat_of_powered env (Or.inr (by rw [h₁.dev]; exact hv.state))] at h₂
        exact ⟨_, by rw [h₂.dev, Device.dev_beat, h₁.dev]⟩
    | stop t hr' ht _ => exact absurd ⟨hr', ht⟩ hstop
    | enable hr' ht _ => exact absurd ⟨hr', ht⟩ hen
    | media m hr' ht _ _ => rw [hr] at hr'; cases hr'

/-- ポート 0 を 30 秒の待ち時間で止める要求。 -/
def stopSoon : List Op := [.request true 0 ⟨0xc008, 1, some 30⟩]

/-- 止める要求の 30001 ミリ秒後の `update` が、ポート 0 のリレーを切る。 -/
theorem graceful_stop_exact_soon : ∃ w v v', run Env.ideal stopSoon (booted Env.ideal Hardware.ready) = some w ∧
    run Env.ideal [.idle 20000, .update 0, .idle 10001] w = some v ∧ step Env.ideal (.update 0) v = some v' ∧
    (dev v 0).state = .stopping ∧ TurnedOff 0 v v' := by
  have hb : ((run Env.ideal stopSoon (booted Env.ideal Hardware.ready)).any fun w =>
      decide ((dev w 0).state = .stopping ∧ List.IsChain (SpacedBy (dev w 0).stopTimeout)
        (lastState 0 w.log :: updateTimes Env.ideal 0 ([.idle 20000, .update 0, .idle 10001] ++ [.update 0]) w) ∧
        ∀ t ∈ updateTimes Env.ideal 0 [.idle 20000, .update 0, .idle 10001] w,
          t - lastState 0 w.log ≤ (dev w 0).stopTimeout.toNat) &&
      (run Env.ideal [.idle 20000, .update 0, .idle 10001] w).any fun v =>
        decide ((updateTime Env.ideal 0 (.update 0) v).any fun t =>
          decide ((dev w 0).stopTimeout.toNat < t - lastState 0 w.log)) &&
        (step Env.ideal (.update 0) v).isSome) = true := by
    decide +kernel
  simp only [Option.any_eq_true, Bool.and_eq_true, decide_eq_true_eq, Option.isSome_iff_exists] at hb
  obtain ⟨w, hw, ⟨hs, hgap, hwait⟩, v, hv, ⟨t, ht, hlate⟩, v', hv'⟩ := hb
  have hall := graceful_stop_exact Env.ideal Hardware.ready 0 _ _ _ w v v' hw hs hv hv' (by decide +kernel) hgap hwait
  exact ⟨w, v, v', hw, hv, hv', hall.1, hall.2.2.1 t ht hlate⟩

/-! ## 自動で止めるときの待ち時間 -/

theorem step_stop {port : Int} {r : Request} {after : UInt32} (hstep : step env (.request true port r) w = some w')
    (hr : Req.ofId r.id = some .stop) (hv : r.value = some after) (ht : r.Targets p) :
    w' = w ∨ Idle (Device.stop env p (Device.setStopTimeout p (after * 1000) w)).2 w' := by
  have hp : r.subId - 1 = (p.val : Int) := by rw [ht]; omega
  have hvalid : validPort (r.subId - 1) = true := by
    have hlt := p.isLt
    simp only [validPort, hp, decide_eq_true_eq]
    omega
  have hidx : index? (r.subId - 1) = some p := by
    have hlt := p.isLt
    rw [hp, index?, dif_pos (by omega)]
    simp
  unfold step at hstep
  split at hstep
  · exact Or.inl (Option.some.inj hstep).symm
  · simp only [dispatch, hr, if_true, hv, commandStop, commandStopMain, hvalid, hidx, Option.map_some,
      Option.some.injEq] at hstep
    rw [← hstep]
    exact Or.inr (Idle.basicResp (by decide) _ _)

/-- 待ち時間を 60 秒に満たない値にする `STOP` の要求。秒からの換算は 32 ビットで行われる。 -/
abbrev Op.StopsShort (p : Port) : Op → Prop :=
  Op.Admin fun r => (Req.ofId r.id = some .stop ∧ r.Targets p) ∧
    (r.value.any fun after => decide (after * 1000 < 60000)) = true

/-- 60 秒に満たない待ち時間を残さない。止まっている機器に短い `STOP` を送らず、短い待ち時間で止めている途中の機器に
`ENABLE` を送らない。 -/
def KeepsGrace (p : Port) (o : Op) (w : World) : Prop :=
  (o.StopsShort p → (dev w p).state ≠ .stopped) ∧
    (o.Enables p → (dev w p).state = .stopping → 60000 ≤ (dev w p).stopTimeout)

instance (p : Port) (o : Op) (w : World) : Decidable (KeepsGrace p o w) :=
  inferInstanceAs (Decidable ((_ → _) ∧ (_ → _ → _)))

/-- 止めている途中でなければ、待ち時間は 60 秒以上である。 -/
def GraceOk (p : Port) (w : World) : Prop := (dev w p).state ≠ .stopping → 60000 ≤ (dev w p).stopTimeout

/-- 待ち時間を変えず、止めている途中の機器をその状態に保つ。 -/
structure KeepsTimeout (p : Port) (w w' : World) : Prop where
  timeout : (dev w' p).stopTimeout = (dev w p).stopTimeout
  stopping : (dev w p).state = .stopping → (dev w' p).state = .stopping

namespace KeepsTimeout

theorem trans (h₁ : KeepsTimeout p w w') (h₂ : KeepsTimeout p w' w'') : KeepsTimeout p w w'' :=
  ⟨h₂.timeout.trans h₁.timeout, fun hs => h₂.stopping (h₁.stopping hs)⟩

theorem of_waits (h : Waits p w w') : KeepsTimeout p w w' := ⟨h.timeout, fun hs => h.state.trans hs⟩

theorem of_frame (h : Frame p w w') : KeepsTimeout p w w' := of_waits (.of_frame h)

theorem changeState (hs : (dev w p).state ≠ .stopping) (s : State) : KeepsTimeout p w (Device.changeState p s w) :=
  ⟨by simp [dev, Device.enter], fun h => absurd h hs⟩

theorem onHeartbeat : KeepsTimeout p w (Device.onHeartbeat env p w) := by
  have hb : KeepsTimeout p w (Device.beat p w) := of_waits .beat
  have hd : (dev (Device.beat p w) p).state = (dev w p).state := by simp
  cases hs : (dev w p).state with
  | disabled =>
      rw [Device.onHeartbeat_of_disabled env hs]
      split
      · exact hb
      · refine hb.trans ⟨by simp [dev, Device.enter], fun h => ?_⟩
        rw [hd, hs] at h
        cases h
  | stopped =>
      rw [Device.onHeartbeat_of_stopped env hs]
      exact hb.trans (changeState (by rw [hd, hs]; decide) .started)
  | started => rw [Device.onHeartbeat_of_powered env (Or.inl hs)]; exact hb
  | stopping => rw [Device.onHeartbeat_of_powered env (Or.inr hs)]; exact hb

theorem sense : KeepsTimeout p w (Device.sense env p w) := by
  have hbeat : ∀ v, Frame p w v → KeepsTimeout p w (Device.onHeartbeat env p v) := fun v hf =>
    (of_frame hf).trans onHeartbeat
  have hh : KeepsTimeout p w (Device.updateHeartbeat env p w) := by
    unfold Device.updateHeartbeat
    split
    · exact hbeat _ (Frame.setRam rfl)
    · exact of_waits (Waits.refl w)
  exact hh.trans (of_waits .updateFault)

theorem start : KeepsTimeout p w (Device.start env p w).2 := by
  by_cases hs : (dev w p).state = .stopping
  · rw [Device.start_of_stopping env hs]
    exact of_waits (Waits.refl w)
  · rw [Device.start_of_ne env hs]
    exact ⟨by simp [dev, Device.powerUp_ram, Device.enter], fun h => absurd h hs⟩

end KeepsTimeout

theorem waits_checkCurrent : Waits p w (Device.checkCurrent p w) := by
  unfold Device.checkCurrent
  split
  · exact .of_setDev rfl rfl rfl
  · exact Waits.refl w

theorem waits_incrementBootFailures : Waits p w (Record.incrementBootFailures env p w) := by
  have hs : Still (fun e => ¬ e.MovesRelay p) w (Record.incrementBootFailures env p w) := by
    refine still_put (fun b v h₁ h₂ hb => ?_) _
    simp only [Event.MovesRelay, Record.portBootFailures, Record.portRelayJournal] at h₁ h₂ hb
    omega
  exact ⟨hs.trail, by simp [dev], by simp [dev], by simp [dev]⟩

theorem stop_of_started (env : Env) (h : (dev w p).state = .started) :
    (Device.stop env p w).2 = Device.changeState p .stopping w := by
  simp only [Device.stop, h]

/-- 動いている機器の `updateState` は、何も変えないか、止め始める。 -/
theorem updateState_of_started (env : Env) (hs : (dev w p).state = .started) :
    Waits p w (Device.updateState env p w) ∨
      ∃ v, Waits p w v ∧ Waits p (Device.changeState p .stopping v) (Device.updateState env p w) := by
  simp only [Device.updateState, hs, Device.updateStarted]
  split
  · simp only [Device.updateStartedManaged]
    unfold Device.checkHeartbeat
    split
    · have hf : Waits p w (Record.incrementBootFailures env p w) := waits_incrementBootFailures
      rw [stop_of_started env (hf.state.trans hs)]
      exact Or.inr ⟨_, hf, waits_checkCurrent⟩
    · exact Or.inl waits_checkCurrent
  · simp only [Device.updateStartedUnmanaged]
    split
    · have hread : Waits p w (ioRead env w) := .of_frame (Frame.ofStill still_ioRead fun _ h => h)
      have hm : ∀ m, Waits p w (Device.setNextBootMedia env p m (ioRead env w)) := fun m =>
        hread.trans (.setNextBootMedia m)
      rw [stop_of_started env ((hm _).state.trans hs)]
      exact Or.inr ⟨_, hm _, Waits.refl _⟩
    · exact Or.inl (Waits.refl w)

namespace GraceOk

theorem keeps (hw : GraceOk p w) (h : KeepsTimeout p w w') : GraceOk p w' := by
  intro hs
  rw [h.timeout]
  exact hw fun hst => hs (h.stopping hst)

theorem of_timeout (h : 60000 ≤ (dev w p).stopTimeout) : GraceOk p w := fun _ => h

theorem of_stopping (h : (dev w p).state = .stopping) : GraceOk p w := fun hs => absurd h hs

theorem updateState (hw : GraceOk p w) : GraceOk p (Device.updateState env p w) := by
  cases hs : (dev w p).state with
  | disabled =>
      simp only [Device.updateState, hs]
      unfold Device.updateDisabled
      split
      · refine hw.keeps ⟨by simp [dev, Device.enable_ram, Device.enter], fun h => ?_⟩
        rw [hs] at h
        cases h
      · exact hw
  | stopped => simpa only [Device.updateState, hs] using hw
  | started =>
      rcases updateState_of_started env hs with h | ⟨v, -, h⟩
      · exact hw.keeps (.of_waits h)
      · exact of_stopping (h.state.trans (by simp [dev, Device.enter]))
  | stopping =>
      simp only [Device.updateState, hs, Device.updateStopping]
      have hmsg : Waits p w (Device.sendStopMessage p w) := .sendStopMessage
      unfold Device.checkStopTimeout
      split
      · have hst : (dev (Device.setStopTimeout p 60000 (Device.sendStopMessage p w)) p).state ≠ .disabled := by
          simp only [Device.setStopTimeout, dev_setDev_self, hmsg.state, hs]
          decide
        rw [Device.kill_of_ne env hst]
        exact of_timeout (by simp [dev, Device.powerDown_ram, Device.enter, Device.setStopTimeout])
      · exact of_stopping (hmsg.state.trans hs)

/-- `STOP` の後。止まっている機器では待ち時間だけが変わる。 -/
theorem stop {t : UInt32} (ht : (dev w p).state = .stopped → 60000 ≤ t) :
    GraceOk p (Device.stop env p (Device.setStopTimeout p t w)).2 := by
  have hd : dev (Device.setStopTimeout p t w) p = { dev w p with stopTimeout := t } := by simp [Device.setStopTimeout]
  have hst : (dev (Device.setStopTimeout p t w) p).state = (dev w p).state := by rw [hd]
  cases hs : (dev w p).state with
  | stopped =>
      simp only [Device.stop, hst, hs]
      rw [Device.kill_of_ne env (by rw [hst, hs]; decide)]
      refine of_timeout ?_
      simpa [dev, Device.powerDown_ram, Device.enter, Device.setStopTimeout] using ht hs
  | stopping =>
      simp only [Device.stop, hst, hs]
      exact of_stopping (hst.trans hs)
  | started | disabled =>
      simp only [Device.stop, hst, hs]
      exact of_stopping (by simp [dev, Device.enter])

theorem enable (hw : GraceOk p w) (h : (dev w p).state = .stopping → 60000 ≤ (dev w p).stopTimeout) :
    GraceOk p (Device.enable env p w) := by
  have hk : (dev (Device.enable env p w) p).stopTimeout = (dev w p).stopTimeout := by
    simp [dev, Device.enable_ram, Device.enter]
  exact of_timeout (by rw [hk]; exact (em ((dev w p).state = .stopping)).elim h hw)

theorem step {o : Op} (hC : KeepsGrace p o w) (hall : w.ram.shouldResetAll = false)
    (hstep : V4.step env o w = some w') (hw : GraceOk p w) : GraceOk p w' := by
  cases (step_inv hstep).on hall p with
  | frame hf => exact hw.keeps (.of_frame hf)
  | update => exact (hw.keeps .sense).updateState
  | next _ _ h₁ h₂ => exact hw.keeps (((KeepsTimeout.of_frame h₁).trans .start).trans (.of_frame h₂))
  | ping _ _ _ h₁ h₂ => exact hw.keeps (((KeepsTimeout.of_frame h₁).trans .onHeartbeat).trans (.of_frame h₂))
  | stop t hr ht _ =>
      obtain ⟨hid, hv⟩ := hr
      obtain ⟨after, hv⟩ := Option.isSome_iff_exists.mp hv
      rcases step_stop hstep hid hv ht with rfl | hidle
      · exact hw
      · refine (GraceOk.stop fun hs => ?_).keeps (.of_frame (Frame.ofIdle hidle))
        by_contra hlt
        exact hC.1 ⟨⟨hid, ht⟩, by simpa [hv] using hlt⟩ hs
  | enable hr ht h₁ => exact (hw.enable fun hs => hC.2 ⟨hr, ht⟩ hs).keeps (.of_frame h₁)
  | media m _ _ _ h₁ => exact hw.keeps ((KeepsTimeout.of_waits (.setNextBootMedia m)).trans (.of_frame h₁))

theorem booted (env : Env) (h : Hardware) (p : Port) : GraceOk p (V4.booted env h) := by
  refine booted_induct (p := p) (fun w w' hf hw => hw.keeps (.of_frame hf)) h ?_ ?_
  · intro w _ _
    exact of_timeout (by rw [Device.dev_init]; exact UInt32.le_refl 60000)
  · intro w _ hs hw
    have hk : KeepsTimeout p w (Device.start env p w).2 := .start
    rw [Device.start_of_ne env (by rw [hs]; decide)] at hk
    exact hw.keeps hk

theorem run {h : Hardware} {ops : List Op} (hrun : V4.run env ops (V4.booted env h) = some w)
    (hC : Run.Meets (V4.step env) (KeepsGrace p) ops (V4.booted env h)) : GraceOk p w :=
  (run_induct_from (fun _ _ _ hc ha hs hw => step hc ha hs hw) hrun (booted_globals env h).1 hC
    (booted env h p)).2

end GraceOk

/-- 止めている途中の間、`devices[p]` への `STOP` と `ENABLE` が処理されない。 -/
def Undisturbed (env : Env) (p : Port) : List Op → World → Prop
  | [], _ => True
  | o :: os, w => (dev w p).state = .stopping →
      (¬ o.Stops p ∧ ¬ o.Enables p) ∧ ∀ w', step env o w = some w' → Undisturbed env p os w'

theorem undisturbed_of_forall {os : List Op} (h : ∀ o ∈ os, ¬ o.Stops p ∧ ¬ o.Enables p) :
    Undisturbed env p os w := by
  induction os generalizing w with
  | nil => trivial
  | cons o os ih => exact fun _ => ⟨h o (by simp), fun _ _ => ih fun o ho => h o (by simp [ho])⟩

/-- 時刻 `e` から 60 秒の間、`w` から `w'` までにポート `p` のリレーを切らない。 -/
def Spares (p : Port) (e : Nat) (w w' : World) : Prop :=
  ∃ new, w'.log = new ++ w.log ∧ ∀ x ∈ new, x.event = .relay p false → e + 60000 ≤ x.time

theorem Spares.trans {e : Nat} (h₁ : Spares p e w w') (h₂ : Spares p e w' w'') : Spares p e w w'' := by
  obtain ⟨new₁, hl₁, hn₁⟩ := h₁
  obtain ⟨new₂, hl₂, hn₂⟩ := h₂
  refine ⟨new₂ ++ new₁, by rw [hl₂, hl₁, List.append_assoc], fun x hx => ?_⟩
  rcases List.mem_append.mp hx with hx | hx
  · exact hn₂ x hx
  · exact hn₁ x hx

theorem Spares.of_waits {e : Nat} (h : Waits p w w') : Spares p e w w' := by
  obtain ⟨new, hl, -, hn⟩ := h.trail.log
  refine ⟨new, hl, fun x hx he => absurd ?_ (hn x hx).1⟩
  rw [he]
  rfl

theorem Spares.of_late {A : Event → Prop} {e : Nat} (h : Trail A w w') (hle : e + 60000 ≤ w.now) :
    Spares p e w w' := by
  obtain ⟨new, hl, -, hn⟩ := h.log
  exact ⟨new, hl, fun x hx _ => Nat.le_trans hle (hn x hx).2.1⟩

/-- 時刻 `e` に 60 秒以上の待ち時間で止め始めた機器は、邪魔されない限り、60 秒の間はリレーを切られない。 -/
theorem spares_run {e : Nat} {T : UInt32} {ops : List Op} (hw : Waiting p e T e w) (hT : 60000 ≤ T)
    (hall : w.ram.shouldResetAll = false) (hrun : run env ops w = some w') (hq : Undisturbed env p ops w) :
    Spares p e w w' := by
  induction ops generalizing w with
  | nil => cases hrun; exact .of_waits (Waits.refl _)
  | cons o ops ih =>
      obtain ⟨v, hv, hr⟩ := Run.run_cons.mp hrun
      obtain ⟨⟨hstop, hen⟩, hrest⟩ := hq hw.state
      have hall' := (step_inv hv).resetAll_eq hall
      rcases ((step_inv hv).on hall p).stopping_cases hw.state hstop hen with h | ⟨-, he, rfl⟩
      · exact (Spares.of_waits h).trans (ih (hw.waits h) hall' hr (hrest v hv))
      · -- リレーを切る `update` は、計時が何周していても、実時間で 60 秒を過ぎてから調べている
        have hmsg : Waits p w (Device.sendStopMessage p (Device.sense env p w)) :=
          (Waits.sense hw.state).trans .sendStopMessage
        have hle : e ≤ (Device.sense env p w).now :=
          Nat.le_trans hw.le_now (Device.acts_sense env w p).trail.now_le
        have hlt : T.toNat < (Device.sense env p w).now - e := by
          unfold Expired at he
          rw [hw.timer, hw.timeout] at he
          exact DurationTimer.lt_of_exceeds_reset hle he
        have hT' : 60000 ≤ T.toNat := UInt32.le_iff_toNat_le.mp hT
        have hnow : e + 60000 ≤ (expiring env p w).now := by
          have hn : (expiring env p w).now = (Device.sense env p w).now := sendStopMessage_now p _
          omega
        have hoff := (Device.acts_powerDown env (expiring env p w) p).trail
        obtain ⟨new, hl, hn⟩ : Spares p e w (Device.sendStopMessage p (Device.sense env p w)) := .of_waits hmsg
        have hpre : Spares p e w (expiring env p w) := ⟨new, hl, hn⟩
        exact (hpre.trans (.of_late hoff hnow)).trans
          (.of_late (trail_run hr hall') (Nat.le_trans hnow hoff.now_le))

/-- 待ち時間を残さない実行では、`update` が自動で止め始めてから実時間で 60 秒の間は、邪魔されない限り、リレーは
切られない。 -/
theorem automatic_stop_grace (env : Env) (h : Hardware) (p : Port) (ops ops' : List Op) (w w' v : World)
    (hrun : run env ops (booted env h) = some w)
    (hC : Run.Meets (step env) (KeepsGrace p) ops (booted env h))
    (hhalt : w.ram.halted = false) (hstart : (dev (Device.sense env p w) p).state = .started)
    (hupd : step env (.update p) w = some w') (hstop : (dev w' p).state = .stopping)
    (hrest : run env ops' w' = some v) (hq : Undisturbed env p ops' w') :
    Spares p (lastState p w'.log) w' v := by
  have hall := run_resetAll hrun
  have hstep := (step_inv hupd).on hall p
  have hsense : KeepsTimeout p w (Device.sense env p w) := .sense
  have hgrace : 60000 ≤ (dev (Device.sense env p w) p).stopTimeout :=
    (GraceOk.run hrun hC).keeps hsense (by rw [hstart]; decide)
  have heq : w' = Device.update env p w := by simpa [V4.step, hhalt] using hupd.symm
  have htime : 60000 ≤ (dev w' p).stopTimeout := by
    rcases updateState_of_started env hstart with hk | ⟨u, hu, hk⟩
    · rw [heq, Device.update_eq, hk.timeout]
      exact hgrace
    · rw [heq, Device.update_eq, hk.timeout]
      have hc : (dev (Device.changeState p .stopping u) p).stopTimeout = (dev u p).stopTimeout := by
        simp [dev, Device.enter]
      rw [hc, hu.timeout]
      exact hgrace
  have hw' : StateTimerOk p w' := (StateTimerOk.run hrun).step hstep
  exact spares_run (Waiting.ofStateTimer hw' hstop) htime ((step_inv hupd).resetAll_eq hall) hrest hq

/-- 起動してから心拍のないまま一時間が過ぎて止められるポート 0 は、60 秒の間はリレーを切られない。 -/
theorem automatic_stop_grace_silent : ∃ w w' v,
    run Env.ideal [.idle 3600001] (booted Env.ideal Hardware.ready) = some w ∧
    step Env.ideal (.update 0) w = some w' ∧ (dev w' 0).state = .stopping ∧
    run Env.ideal [.idle 60001, .update 0] w' = some v ∧ (dev v 0).state = .stopped ∧
    Spares 0 (lastState 0 w'.log) w' v := by
  have hb : ((run Env.ideal [.idle 3600001] (booted Env.ideal Hardware.ready)).any fun w =>
      decide (w.ram.halted = false ∧ (dev (Device.sense Env.ideal 0 w) 0).state = .started) &&
      (step Env.ideal (.update 0) w).any fun w' => decide ((dev w' 0).state = .stopping) &&
        (run Env.ideal [.idle 60001, .update 0] w').any fun v => decide ((dev v 0).state = .stopped)) = true := by
    decide +kernel
  simp only [Option.any_eq_true, Bool.and_eq_true, decide_eq_true_eq] at hb
  obtain ⟨w, hw, ⟨hh, hst⟩, w', hw', hs, v, hv, hsv⟩ := hb
  exact ⟨w, w', v, hw, hw', hs, hv, hsv, automatic_stop_grace Env.ideal Hardware.ready 0 _ _ w w' v hw
    (by decide +kernel) hh hst hw' hs hv (undisturbed_of_forall (by decide +kernel))⟩

/-- 止まっているポート 1 に待ち時間 0 の `STOP` を送ってから起動し、心拍のないまま一時間待つ。 -/
def staleOps : List Op :=
  [.request true 0 ⟨0xc008, 2, some 0⟩, .request true 0 ⟨0xc007, 2, none⟩, .startNext, .idle 3600001]

/-- そのポート 1 は、自動で止められた 1 ミリ秒後の `update` でリレーを切られる。 -/
theorem automatic_stop_without_grace : ∃ w w' v, run Env.ideal staleOps (booted Env.ideal Hardware.ready) = some w ∧
    w.ram.halted = false ∧ (dev (Device.sense Env.ideal 1 w) 1).state = .started ∧
    step Env.ideal (.update 1) w = some w' ∧ (dev w' 1).state = .stopping ∧
    run Env.ideal [.idle 1, .update 1] w' = some v ∧ Undisturbed Env.ideal 1 [.idle 1, .update 1] w' ∧
    ¬ Spares 1 (lastState 1 w'.log) w' v := by
  have hb : ((run Env.ideal staleOps (booted Env.ideal Hardware.ready)).any fun w =>
      decide (w.ram.halted = false ∧ (dev (Device.sense Env.ideal 1 w) 1).state = .started) &&
      (step Env.ideal (.update 1) w).any fun w' => decide ((dev w' 1).state = .stopping) &&
        (run Env.ideal [.idle 1, .update 1] w').any fun v =>
          decide (∃ x ∈ v.log.take (v.log.length - w'.log.length),
            x.event = .relay 1 false ∧ x.time < lastState 1 w'.log + 60000)) = true := by
    decide +kernel
  simp only [Option.any_eq_true, Bool.and_eq_true, decide_eq_true_eq] at hb
  obtain ⟨w, hw, ⟨hh, hst⟩, w', hw', hs, v, hv, x, hx, he, hlt⟩ := hb
  refine ⟨w, w', v, hw, hh, hst, hw', hs, hv, undisturbed_of_forall (by decide +kernel), ?_⟩
  rintro ⟨new, hl, hn⟩
  have htake : v.log.take (v.log.length - w'.log.length) = new := by
    rw [hl, List.length_append, Nat.add_sub_cancel, List.take_left]
  rw [htake] at hx
  exact absurd (hn x hx he) (Nat.not_le.mpr hlt)

end Wagman.V4
