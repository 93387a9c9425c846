import Wagman.V4.Lemmas.Setup

/-!
# 起動の順序

`startNextDevice` が要求によらずに始める起動は、それまでに `startNextDevice` が始めたどの起動からも、どの `kill` の
完了からも、実時間で 60 秒を超えて始まる。間隔は一つの計時 `startTimer` だけで測るので、計時が最後の起動か `kill` より
前を指さないことを不変条件とする。
-/

namespace Wagman.V4

open Machine

/-! ## 起動の間隔 -/

/-- 間隔を測る起点になる事象。 -/
def Event.Paces : Event → Prop
  | .next _ _ => True
  | .killed _ => True
  | _ => False

/-- 最後の事象が要求によらない起動なら、それまでのどの起点からも 60 秒を超えている。 -/
def Unhurried : Log → Prop
  | ⟨t, .next _ false⟩ :: l => ∀ x ∈ l, x.event.Paces → x.time + 60000 < t
  | _ => True

theorem unhurried_cons_of_not_paces {x : Entry Event} (h : ¬ x.event.Paces) (l : Log) :
    Unhurried (x :: l) := by
  obtain ⟨t, e⟩ := x
  cases e with
  | next i requested => exact absurd trivial h
  | _ => trivial

/-- 計時 `startTimer` は、記録にあるどの起点よりも後に始まり、自動の起動は間隔を守っている。 -/
structure Sequenced (w : World) : Prop where
  timer : ∃ s, w.ram.startTimer = DurationTimer.reset s ∧ s ≤ w.now ∧ ∀ x ∈ w.log, x.event.Paces → x.time ≤ s
  unhurried : Always Unhurried w.log

namespace Sequenced

variable {env : Env} {p : Port} {w w' : World}

theorem of_trail (h : Trail (fun e => ¬ e.Paces) w w') (ht : w'.ram.startTimer = w.ram.startTimer)
    (hw : Sequenced w) : Sequenced w' := by
  obtain ⟨⟨s, hs, hle, hlog⟩, hunhurried⟩ := hw
  refine ⟨⟨s, ht.trans hs, Nat.le_trans hle h.now_le, ?_⟩, ?_⟩
  · obtain ⟨new, hl, -, hnew⟩ := h.log
    intro x hx hpaces
    rw [hl] at hx
    rcases List.mem_append.mp hx with hx | hx
    · exact absurd hpaces (hnew x hx).1
    · exact hlog x hx hpaces
  · have hcur : Unhurried w.log := hunhurried _ (List.suffix_refl _)
    exact (h.always (K := Unhurried) (fun x l hx _ => unhurried_cons_of_not_paces hx l)
      (fun _ h => h) hcur hunhurried).2

theorem of_still (h : Still (fun e => ¬ e.Paces) w w') (hw : Sequenced w) : Sequenced w' :=
  hw.of_trail h.trail (by rw [h.ram])

/-- 計時を始め直して起点を記録する。自動の起動なら、計時が 60 秒を超えていなければならない。 -/
theorem restart {e : Event} (he : ∀ i, e = .next i false → w.ram.startTimer.exceeds w.now 60000 = true)
    (hw : Sequenced w) : Sequenced ((w.setRam { w.ram with startTimer := timerNow w }).mark e) := by
  obtain ⟨⟨s, hs, hle, hlog⟩, hunhurried⟩ := hw
  refine ⟨⟨w.now, rfl, Nat.le_refl _, ?_⟩, always_cons.mpr ⟨?_, hunhurried⟩⟩
  · intro x hx hpaces
    rcases List.mem_cons.mp hx with rfl | hx
    · exact Nat.le_refl _
    · exact Nat.le_trans (hlog x hx hpaces) hle
  · cases e with
    | next i requested =>
        cases requested with
        | true => trivial
        | false =>
            intro x hx hpaces
            have hlt := DurationTimer.lt_of_exceeds_reset hle (hs ▸ he i rfl)
            have hx' := hlog x hx hpaces
            simp only [UInt32.reduceToNat] at hlt
            simp only [setRam_now]
            omega
    | _ => trivial

theorem changeState (s : State) (hw : Sequenced w) : Sequenced (Device.changeState p s w) :=
  hw.of_trail (trail_changeState id) rfl

theorem setEnabled (b : Bool) (hw : Sequenced w) : Sequenced (Record.setDeviceEnabled env p b w) :=
  hw.of_still (still_write id)

theorem powerDown (hw : Sequenced w) : Sequenced (Device.powerDown env p w) := by
  have hdrive : Sequenced (Device.driveRelay env p relayTurningOff false relayOff w) :=
    hw.of_still (still_driveRelay id (fun _ => id) (fun _ => id) (fun _ => id))
  exact (hdrive.changeState .stopped).restart fun _ h => by cases h

theorem powerUp (hw : Sequenced w) : Sequenced (Device.powerUp env p w) := by
  have hsel : Sequenced (Device.selectMedia env p w) :=
    hw.of_trail (trail_selectMedia (fun _ => id) fun _ _ => id) (by rw [Device.selectMedia_ram]; rfl)
  have hboot : Sequenced (Device.recordBoot env p (Device.selectMedia env p w)) :=
    hsel.of_still (still_recordBoot fun _ _ _ => id)
  exact (hboot.of_still (still_driveRelay id (fun _ => id) (fun _ => id) (fun _ => id))).changeState .started

theorem setNextBootMedia (m : Media) (hw : Sequenced w) :
    Sequenced (Device.setNextBootMedia env p m w) := by
  refine hw.of_trail (trail_setNextBootMedia id fun _ _ => id) ?_
  simp [Device.setNextBootMedia, Ram.setDevice]

theorem tick (h : Tick w w') (hw : Sequenced w) : Sequenced w' := by
  refine hw.of_trail (h.trail.mono fun e he => ?_) h.startTimer
  cases e with
  | next i r => exact he.elim
  | killed i => exact he.elim
  | _ => exact id

theorem prim (h : Prim env p Tick w w') (hw : Sequenced w) : Sequenced w' := by
  cases h with
  | frame ht => exact hw.tick ht
  | tweak d _ => exact hw.of_trail (trail_setDev p d) rfl
  | beat => exact hw.of_trail ((trail_setDev p _).mark id) rfl
  | refuse _ _ => exact (hw.setEnabled false).changeState .disabled
  | halt _ => exact hw.changeState .stopping
  | revive _ _ => exact (hw.setEnabled true).changeState .stopped
  | off _ => exact hw.powerDown
  | on _ => exact hw.powerUp
  | fail _ => exact hw.of_still (still_put (fun _ _ _ _ => id) _)
  | media m => exact hw.setNextBootMedia m

theorem startNextDevice (hw : Sequenced w) : Sequenced (V4.startNextDevice env w) := by
  have hstart : ∀ i requested, Sequenced (beginStart i requested w) →
      Sequenced (Device.start env i (beginStart i requested w)).2 := fun i _ hb =>
    prim_start (fun _ _ hp hv => hv.prim hp) hb
  rcases startNextDevice_inv env w with h | ⟨i, -, -, h⟩ | ⟨i, -, hexceeds, -, h⟩
  · rw [h]
    exact hw
  · rw [h]
    refine (hstart i true (hw.restart fun _ hi => by cases hi)).of_trail ((Trail.refl _).setRam _) rfl
  · rw [h]
    exact hstart i false (hw.restart fun _ _ => hexceeds)

theorem step {o : Op} (h : Step env o w w') (hall : w.ram.shouldResetAll = false) (hw : Sequenced w) :
    Sequenced w' := by
  have hprim : ∀ i v v', Prim env i Tick v v' → Sequenced v → Sequenced v' :=
    fun _ _ _ hp hv => hv.prim hp
  cases h with
  | tick ht => exact hw.tick ht
  | update i =>
      exact prim_updateState (hprim i) (prim_sense (hprim i) (fun _ _ _ _ hb => hb.changeState .started) hw)
  | next _ => exact hw.startNextDevice
  | ping i _ _ _ h₁ h₂ =>
      exact (prim_onHeartbeat (hprim i) (fun _ hb => hb.changeState .started) (hw.tick h₁.tick)).tick h₂.tick
  | start i _ _ h₁ =>
      have hset : Sequenced (w.setRam { w.ram with deviceWantsStart := UInt8.ofNat i.val }) :=
        hw.of_trail ((Trail.refl w).setRam _) rfl
      exact hset.tick h₁.tick
  | stop i t _ _ h₁ => exact (prim_stop (hprim i) (prim_setStopTimeout (hprim i) t hw)).tick h₁.tick
  | enable i _ _ h₁ => exact ((hw.setEnabled true).changeState .stopped).tick h₁.tick
  | media i m _ _ _ h₁ => exact (hw.setNextBootMedia m).tick h₁.tick
  | eereset _ h₁ => exact (hw.of_still (still_put (fun _ _ _ _ => id) _)).tick h₁.tick
  | reset _ => exact hw.of_trail (((Trail.refl w).setRam _).emit _ id) rfl
  | resetAll h => rw [hall] at h; cases h

theorem arm (hlog : ∀ x ∈ w.log, ¬ x.event.Paces) : Sequenced (V4.arm env w) := by
  refine ⟨⟨w.now, rfl, ?_, fun x hx hpaces => absurd hpaces (hlog x hx)⟩, ?_⟩
  · exact Nat.le_add_right _ _
  · intro l hl
    cases l with
    | nil => trivial
    | cons x l => exact unhurried_cons_of_not_paces (hlog x (hl.subset (by simp))) l

theorem booted (env : Env) (h : Hardware) : Sequenced (V4.booted env h) := by
  have hquiet : ∀ e, Event.Preparing e → ¬ e.Paces := by
    intro e he
    cases e with
    | next i r => exact he.elim
    | killed i => exact he.elim
    | _ => exact id
  rw [booted_eq_powerUp]
  exact (arm ((trail_setup env h).forall_log hquiet (by simp [powerOn]))).powerUp

theorem run {ops : List Op} {h : Hardware} (hrun : V4.run env ops (V4.booted env h) = some w) :
    w.ram.shouldResetAll = false ∧ Sequenced w :=
  run_induct (C := fun _ _ => True) (fun _ _ _ _ hall hs hw => hw.step hs hall) hrun
    (Run.Meets.of_forall (fun _ _ => trivial) _) (Sequenced.booted env h)

end Sequenced

/-! ## 起動の回数 -/

/-- 起動に関わる事象。 -/
def Event.PowersUp : Event → Prop
  | .next _ _ => True
  | .start _ _ => True
  | .relay _ mode => mode = true
  | _ => False

theorem Event.Quiet.not_powersUp {e : Event} (h : e.Quiet) : ¬ e.PowersUp := by
  cases e with
  | pin k b => exact id
  | resp c sub v => exact id
  | respBytes c sub v => exact id
  | _ => exact h.elim

theorem Acts.not_powersUp {F : Footprint} {w w' : World} (h : Acts F w w') (hon : ¬ F.on) :
    Trail (fun e => ¬ e.PowersUp) w w' := by
  refine h.trail.mono fun e he => ?_
  cases e with
  | next i r => exact he.elim
  | start i m => exact absurd he.2 hon
  | relay i mode => exact fun hm => hon (he.2 hm)
  | _ => exact id

/-- リセットを決めていない `startNextDevice` のほかには、起動に関わる事象を起こす操作はない。 -/
theorem Step.not_powersUp {env : Env} {o : Op} {w w' : World} (h : Step env o w w')
    (ho : o = .startNext → w.ram.shouldResetSystem = true) (hall : w.ram.shouldResetAll = false) :
    Trail (fun e => ¬ e.PowersUp) w w' := by
  have hidle : ∀ {v v'}, Idle v v' → Trail (fun e => ¬ e.PowersUp) v v' := fun hi =>
    hi.trail.mono fun _ he => Event.Quiet.not_powersUp he
  cases h with
  | tick ht => exact ht.trail.mono fun _ he => Event.Quiet.not_powersUp he
  | update i => exact (Device.acts_update env w i).not_powersUp id
  | next hs => rw [ho rfl] at hs; cases hs
  | ping i _ _ _ h₁ h₂ =>
      exact ((hidle h₁).trans ((Device.acts_onHeartbeat env _ i).not_powersUp id)).trans (hidle h₂)
  | start i _ _ h₁ => exact ((Trail.refl w).setRam _).trans (hidle h₁)
  | stop i t _ _ h₁ =>
      have hacts := (Device.acts_setStopTimeout w i t).trans (Device.acts_stop env _ i)
      exact (hacts.not_powersUp id).trans (hidle h₁)
  | enable i _ _ h₁ => exact ((Device.acts_enable env w i).not_powersUp id).trans (hidle h₁)
  | media i m _ _ _ h₁ => exact ((Device.acts_setNextBootMedia env w i m).not_powersUp id).trans (hidle h₁)
  | eereset _ h₁ => exact (still_put (fun _ _ _ _ => id) _).trail.trans (hidle h₁)
  | reset _ => exact ((Trail.refl w).setRam _).emit _ id
  | resetAll h => rw [hall] at h; cases h

/-- 受け付けられた `start()` の回数。 -/
def powerUps (log : Log) : Nat := log.countP fun x => match x.event with
  | .start _ _ => true
  | _ => false

theorem powerUps_eq {w w' : World} (h : Trail (fun e => ∀ i m, e ≠ .start i m) w w') :
    powerUps w'.log = powerUps w.log := by
  refine h.log_eq fun x l hx => ?_
  obtain ⟨t, e⟩ := x
  cases e with
  | start i m => exact absurd rfl (hx i m)
  | _ => simp [powerUps]

theorem powerUps_eq_of_not_powersUp {w w' : World} (h : Trail (fun e => ¬ e.PowersUp) w w') :
    powerUps w'.log = powerUps w.log := by
  refine powerUps_eq (h.mono fun e he i m hi => ?_)
  subst hi
  exact he trivial

theorem powerUps_powerUp (env : Env) (i : Port) (w : World) :
    powerUps (Device.powerUp env i w).log = powerUps w.log + 1 := by
  have hafter :
      Trail (fun e => ∀ i m, e ≠ .start i m) (Device.selectMedia env i w) (Device.powerUp env i w) :=
    trail_afterSelect (by simp) (by simp) (by simp) (by simp)
  rw [powerUps_eq hafter]
  have hmedia : ∀ (v : World) (m n : Media) (s : Nat),
      powerUps (setBootMedia env s n (v.mark (.start i m))).log = powerUps v.log + 1 := by
    intro v m n s
    rw [powerUps_eq (still_setBootMedia (by simp)).trail]
    simp [powerUps]
  exact hmedia _ _ _ _

theorem powerUps_startNextDevice (env : Env) (w : World) :
    powerUps (startNextDevice env w).log ≤ powerUps w.log + 1 := by
  have hstart : ∀ i requested,
      powerUps (Device.start env i (beginStart i requested w)).2.log ≤ powerUps w.log + 1 := by
    intro i requested
    have hbegin :
        powerUps (beginStart i requested w).log = powerUps w.log := by simp [powerUps, beginStart]
    by_cases hs : (dev (beginStart i requested w) i).state = .stopping
    · rw [Device.start_of_stopping env hs, hbegin]
      exact Nat.le_succ _
    · rw [Device.start_of_ne env hs]
      exact Nat.le_of_eq ((powerUps_powerUp env i _).trans (by rw [hbegin]))
  rcases startNextDevice_inv env w with h | ⟨i, -, -, h⟩ | ⟨i, -, -, -, h⟩
  · rw [h]
    exact Nat.le_succ _
  · rw [h]
    exact hstart i true
  · rw [h]
    exact hstart i false

/-- `loop` の中の操作。時間の経過とタイマー割り込みは、その間のどこにでも入る。 -/
def Op.inLoop : Op → Bool
  | .idle _ | .pinHB _ => false
  | _ => true

def Op.startsNext : Op → Bool
  | .startNext => true
  | _ => false

/-- 操作の並び `ops` は、入力 `inp` についての一回の `loop` である。 -/
def Pass (inp : PassInput) (ops : List Op) : Prop := ops.filter Op.inLoop = loopOps inp

theorem countP_startsNext_processCommands (isadmin : Bool) (port : Int) (lines : List (List Request)) :
    (processCommands isadmin port lines).countP Op.startsNext = 0 := by
  rw [processCommands, List.countP_map, List.countP_eq_zero]
  exact fun _ _ => Bool.false_ne_true

theorem countP_startsNext_loopOps (inp : PassInput) : (loopOps inp).countP Op.startsNext = 1 := by
  simp only [loopOps, List.countP_append, countP_startsNext_processCommands]
  rfl

theorem Pass.countP_startsNext {inp : PassInput} {ops : List Op} (h : Pass inp ops) :
    ops.countP Op.startsNext = 1 := by
  have hloop : ∀ o, (Op.startsNext o && Op.inLoop o) = Op.startsNext o := by
    intro o
    cases o <;> rfl
  rw [← countP_startsNext_loopOps inp, ← h, List.countP_filter]
  simp only [hloop]

theorem powerUps_step {env : Env} {o : Op} {w w' : World} (h : Step env o w w')
    (hall : w.ram.shouldResetAll = false) :
    powerUps w'.log ≤ powerUps w.log + [o].countP Op.startsNext := by
  by_cases ho : o = .startNext
  · subst ho
    cases h with
    | tick ht =>
        rw [powerUps_eq_of_not_powersUp (ht.trail.mono fun _ he => Event.Quiet.not_powersUp he)]
        exact Nat.le_add_right _ _
    | next _ => exact powerUps_startNextDevice env w
  · rw [powerUps_eq_of_not_powersUp (h.not_powersUp (fun hs => absurd hs ho) hall)]
    exact Nat.le_add_right _ _

theorem powerUps_run {env : Env} {ops : List Op} {w w' : World} (hrun : run env ops w = some w')
    (hall : w.ram.shouldResetAll = false) :
    powerUps w'.log ≤ powerUps w.log + ops.countP Op.startsNext := by
  induction ops generalizing w with
  | nil => cases hrun; exact Nat.le_refl _
  | cons o ops ih =>
      obtain ⟨v, hv, hr⟩ := Run.run_cons.mp hrun
      have hstep := step_inv hv
      have h₁ := powerUps_step hstep hall
      have h₂ := ih hr (hstep.resetAll_eq hall)
      have hcount :
          (o :: ops).countP Op.startsNext = [o].countP Op.startsNext + ops.countP Op.startsNext := by
        rw [← List.countP_append, List.singleton_append]
      omega

/-! ## リセットの要求の後 -/

theorem run_of_halted {env : Env} {w : World} (h : w.ram.halted = true) (ops : List Op) :
    run env ops w = some w := by
  induction ops with
  | nil => rfl
  | cons o ops ih => exact Run.run_cons.mpr ⟨w, by simp [step, h], ih⟩

theorem Step.resetSystem_mono {env : Env} {o : Op} {w w' : World} (h : Step env o w w')
    (hall : w.ram.shouldResetAll = false) (h₀ : w.ram.shouldResetSystem = true) :
    w'.ram.shouldResetSystem = true := by
  cases h with
  | tick ht => rw [ht.resetSystem, h₀]
  | update i => rw [(Device.acts_update env w i).resetSystem_eq, h₀]
  | next hs => rw [h₀] at hs; cases hs
  | ping i _ _ _ h₁ h₂ => rw [h₂.ram, (Device.acts_onHeartbeat env _ i).resetSystem_eq, h₁.ram, h₀]
  | start i _ _ h₁ => rw [h₁.ram]; exact h₀
  | stop i t _ _ h₁ => rw [h₁.ram, (Device.acts_stop env _ i).resetSystem_eq]; exact h₀
  | enable i _ _ h₁ => rw [h₁.ram, (Device.acts_enable env w i).resetSystem_eq, h₀]
  | media i m _ _ _ h₁ => rw [h₁.ram, (Device.acts_setNextBootMedia env w i m).resetSystem_eq, h₀]
  | eereset _ h₁ => rw [h₁.ram]; simpa [Record.clearMagic] using h₀
  | reset _ => rfl
  | resetAll h => rw [hall] at h; cases h

theorem trail_of_resetSystem {env : Env} {ops : List Op} {w w' : World} (hrun : run env ops w = some w')
    (hall : w.ram.shouldResetAll = false) (hreset : w.ram.shouldResetSystem = true) :
    Trail (fun e => ¬ e.PowersUp) w w' := by
  induction ops generalizing w with
  | nil => cases hrun; exact Trail.refl _
  | cons o ops ih =>
      obtain ⟨v, hv, hr⟩ := Run.run_cons.mp hrun
      have hstep := step_inv hv
      exact (hstep.not_powersUp (fun _ => hreset) hall).trans
        (ih hr (hstep.resetAll_eq hall) (hstep.resetSystem_mono hall hreset))

theorem trail_of_reset {env : Env} {ops : List Op} {w w₁ w₂ : World} {port : Int} {r : Request}
    (hr : Req.ofId r.id = some .reset) (hstep : step env (.request true port r) w = some w₁)
    (hall : w.ram.shouldResetAll = false) (hrun : run env ops w₁ = some w₂) :
    Trail (fun e => ¬ e.PowersUp) w₁ w₂ := by
  cases hh : w.ram.halted with
  | true =>
      rw [step, if_pos hh] at hstep
      cases hstep
      rw [run_of_halted hh] at hrun
      cases hrun
      exact Trail.refl _
  | false =>
      have hw₁ : w₁ = commandReset env w := by
        simpa [step, hh, dispatch, hr] using hstep.symm
      subst hw₁
      exact trail_of_resetSystem hrun hall rfl

/-- 自動の起動は、それまでの起動と `kill` から 60 秒を超えて始まる。一回の `loop` で起動する機器は高々一つである。
リセットの要求の後は、リレーを入れない。 -/
theorem power_ups_sequenced {env : Env} {h : Hardware} {ops : List Op} {w : World}
    (hrun : run env ops (booted env h) = some w) :
    (∀ t i l, ⟨t, .next i false⟩ :: l <:+ w.log → ∀ x ∈ l, x.event.Paces → x.time + 60000 < t) ∧
    (∀ inp pass w', Pass inp pass → run env pass w = some w' → powerUps w'.log ≤ powerUps w.log + 1) ∧
    (∀ port r later w₁ w₂, Req.ofId r.id = some .reset → step env (.request true port r) w = some w₁ →
      run env later w₁ = some w₂ →
      ∃ new, w₂.log = new ++ w₁.log ∧ ∀ x ∈ new, ∀ p, x.event ≠ .relay p true) := by
  obtain ⟨hall, hseq⟩ := Sequenced.run hrun
  refine ⟨fun t i l hl => hseq.unhurried _ hl, ?_, ?_⟩
  · intro inp pass w' hpass hrun'
    have hcount := powerUps_run hrun' hall
    rwa [hpass.countP_startsNext] at hcount
  · intro port r later w₁ w₂ hr hstep hlater
    obtain ⟨new, hlog, -, hnew⟩ := (trail_of_reset hr hstep hall hlater).log
    refine ⟨new, hlog, fun x hx p hp => (hnew x hx).1 ?_⟩
    rw [hp]
    exact rfl

/-- 起動の要求の後、60 秒を超えて待つと、ポート 1 の機器が自動で起動する。 -/
theorem power_ups_sequenced_automatic : ∃ w,
    run Env.ideal [.startNext, .idle 60001, .startNext] (booted Env.ideal Hardware.ready) = some w ∧
      (∃ x ∈ w.log, x.event = .next 1 false) ∧
      ∀ t i l, ⟨t, .next i false⟩ :: l <:+ w.log → ∀ x ∈ l, x.event.Paces → x.time + 60000 < t := by
  have hb :
      ((run Env.ideal [.startNext, .idle 60001, .startNext] (booted Env.ideal Hardware.ready)).any fun w =>
      decide (∃ x ∈ w.log, x.event = .next 1 false)) = true := by decide +kernel
  obtain ⟨w, hw, hx⟩ := (Option.any_eq_true _ _).mp hb
  exact ⟨w, hw, of_decide_eq_true hx, (power_ups_sequenced hw).1⟩

end Wagman.V4
