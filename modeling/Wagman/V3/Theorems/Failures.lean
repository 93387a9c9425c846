import Wagman.V3.Lemmas.Recovery

/-!
# 失敗の回数と心拍の途絶

失敗の回数を増やすのは `updateStarting` と `checkHeartbeat` だけである。どの操作も機器を `STARTING` にしないので、前者は
実行されない。後者は、機器を `STARTED` から `STOPPING` にするときに、ちょうど一回だけ数える。
-/

namespace Wagman.V3

open Machine

variable {env : Env} {p i : Port} {w w' : World}

/-! ## 失敗の回数を変えない操作 -/

/-- 機器 `p` の失敗の回数に書かない事象。 -/
def Event.Keeps (p : Port) (e : Event) : Prop :=
  ∀ o v, o = 11 ∨ o = 12 → e ≠ .eeprom (Record.deviceRegion p + o) v

theorem keeps_of_not_about {e : Event} (h : ¬ e.About p) : e.Keeps p := by
  rintro o v ho rfl
  exact h ⟨o, by omega, rfl⟩

theorem keeps_eeprom {o : Nat} (ho : o < 128) (h₁ : o ≠ 11) (h₂ : o ≠ 12) (v : UInt8) :
    Event.Keeps p (.eeprom (Record.deviceRegion i + o) v) := by
  intro o' v' ho' heq
  injection heq with haddr
  obtain ⟨-, rfl⟩ := deviceRegion_add_inj ho (by omega) haddr
  omega

theorem failures_congr {m m' : Nat → UInt8}
    (h : ∀ o, o = 11 ∨ o = 12 → m' (Record.deviceRegion p + o) = m (Record.deviceRegion p + o)) :
    Record.getBootFailures m' p = Record.getBootFailures m p := by
  simp only [Record.getBootFailures, Record.portBootFailures]
  congr 1
  refine Bytes.get_congr fun b h₁ h₂ => ?_
  obtain ⟨o, rfl⟩ := Nat.exists_eq_add_of_le (Nat.le_trans (Nat.le_add_right _ _) h₁)
  exact h o (by omega)

theorem failures_of_trail (h : Trail (Event.Keeps p) w w') :
    Record.getBootFailures w'.hw.eeprom p = Record.getBootFailures w.hw.eeprom p :=
  failures_congr fun o ho => trail_eeprom h fun v hv => hv o v ho rfl

theorem failures_of_frame (h : Frame p w w') :
    Record.getBootFailures w'.hw.eeprom p = Record.getBootFailures w.hw.eeprom p :=
  failures_of_trail (h.trail.mono fun _ he => keeps_of_not_about he)

theorem recovers_keeps (p i : Port) : Recovers (Event.Keeps p) i where
  relay _ := fun _ _ _ => nofun
  state _ := fun _ _ _ => nofun
  pin _ _ := fun _ _ _ => nofun
  journal v := keeps_eeprom (by simp) (by simp) (by simp) v

theorem Act.keeps (h : Act env i w w') : Trail (Event.Keeps p) w w' := by
  have hrec := recovers_keeps p i
  have hpins : ∀ k b, Event.Keeps p (.pin k b) := hrec.pin
  have hstate : ∀ (s : State) (v : World), Trail (Event.Keeps p) v (Device.changeState i s v) := fun s v =>
    (trail_setDev i _).mark (hrec.state s)
  have henabled : ∀ v, Event.Keeps p (.eeprom (Record.deviceRegion i + Record.portEnabled) v) :=
    keeps_eeprom (by simp) (by simp) (by simp)
  cases h with
  | quiet hq => exact hq.trail.mono fun _ he => keeps_of_not_about (he p)
  | tweak d _ => exact trail_setDev i d
  | beat => exact (trail_setDev i _).mark (by simp [Event.Keeps])
  | media m => exact (trail_setDev i _).trans (still_setBootMedia hpins).trail
  | wake _ => exact hstate .started w
  | halt _ => exact hstate .stopping w
  | on _ =>
      have hselect : Trail (Event.Keeps p) w (Device.selectMedia env i w) :=
        ((trail_setDev i _).trans (trail_setDev i _)).trans (still_setBootMedia hpins).trail
      have hrecord : ∀ v : World, Still (Event.Keeps p) v (Device.recordBoot env i v) := fun v =>
        still_recordBoot fun o b ho => keeps_eeprom (by omega) (by omega) (by omega) b
      have hdrive : ∀ v : World, Still (Event.Keeps p) v (Device.driveRelay env i relayTurningOn true relayOn v) :=
        fun v => still_driveRelay (hrec.relay true) hpins hrec.journal
      exact (hselect.trans ((hrecord _).trans (hdrive _)).trail).trans (hstate .started _)
  | off hs =>
      have hkill : Trail (Event.Keeps p) w (Device.kill env i w).2 := hrec.kill
      simpa only [Device.kill, hs, if_false] using hkill
  | enable =>
      have hmark : Trail (Event.Keeps p) w (w.mark (.enable i)) := (Trail.refl w).mark (by simp [Event.Keeps])
      exact (hmark.trans (still_write (henabled _)).trail).trans (hstate .stopped _)
  | disable => exact hrec.disable henabled

/-! ## `STARTING` にならない -/

theorem state_disable (hs : (dev w p).state ≠ .starting) : (dev (Device.disable env p w) p).state ≠ .starting := by
  have hkill : (dev (Device.kill env p w).2 p).state ≠ .starting := by
    unfold Device.kill
    split
    · exact hs
    · rw [state_powerDown]
      exact nofun
  by_cases hp : p = 0
  · subst hp
    rwa [disable_zero]
  · rw [disable_of_ne_zero hp, dev_changeState]
    exact nofun

/-- どの基本の操作も、機器を `STARTING` にしない。 -/
theorem Prim.state_ne_starting (h : Prim env p w w') (hs : (dev w p).state ≠ .starting) :
    (dev w' p).state ≠ .starting := by
  cases h with
  | quiet hq => rwa [(hq.frame p).dev]
  | tweak d hd => rwa [dev_setDev_self, hd]
  | beat => rwa [dev_beat]
  | record hr => rwa [dev_still hr p]
  | media m =>
      simp only [Device.setNextBootMedia]
      rwa [dev_still (still_setBootMedia (A := fun _ => True) fun _ _ => trivial), dev_setDev_self]
  | wake _ =>
      rw [dev_changeState]
      exact nofun
  | halt _ =>
      rw [dev_changeState]
      exact nofun
  | on _ =>
      rw [Device.powerUp, dev_changeState]
      exact nofun
  | off _ =>
      rw [state_powerDown]
      exact nofun
  | enable =>
      rw [Device.enable, dev_changeState]
      exact nofun
  | disable => exact state_disable hs

theorem booted_ne_starting (env : Env) (h : Hardware) (p : Port) : (dev (booted env h) p).state ≠ .starting := by
  refine booted_induct (p := p) (Q := fun _ => True) (P := fun v => (dev v p).state ≠ .starting) h trivial
    (fun _ _ _ _ => trivial) (fun _ _ _ _ => trivial) ?_ ?_ (fun _ _ hprim hs => hprim.state_ne_starting hs)
  · intro v _
    rw [Device.init_eq, dev_changeState]
    simp only [Device.enter, initialState]
    split
    · simp
    · simp
  · intro v v' hf hs
    rwa [hf.dev]

theorem run_ne_starting (ops : List Op) (h : (dev w p).state ≠ .starting) :
    (dev (run env ops w) p).state ≠ .starting :=
  run_induct (P := fun v => (dev v p).state ≠ .starting)
    (Prim.induct_on (fun _ _ hf hs => by rwa [hf.dev]) fun _ _ hprim hs => hprim.state_ne_starting hs) ops h

/-! ## 心拍の途絶 -/

/-- `update` のうち、状態を調べる前の部分。 -/
def sense (env : Env) (p : Port) (w : World) : World := Device.updateFault env p (Device.updateHeartbeat env p w)

/-- 見張られている起動中の機器の心拍が、3600000 ミリ秒を超えて途絶えている。 -/
def Expired (p : Port) (w : World) : Prop :=
  (dev w p).state = .started ∧ (dev w p).managed = true ∧ (dev w p).watchHeartbeat = true ∧
    (dev w p).heartbeatTimer.exceeds w.now 3600000 = true

instance : Decidable (Expired p w) := inferInstanceAs (Decidable (_ ∧ _ ∧ _ ∧ _))

/-- 次の一歩で、機器 `p` が心拍の途絶のために `STARTED` でなくなる。 -/
def TimesOut (env : Env) (p : Port) : Op → World → Prop
  | .update i, w => i = p ∧ w.ram.halted = false ∧ Expired p (sense env p w)
  | _, _ => False

instance (env : Env) (p : Port) (o : Op) (w : World) : Decidable (TimesOut env p o w) :=
  match o with
  | .update _ => inferInstanceAs (Decidable (_ ∧ _ ∧ _))
  | .idle _ | .timer1 _ | .startNext | .line _ _ | .status | .reset | .leds => inferInstanceAs (Decidable False)

/-- 実行の中で、機器 `p` の心拍の途絶が起きた回数。 -/
def timeouts (env : Env) (p : Port) : List Op → World → Nat
  | [], _ => 0
  | o :: ops, w => (if TimesOut env p o w then 1 else 0) + timeouts env p ops (step env o w)

theorem still_incrementBootFailures : Still (fun _ => True) w (Record.incrementBootFailures env p w) :=
  still_put (fun _ _ _ _ => trivial) _

theorem failures_increment : Record.getBootFailures (Record.incrementBootFailures env p w).hw.eeprom p =
    Record.getBootFailures w.hw.eeprom p + 1 := by
  have hput : ∀ a n : Nat, (EEPROM.put env a 2 n w).hw.eeprom = Bytes.put Bytes.store a 2 n w.hw.eeprom := fun a n =>
    Bytes.read_put (fun w : World => w.hw.eeprom) (fun _ _ _ => rfl) a 2 n w
  have hself : ∀ n : UInt16, UInt16.ofNat (n.toNat % 256 ^ 2) = n := by
    intro n
    have hlt : n.toNat < 256 ^ 2 := n.toNat_lt
    rw [Nat.mod_eq_of_lt hlt, UInt16.ofNat_toNat]
  rw [Record.incrementBootFailures, Record.setBootFailures, hput]
  exact (congrArg UInt16.ofNat (Bytes.get_put_self _ 2 _ _)).trans (hself _)

theorem keeps_checkCurrent : Trail (Event.Keeps p) w (Device.checkCurrent i w) := by
  unfold Device.checkCurrent
  split
  · exact trail_setDev i _
  · exact Trail.refl w

theorem state_checkCurrent : (dev (Device.checkCurrent p w) p).state = (dev w p).state := by
  unfold Device.checkCurrent
  split
  · rw [dev_setDev_self]
  · rfl

/-- 心拍が途絶えていれば、失敗を一回だけ数えて `STOPPING` にする。 -/
theorem updateState_of_expired (h : Expired p w) : (dev (Device.updateState env p w) p).state = .stopping ∧
    Record.getBootFailures (Device.updateState env p w).hw.eeprom p = Record.getBootFailures w.hw.eeprom p + 1 := by
  obtain ⟨hs, hm, hwatch, hex⟩ := h
  have hsame : dev (Record.incrementBootFailures env p w) p = dev w p := dev_still still_incrementBootFailures p
  have heq : Device.updateState env p w =
      Device.checkCurrent p (Device.changeState p .stopping (Record.incrementBootFailures env p w)) := by
    simp [Device.updateState, hs, Device.updateStarted, hm, Device.updateStartedManaged, Device.checkHeartbeat,
      hwatch, Device.heartbeatTimeout, hex, Device.stop, hsame]
  have hmove : Trail (Event.Keeps p) (Record.incrementBootFailures env p w)
      (Device.changeState p .stopping (Record.incrementBootFailures env p w)) :=
    (trail_setDev p _).mark ((recovers_keeps p p).state .stopping)
  rw [heq, state_checkCurrent, dev_changeState, failures_of_trail (hmove.trans keeps_checkCurrent)]
  exact ⟨rfl, failures_increment⟩

/-- 途絶えていなければ、失敗の回数に書かない。 -/
theorem updateState_of_not_expired (hs : (dev w p).state ≠ .starting) (h : ¬ Expired p w) :
    Trail (Event.Keeps p) w (Device.updateState env p w) := by
  have hact : ∀ v v', Act env p v v' → Trail (Event.Keeps p) w v → Trail (Event.Keeps p) w v' := fun _ _ ha hv =>
    hv.trans ha.keeps
  have hrefl : Trail (Event.Keeps p) w w := Trail.refl w
  cases hst : (dev w p).state with
  | disabled =>
      simp only [Device.updateState, hst, Device.updateDisabled]
      split
      · exact hact _ _ .enable hrefl
      · exact hrefl
  | stopped =>
      simp only [Device.updateState, hst]
      exact hrefl
  | starting => exact absurd hst hs
  | started =>
      simp only [Device.updateState, hst, Device.updateStarted]
      split
      · rename_i hm
        have hquiet : Device.checkHeartbeat env p w = w := by
          refine if_neg fun hc => h ⟨hst, hm, ?_⟩
          simpa [Device.heartbeatTimeout] using hc
        rw [Device.updateStartedManaged, hquiet]
        exact keeps_checkCurrent
      · simp only [Device.updateStartedUnmanaged]
        split
        · exact act_stop hact (hact _ _ (.media _) (act_ioRead hact hrefl))
        · exact hrefl
  | stopping =>
      simp only [Device.updateState, hst]
      exact act_updateStopping hact hrefl

theorem act_sense {P : World → Prop} (hP : ∀ v v', Act env p v v' → P v → P v') (h : P w) : P (sense env p w) :=
  act_updateFault hP (act_updateHeartbeat hP h)

theorem failures_sense : Record.getBootFailures (sense env p w).hw.eeprom p = Record.getBootFailures w.hw.eeprom p :=
  failures_of_trail (act_sense (P := fun v => Trail (Event.Keeps p) w v) (fun _ _ ha hv => hv.trans ha.keeps)
    (Trail.refl w))

theorem sense_ne_starting (hs : (dev w p).state ≠ .starting) : (dev (sense env p w) p).state ≠ .starting :=
  act_sense (P := fun v => (dev v p).state ≠ .starting) (fun _ _ ha h => ha.prim.state_ne_starting h) hs

theorem dev_updateFault (env : Env) (p : Port) (w : World) :
    (∃ level t, dev (Device.updateFault env p w) p = { dev w p with currentLevel := level, currentLevelTimer := t }) ∧
    (Device.updateFault env p w).now = w.now + env.latency w.io := by
  simp only [Device.updateFault]
  split
  · exact ⟨⟨_, _, rfl⟩, rfl⟩
  · split
    · exact ⟨⟨_, _, dev_setDev_self _ _ _⟩, rfl⟩
    · exact ⟨⟨_, _, rfl⟩, rfl⟩

theorem state_disable_of_disabled (hs : (dev w p).state = .disabled) :
    (dev (Device.disable env p w) p).state = .disabled := by
  by_cases hp : p = 0
  · subst hp
    simp [disable_zero, Device.kill, hs]
  · rw [disable_of_ne_zero hp, dev_changeState]
    rfl

/-- 途絶えることのある機器。状態を調べるときに `STARTED` で、見張られている。この一歩の心拍で起きた機器なら、電流を読むのに制限を
超える時間がかかった。 -/
structure Liable (env : Env) (p : Port) (w : World) : Prop where
  managed : (dev w p).managed = true
  watchHeartbeat : (dev w p).watchHeartbeat = true
  state : (dev (sense env p w) p).state = .started
  woken : (dev w p).state ≠ .started →
    (dev w p).state = .stopped ∧ 8 ≤ w.ram.heartbeatCounters p ∧ 3600000 < env.latency w.io

theorem liable_onHeartbeat (hs : (dev w p).state ≠ .starting)
    (h : (dev (Device.onHeartbeat env p w) p).state = .started) :
    (dev (Device.onHeartbeat env p w) p).managed = (dev w p).managed ∧
    (dev (Device.onHeartbeat env p w) p).watchHeartbeat = (dev w p).watchHeartbeat ∧
    ((dev w p).state = .started ∨ (dev w p).state = .stopped ∧
      (dev (Device.onHeartbeat env p w) p).heartbeatTimer = timerNow w ∧
      (Device.onHeartbeat env p w).now = w.now ∧ (Device.onHeartbeat env p w).io = w.io) := by
  have hst : (dev (Device.beat p w) p).state = (dev w p).state := by simp
  cases hw : (dev w p).state with
  | disabled =>
      simp only [Device.onHeartbeat, hst, hw] at h
      rw [state_disable_of_disabled (hst.trans hw)] at h
      cases h
  | stopped =>
      have heq : Device.onHeartbeat env p w = Device.changeState p .started (Device.beat p w) := by
        simp only [Device.onHeartbeat, hst, hw]
      rw [heq, dev_changeState, dev_beat]
      exact ⟨rfl, rfl, Or.inr ⟨rfl, rfl, rfl, rfl⟩⟩
  | starting => exact absurd hw hs
  | started =>
      have heq : Device.onHeartbeat env p w = Device.beat p w := by simp only [Device.onHeartbeat, hst, hw]
      rw [heq, dev_beat]
      exact ⟨rfl, rfl, Or.inl rfl⟩
  | stopping =>
      simp only [Device.onHeartbeat, hst, hw] at h
      cases h

theorem updateHeartbeat_cases (env : Env) (p : Port) (w : World) : Device.updateHeartbeat env p w = w ∨
    8 ≤ w.ram.heartbeatCounters p ∧ ∃ u, dev u p = dev w p ∧ u.now = w.now ∧ u.io = w.io ∧
      Device.updateHeartbeat env p w = Device.onHeartbeat env p u := by
  unfold Device.updateHeartbeat
  split
  · rename_i hc
    let u : World := w.setRam { w.ram with heartbeatCounters := Function.update w.ram.heartbeatCounters p 0 }
    exact Or.inr ⟨hc, u, rfl, rfl, rfl, rfl⟩
  · exact Or.inl rfl

theorem liable_of_expired (hs : (dev w p).state ≠ .starting) (h : Expired p (sense env p w)) : Liable env p w := by
  obtain ⟨⟨level, t, hdev⟩, hnow⟩ := dev_updateFault env p (Device.updateHeartbeat env p w)
  have hstarted : (dev (sense env p w) p).state = .started := h.1
  obtain ⟨hst, hm, hwatch, hex⟩ := h
  rw [sense, hdev] at hst hm hwatch hex
  rw [hnow] at hex
  rcases updateHeartbeat_cases env p w with heq | ⟨hc, u, hu, hunow, huio, heq⟩
  · rw [heq] at hst hm hwatch
    exact ⟨hm, hwatch, hstarted, fun hne => absurd hst hne⟩
  · rw [heq] at hst hm hwatch hex
    obtain ⟨hm', hwatch', hcase⟩ := liable_onHeartbeat (by rwa [hu]) hst
    rw [hu] at hm' hwatch' hcase
    refine ⟨hm'.symm.trans hm, hwatch'.symm.trans hwatch, hstarted, fun hne => ?_⟩
    rcases hcase with hst' | ⟨hst', htimer, hnow', hio⟩
    · exact absurd hst' hne
    · refine ⟨hst', hc, ?_⟩
      simp only [htimer, hnow', hio] at hex
      have hlt := DurationTimer.lt_of_exceeds_reset (Nat.le_add_right _ _) hex
      rwa [Nat.add_sub_cancel_left, huio] at hlt

theorem TimesOut.liable {o : Op} (hs : (dev w p).state ≠ .starting) (h : TimesOut env p o w) : Liable env p w := by
  cases o with
  | update i =>
      obtain ⟨rfl, -, hex⟩ := h
      exact liable_of_expired hs hex
  | _ => exact h.elim

/-! ## 一歩と実行 -/

theorem step_of_timesOut {o : Op} (h : TimesOut env p o w) : (dev (step env o w) p).state = .stopping ∧
    Record.getBootFailures (step env o w).hw.eeprom p = Record.getBootFailures w.hw.eeprom p + 1 := by
  cases o with
  | update i =>
      obtain ⟨rfl, hhalt, hex⟩ := h
      have heq : step env (.update i) w = Device.updateState env i (sense env i w) := by
        simp [step, hhalt, Device.update, sense]
      rw [heq, (updateState_of_expired hex).2, failures_sense]
      exact ⟨(updateState_of_expired hex).1, rfl⟩
  | _ => exact h.elim

theorem step_of_not_timesOut {o : Op} (hs : (dev w p).state ≠ .starting) (h : ¬ TimesOut env p o w) :
    Record.getBootFailures (step env o w).hw.eeprom p = Record.getBootFailures w.hw.eeprom p := by
  by_cases ho : ∃ i, o = .update i
  · obtain ⟨i, rfl⟩ := ho
    by_cases hhalt : w.ram.halted = true
    · simp [step, hhalt]
    · have heq : step env (.update i) w = Device.updateState env i (sense env i w) := by
        simp [step, hhalt, Device.update, sense]
      by_cases hi : p = i
      · subst hi
        have hex : ¬ Expired p (sense env p w) := fun hex => h ⟨rfl, by simpa using hhalt, hex⟩
        rw [heq, failures_of_trail (updateState_of_not_expired (sense_ne_starting hs) hex), failures_sense]
      · have hframe : Frame p w (Device.update env i w) :=
          prim_update (P := fun v => Frame p w v) (fun _ _ hprim hv => hv.trans (hprim.frame hi)) (Frame.refl w)
        rw [heq]
        exact failures_of_frame hframe
  · have htrail : Trail (Event.Keeps p) w (step env o w) :=
      act_step (P := fun v => Trail (Event.Keeps p) w v) (fun _ _ _ ha hv => hv.trans ha.keeps)
        (fun i hi => ho ⟨i, hi⟩) (Trail.refl w)
    exact failures_of_trail htrail

theorem failures_run (ops : List Op) (hs : (dev w p).state ≠ .starting) :
    Record.getBootFailures (run env ops w).hw.eeprom p =
      Record.getBootFailures w.hw.eeprom p + UInt16.ofNat (timeouts env p ops w) := by
  induction ops generalizing w with
  | nil => simp [run, timeouts]
  | cons o ops ih =>
      have hstep : (dev (step env o w) p).state ≠ .starting := run_ne_starting [o] hs
      have hrun : run env (o :: ops) w = run env ops (step env o w) := rfl
      rw [hrun, ih hstep, timeouts]
      by_cases ht : TimesOut env p o w
      · rw [(step_of_timesOut ht).2, if_pos ht, UInt16.ofNat_add, UInt16.add_assoc]
        rfl
      · rw [step_of_not_timesOut hs ht, if_neg ht, Nat.zero_add]

theorem failures_booted (env : Env) (p : Port) {h : Hardware} (hi : Record.initialized h.eeprom = true) :
    Record.getBootFailures (booted env h).hw.eeprom p = Record.getBootFailures h.eeprom p := by
  have hdevices : ∀ v : World, Trail (Event.Keeps p) v (setupDevices env v) := fun v =>
    trail_setupDevices (fun i => recovers_keeps p i) fun i b => keeps_eeprom (by simp) (by simp) (by simp) b
  have harm : ∀ v : World, Trail (Event.Keeps p) v (arm env v) := fun v =>
    quiet_arm.trail.mono fun _ he => keeps_of_not_about (he p)
  have hprepare : Record.getBootFailures (prepare env (powerOn h)).hw.eeprom p = Record.getBootFailures h.eeprom p :=
    failures_congr fun o ho => prepare_record env hi (by omega) (by simp; omega) (by simp; omega)
  rw [booted, setup, failures_of_trail ((hdevices _).trans (harm _)), hprepare]

/-- 初期化された記録から起動したどの実行でも、どの機器も `STARTING` にならず、失敗の回数は、初めの値に心拍の途絶の回数を
加えたものである。途絶のたびに、機器は `STOPPING` になり、失敗はちょうど一回だけ数えられる。途絶は、見張られている起動中の
機器にだけ起きる。 -/
theorem failures_count_timeouts (env : Env) (h : Hardware) (hi : Record.initialized h.eeprom = true) (ops : List Op) :
    ∃ w, w = run env ops (booted env h) ∧ (∀ p, (dev w p).state ≠ .starting) ∧
    (∀ p, Record.getBootFailures w.hw.eeprom p =
      Record.getBootFailures h.eeprom p + UInt16.ofNat (timeouts env p ops (booted env h))) ∧
    ∀ p o, (TimesOut env p o w → Liable env p w ∧ (dev (step env o w) p).state = .stopping ∧
        Record.getBootFailures (step env o w).hw.eeprom p = Record.getBootFailures w.hw.eeprom p + 1) ∧
      (¬ TimesOut env p o w →
        Record.getBootFailures (step env o w).hw.eeprom p = Record.getBootFailures w.hw.eeprom p) := by
  have hne : ∀ p, (dev (run env ops (booted env h)) p).state ≠ .starting := fun p =>
    run_ne_starting ops (booted_ne_starting env h p)
  refine ⟨_, rfl, hne, fun p => ?_, fun p o => ⟨fun ht => ?_, fun ht => ?_⟩⟩
  · rw [failures_run ops (booted_ne_starting env h p), failures_booted env p hi]
  · exact ⟨ht.liable (hne p), step_of_timesOut ht⟩
  · exact step_of_not_timesOut (hne p) ht

/-- ポート 1 の機器を起動し、心拍がないまま一時間を過ごす実行。 -/
def silentHour : List Op :=
  [.line (ascii ['s', 't', 'a', 'r', 't', ' ', '1']) [], .startNext, .idle 3600001, .update 1, .update 1]

theorem failures_count_timeouts_silent : ∃ w, w = run Env.ideal silentHour (booted Env.ideal Hardware.ready) ∧
    timeouts Env.ideal 1 silentHour (booted Env.ideal Hardware.ready) = 1 ∧
    Record.getBootFailures w.hw.eeprom 1 = 1 := by
  have htimeouts : timeouts Env.ideal 1 silentHour (booted Env.ideal Hardware.ready) = 1 := by decide +kernel
  obtain ⟨w, hw, -, hcount, -⟩ := failures_count_timeouts Env.ideal Hardware.ready (by decide) silentHour
  have hone := hcount 1
  rw [htimeouts] at hone
  exact ⟨w, hw, htimeouts, hone⟩

end Wagman.V3
