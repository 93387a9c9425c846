import Wagman.V4.Lemmas.Setup

/-!
# 監視の仕方と失敗の回数

`managed` は `start` でだけ計算し直される。一方、`STARTED` には、止まっている間に心拍を受けたときにも入る。
そのとき `managed` が失敗の回数と合っていれば、監視の仕方は `STARTED` に入ったときの失敗の回数と合い続ける。
-/

namespace Wagman.V4

open Machine

/-- `devices[p]` が今の状態として `STARTED` に入ったときの、失敗の回数。 -/
def entryFailures (p : Port) (h : Hardware) : Log → Option UInt32
  | [] => none
  | ⟨_, .state q s⟩ :: l =>
      if q = p then (if s = .started then some (Record.getBootFailures (replay h l).eeprom p) else none)
      else entryFailures p h l
  | _ :: l => entryFailures p h l

/-- `STARTED` の機器の監視の仕方は、`STARTED` に入ったときの失敗の回数と合っている。 -/
def ModeMatches (p : Port) (h : Hardware) (w : World) : Prop :=
  (dev w p).state = .started →
    ∃ f, entryFailures p h w.log = some f ∧ (dev w p).managed = decide (f < 30)

def Event.Moves (p : Port) : Event → Prop
  | .state q _ => q = p
  | _ => False

theorem entryFailures_cons {p : Port} {x : Entry Event} (hx : ¬ x.event.Moves p) (h : Hardware)
    (l : Log) :
    entryFailures p h (x :: l) = entryFailures p h l := by
  obtain ⟨t, e⟩ := x
  cases e with
  | state q s => exact if_neg hx
  | _ => rfl

theorem not_moves_of_not_about {p : Port} {e : Event} (h : ¬ e.About p) : ¬ e.Moves p := by
  cases e with
  | state q s => exact h
  | _ => exact id

/-- 止まっている間の心拍は、失敗の回数と合った `managed` を見つける。 -/
def HeartbeatOk (p : Port) (o : Op) (w : World) : Prop :=
  Beats p o w → (dev w p).state = .stopped →
    (dev w p).managed = decide (Record.getBootFailures w.hw.eeprom p < 30)

instance (p : Port) (o : Op) (w : World) : Decidable (HeartbeatOk p o w) :=
  inferInstanceAs (Decidable (_ → _ → _))

/-- 一歩の途中の状態についての不変条件。 -/
structure ModeOk (p : Port) (h : Hardware) (w : World) : Prop where
  replayed : w.hw = replay h w.log
  modeMatches : ModeMatches p h w

namespace ModeOk

variable {env : Env} {p : Port} {h : Hardware} {w w' : World}

theorem of_trail (hw : ModeOk p h w) (hp : Trail (fun e => ¬ e.Moves p) w w')
    (hs : (dev w' p).state = (dev w p).state) (hm : (dev w' p).managed = (dev w p).managed) :
    ModeOk p h w' := by
  refine ⟨hp.replayed hw.replayed, fun hst => ?_⟩
  rw [hs] at hst
  obtain ⟨f, hf, hmf⟩ := hw.modeMatches hst
  exact ⟨f, (hp.log_eq fun x l hx => entryFailures_cons hx h l).trans hf, hm.trans hmf⟩

theorem of_frame (hw : ModeOk p h w) (hf : Frame p w w') : ModeOk p h w' :=
  hw.of_trail (hf.trail.mono fun _ he => not_moves_of_not_about he) (by rw [hf.dev]) (by rw [hf.dev])

theorem of_still (hw : ModeOk p h w) (hs : Still (fun e => ¬ e.Moves p) w w') : ModeOk p h w' :=
  hw.of_trail hs.trail (by simp only [dev, hs.ram]) (by simp only [dev, hs.ram])

theorem of_setDev (hw : ModeOk p h w) {d : Device} (hs : d.state = (dev w p).state)
    (hm : d.managed = (dev w p).managed) : ModeOk p h (setDev p d w) :=
  hw.of_trail (trail_setDev p d) (by simpa using hs) (by simpa using hm)

theorem of_acts {F : Footprint} (hw : ModeOk p h w) (ha : Acts F w w')
    (hs : (dev w' p).state ≠ .started) :
    ModeOk p h w' :=
  ⟨ha.trail.replayed hw.replayed, fun hst => absurd hst hs⟩

theorem changeState_started (hr : w.hw = replay h w.log)
    (hm : (dev w p).managed = decide (Record.getBootFailures w.hw.eeprom p < 30)) :
    ModeOk p h (Device.changeState p .started w) := by
  have hlog : entryFailures p h (Device.changeState p .started w).log =
      some (Record.getBootFailures (replay h w.log).eeprom p) := by simp [entryFailures]
  rw [← hr] at hlog
  refine ⟨(trail_changeState (A := fun _ => True) trivial).replayed hr, fun _ => ⟨_, hlog, ?_⟩⟩
  simpa [dev, Device.enter] using hm

/-! ## 操作ごとの保存 -/

theorem powerUp (hw : ModeOk p h w) : ModeOk p h (Device.powerUp env p w) := by
  have ha := Device.acts_energize env w p
  refine changeState_started (ha.trail.replayed hw.replayed) ?_
  rw [Footprint.failures_eq ha.trail (Or.inr (by simp only [Footprint.boot]; omega))]
  simp [dev, Device.selectMedia_ram]

theorem prim (hs : Prim env p (Frame p) w w') (hw : ModeOk p h w) : ModeOk p h w' := by
  cases hs with
  | frame hf => exact hw.of_frame hf
  | tweak d hd => exact hw.of_setDev (Device.steady_state hd) (Device.steady_managed hd)
  | beat => exact hw.of_trail ((trail_setDev p _).mark id) (by simp) (by simp)
  | refuse _ _ =>
      have ha := (Device.acts_setDeviceEnabled env w p false).trans (Acts.changeState .disabled)
      exact hw.of_acts ha (by simp [dev, Device.enter])
  | halt _ => exact hw.of_acts (F := .relay p) (Acts.changeState .stopping) (by simp [dev, Device.enter])
  | revive _ _ => exact hw.of_acts (Device.acts_enable env w p) (by simp [dev, Device.enable_ram, Device.enter])
  | off _ => exact hw.of_acts (Device.acts_powerDown env w p) (by simp [dev, Device.powerDown_ram, Device.enter])
  | on _ => exact hw.powerUp
  | fail _ => exact hw.of_still (still_put (fun _ _ _ _ => id) _)
  | media m => exact hw.of_trail (trail_setNextBootMedia id fun _ _ => id) (by simp) (by simp)

theorem step {o : Op} (hs : StepOn env p o w w') (hC : HeartbeatOk p o w) (hw : ModeOk p h w) :
    ModeOk p h w' := by
  refine hs.induct (P := ModeOk p h) (fun _ _ hp hw => hw.prim hp) (fun _ hw => ?_) (fun v hv hb hst hw => ?_) hw
  · exact hw.of_acts (Device.acts_enable env w p) (by simp [dev, Device.enable_ram, Device.enter])
  · refine changeState_started hw.replayed ?_
    have hm := hC hb hst
    rw [← hv.dev, ← hv.failures_eq] at hm
    rw [Device.dev_beat]
    exact hm

theorem booted (env : Env) (h : Hardware) (p : Port) : ModeOk p h (V4.booted env h) := by
  refine booted_induct (p := p) (fun w w' hf hw => hw.of_frame hf) h ?_ ?_
  · intro w hd htrail
    have hp : Trail Event.Preparing (powerOn h) (Device.init env p w) :=
      htrail.trans (Device.trail_init fun _ => trivial)
    refine ⟨hp.replayed rfl, fun hst => ?_⟩
    rw [Device.dev_init] at hst
    simp only [Device.enter, initialState] at hst
    split at hst <;> cases hst
  · intro w _ _ hw
    exact hw.powerUp

end ModeOk

/-- 止まっている間の心拍が、どれも失敗の回数と合った `managed` を見つける実行では、監視の仕方は `STARTED` に入った
ときの失敗の回数と合う。 -/
theorem supervision_matches_record (env : Env) (h : Hardware) (p : Port) (ops : List Op) (w : World)
    (hrun : run env ops (booted env h) = some w)
    (hC : Run.Meets (step env) (HeartbeatOk p) ops (booted env h)) :
    ModeMatches p h w :=
  (run_induct_on (fun _ _ _ hc hs hw => ModeOk.step hs hc hw) hrun hC (ModeOk.booted env h p)).modeMatches

/-- ポート 1 の機器を要求で起動すると、監視される。 -/
theorem supervision_matches_record_start : ∃ w,
    run Env.ideal [.request true 0 ⟨0xc007, 2, none⟩, .startNext] (booted Env.ideal Hardware.ready) = some w ∧
      (dev w 1).state = .started ∧ ModeMatches 1 Hardware.ready w := by
  have hb : ((run Env.ideal [.request true 0 ⟨0xc007, 2, none⟩, .startNext]
      (booted Env.ideal Hardware.ready)).any fun w => decide ((dev w 1).state = .started)) = true := by
    decide +kernel
  have hC : Run.Meets (step Env.ideal) (HeartbeatOk 1) [.request true 0 ⟨0xc007, 2, none⟩, .startNext]
      (booted Env.ideal Hardware.ready) := by decide +kernel
  obtain ⟨w, hw, hs⟩ := (Option.any_eq_true _ _).mp hb
  exact ⟨w, hw, of_decide_eq_true hs, supervision_matches_record Env.ideal Hardware.ready 1 _ w hw hC⟩

/-- 起動の直後に心拍を受けたポート 1 の機器は、失敗が一度もないのに監視されない。 -/
theorem supervision_lost_after_heartbeat : ∃ w,
    run Env.ideal [.request true 0 ⟨0xff1e, 2, none⟩] (booted Env.ideal Hardware.ready) = some w ∧
      (dev w 1).state = .started ∧ entryFailures 1 Hardware.ready w.log = some 0 ∧ (dev w 1).managed = false ∧
      ¬ ModeMatches 1 Hardware.ready w := by
  have hb :
      ((run Env.ideal [.request true 0 ⟨0xff1e, 2, none⟩] (booted Env.ideal Hardware.ready)).any fun w =>
      decide ((dev w 1).state = .started ∧ entryFailures 1 Hardware.ready w.log = some 0 ∧
        (dev w 1).managed = false)) = true := by decide +kernel
  obtain ⟨w, hw, hs⟩ := (Option.any_eq_true _ _).mp hb
  obtain ⟨hst, hf, hm⟩ := of_decide_eq_true hs
  refine ⟨w, hw, hst, hf, hm, fun h => ?_⟩
  obtain ⟨f, hf', hm'⟩ := h hst
  rw [hf] at hf'
  cases hf'
  rw [hm] at hm'
  cases hm'

end Wagman.V4
