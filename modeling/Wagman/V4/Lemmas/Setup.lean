import Wagman.V4.Lemmas.Prim

/-!
# 起動の直後の状態

`setup` を、`setupDevices` の前、`setupDevices`、ポート 0 の `start` に分ける。ポートごとの性質が起動の直後に
成り立つことは、`Device::init` の直後に成り立つことと、そのポートに関わらない部分で保たれることから示す。
-/

namespace Wagman.V4

open Machine

variable {env : Env} {w : World}

/-- ポート 0 の `start` より前に起きる事象。 -/
def Event.Preparing : Event → Prop
  | .eeprom _ _ => True
  | .pin k _ => k = ncAutoDisable ∨ k ∈ ledPins
  | .state _ _ => True
  | _ => False

/-! ## 記録の初期化と点滅 -/

/-- EEPROM への書き込みと、起動時の LED だけの事象。 -/
def Event.Starting : Event → Prop
  | .eeprom _ _ => True
  | .pin k _ => k = ncAutoDisable ∨ k ∈ ledPins
  | _ => False

theorem Event.Starting.preparing {e : Event} (h : e.Starting) : e.Preparing := by
  cases e with
  | eeprom a v => trivial
  | pin k b => exact h
  | _ => exact h.elim

theorem still_store (a : Nat) (v : UInt8) : Still Event.Starting w (EEPROM.write env a v w) :=
  still_write trivial

theorem still_storeWord (a n : Nat) : Still Event.Starting w (EEPROM.put env a 4 n w) :=
  still_put (fun _ _ _ _ => trivial) n

theorem still_putVersion (a : Nat) (v : Record.Version) :
    Still Event.Starting w (Record.putVersion env a v w) :=
  (still_store _ _).trans (still_store _ _)

theorem still_initPort (i : Port) : Still Event.Starting w (Record.initPort env i w) :=
  (still_storeWord _ _).trans <| (still_storeWord _ _).trans <| (still_store _ _).trans <|
    (still_store _ _).trans <| (still_store _ _).trans <| (still_store _ _).trans (still_store _ _)

theorem still_init : Still Event.Starting w (Record.init env w) :=
  (still_storeWord _ _).trans <| (still_storeWord _ _).trans <| (still_putVersion _ _).trans <|
    (still_putVersion _ _).trans <| (still_store _ _).trans <|
    (Still.foldl (fun _ i _ => still_initPort i) _).trans <|
    (still_store _ _).trans <| (still_store _ _).trans <| (still_store _ _).trans <| (still_store _ _).trans <|
    (still_store _ _).trans <| (still_store _ _).trans (still_storeWord _ _)

theorem still_setLEDs (mode : Bool) : Still Event.Starting w (setLEDs env mode w) :=
  Still.foldl (fun _ _ hk => still_digitalWrite (Or.inr hk)) w

theorem still_initBlink : Still Event.Starting w (initBlink env w) :=
  (still_setLEDs true).trans <| (still_delay 40).trans <| (still_setLEDs false).trans (still_delay 40)

/-! ## `setupDevices` の前 -/

theorem trail_wagmanInit {A : Event → Prop} (h : A (.pin ncAutoDisable false)) :
    Trail A w (wagmanInit env w) :=
  ((((Trail.refl w).emit env.latency h).setRam _).elapse env.latency 200).elapse env.latency 200

/-- `setupDevices` の前には、心拍の数と `wireEnabled` のほかの記憶は変わらない。 -/
theorem prepare_ram (env : Env) (w : World) :
    ∃ b, (prepare env w).ram = { w.ram with heartbeatCounters := fun _ => 0, wireEnabled := b } := by
  have hw : ∀ w : World, (wagmanInit env w).ram =
      { w.ram with heartbeatCounters := fun _ => 0, wireEnabled := Record.getWireEnabled w.hw.eeprom } := fun _ => rfl
  have hput : ∀ (w : World) (t : UInt32),
      (Record.incrementBootCount env (Record.setLastBootTime env t (ioRead env w))).ram = w.ram := by
    intro w t
    simp [Record.incrementBootCount, Record.setBootCount, Record.setLastBootTime]
  simp only [prepare, hput]
  split
  · exact ⟨_, hw w⟩
  · have hb : Still Event.Starting (wagmanInit env (Record.init env w))
        ((List.range 8).foldl (fun w _ => initBlink env w) (wagmanInit env (Record.init env w))) :=
      Still.foldl (fun _ _ _ => still_initBlink) _
    have hi : Still Event.Starting w (Record.init env w) := still_init
    rw [hb.ram, hw, hi.ram]
    exact ⟨_, rfl⟩

theorem trail_prepare (env : Env) (w : World) : Trail Event.Starting w (prepare env w) := by
  have hinit : ∀ w : World, Trail Event.Starting w (wagmanInit env w) :=
    fun _ => trail_wagmanInit (Or.inl rfl)
  have hput : ∀ (w : World) (t : UInt32), Trail Event.Starting w
      (Record.incrementBootCount env (Record.setLastBootTime env t (ioRead env w))) := fun w t =>
    still_ioRead.trail.trans ((still_storeWord _ _).trail.trans (still_storeWord _ _).trail)
  simp only [prepare]
  split
  · exact (hinit w).trans (hput _ _)
  · exact ((still_init.trail.trans (hinit _)).trans
      (Still.foldl (fun _ _ _ => still_initBlink) _).trail).trans (hput _ _)

theorem ncAutoDisable_ne_relayClk (p : Port) : ncAutoDisable ≠ relayClk p := by revert p; decide

theorem ncAutoDisable_ne_relayD (p : Port) : ncAutoDisable ≠ relayD p := by revert p; decide

/-- 記録が初期化されていれば、`setupDevices` の前には、どのポートの領域にも書かない。 -/
theorem frame_prepare (h : Record.initialized w.hw.eeprom = true) (p : Port) :
    Frame p w (prepare env w) := by
  have hput : ∀ (w : World) (a n : Nat), a + 4 ≤ 256 → Trail (fun e => ¬ e.About p) w (EEPROM.put env a 4 n w) := by
    intro w a n ha
    refine (still_put (fun b v _ hb => ?_) n).trail
    rintro ⟨o, -, hbo⟩
    have := le_deviceRegion p
    omega
  have hpin : ¬ (Event.pin ncAutoDisable false).About p := by
    rintro (hk | hk)
    · exact ncAutoDisable_ne_relayClk p hk
    · exact ncAutoDisable_ne_relayD p hk
  refine ⟨?_, ?_⟩
  · simp only [prepare, h, if_true]
    exact (trail_wagmanInit hpin).trans (still_ioRead.trail.trans
      ((hput _ _ _ (by simp)).trans (hput _ _ _ (by simp))))
  · obtain ⟨b, hb⟩ := prepare_ram env w
    simp only [dev, hb]

/-! ## `setupDevices` -/

/-- `Device::init` が最初に定める欄。 -/
def Device.initial (d : Device) : Device :=
  { d with
    shouldForceBootMedia := false
    forceBootMedia := .sd
    currentLevel := .low
    startDelay := 0
    stopTimeout := 60000 }

/-- 有効の印から決まる最初の状態。 -/
def initialState (m : Nat → UInt8) (i : Port) : State :=
  if Record.getDeviceEnabled m i then .stopped else .disabled

theorem Device.init_eq (env : Env) (i : Port) (w : World) :
    Device.init env i w = Device.changeState i (initialState w.hw.eeprom i)
      (ioRead env (setDev i (dev w i).initial w)) := by
  have hset : setDev i { dev (setDev i { dev w i with
        shouldForceBootMedia := false, forceBootMedia := .sd, currentLevel := .low, startDelay := 0 } w) i with
        stopTimeout := 60000 } (setDev i { dev w i with
        shouldForceBootMedia := false, forceBootMedia := .sd, currentLevel := .low, startDelay := 0 } w) =
      setDev i (dev w i).initial w := by
    simp [setDev, Ram.setDevice, Machine.setRam, Device.initial, dev]
  simp only [Device.init, Device.setStopTimeout, hset, setDev_hw, initialState]
  by_cases he : Record.getDeviceEnabled w.hw.eeprom i = true
  · simp only [he, if_true]
  · simp only [he, Bool.false_eq_true, if_false]

theorem Device.dev_init (env : Env) (i : Port) (w : World) :
    dev (Device.init env i w) i =
      (dev w i).initial.enter (initialState w.hw.eeprom i) (timerNow (Device.init env i w)) := by
  rw [Device.init_eq]
  simp [dev, timerNow]

theorem Device.trail_init {A : Event → Prop} {i : Port} (h : ∀ s, A (.state i s)) :
    Trail A w (Device.init env i w) := by
  rw [Device.init_eq]
  exact ((trail_setDev i _).trans still_ioRead.trail).trans (trail_changeState (h _))

theorem frame_init {p i : Port} (h : p ≠ i) : Frame p w (Device.init env i w) := by
  refine ⟨Device.trail_init fun s hs => h hs.symm, ?_⟩
  rw [Device.init_eq]
  simp [dev, Ram.setDevice_devices_of_ne _ h]

theorem trail_initAll {A : Event → Prop} (hA : ∀ i s, A (.state i s)) (env : Env) (is : List Port)
    (w : World) :
    Trail A w (is.foldl (fun w i => Device.init env i w) w) := by
  induction is generalizing w with
  | nil => exact Trail.refl w
  | cons i is ih => exact (Device.trail_init (hA i)).trans (ih _)

theorem trail_setupDevices {A : Event → Prop} (hA : ∀ i s, A (.state i s)) (env : Env) (w : World) :
    Trail A w (setupDevices env w) :=
  ((Trail.refl w).setRam _).trans (trail_initAll hA env _ _)

/-! ## 起動についての帰納法 -/

theorem frame_arm (p : Port) (w : World) : Frame p w (arm env w) :=
  ⟨((Trail.refl w).setRam _).elapse env.latency 0, rfl⟩

/-- `Device::init` の直後に成り立ち、ポート `p` に関わらない部分で保たれる性質は、`setup` の最後の `start` の前に
成り立つ。 -/
theorem setupDevices_induct {p : Port} {P : World → Prop} {h : Hardware}
    (hframe : ∀ w w', Frame p w w' → P w → P w')
    (hinit : ∀ w, dev w p = setupDevice p {} → Trail Event.Preparing (powerOn h) w → P (Device.init env p w))
    (hdev : dev w p = {}) (htrail : Trail Event.Preparing (powerOn h) w) : P (setupDevices env w) := by
  simp only [setupDevices]
  refine Run.foldl_visit (p := p) (P := P)
    (Q := fun w => dev w p = setupDevice p {} ∧ Trail Event.Preparing (powerOn h) w)
    (List.nodup_finRange 5) (List.mem_finRange p) ?_ (fun w hw => hinit w hw.1 hw.2)
    (fun i w hi hw => hframe _ _ (frame_init hi) hw) ?_
  · rintro i w hi ⟨hd, hw⟩
    exact ⟨(frame_init hi).dev.trans hd, hw.trans (Device.trail_init fun _ => trivial)⟩
  · refine ⟨?_, htrail.setRam _⟩
    simp only [dev, setRam_ram] at hdev ⊢
    rw [hdev]

/-- `setup` の最後の `start` の直前の状態。 -/
def armed (env : Env) (h : Hardware) : World := arm env (setupDevices env (prepare env (powerOn h)))

theorem booted_eq (env : Env) (h : Hardware) : booted env h = (Device.start env 0 (armed env h)).2 := rfl

theorem armed_induct {p : Port} {P : World → Prop} (hframe : ∀ w w', Frame p w w' → P w → P w')
    (h : Hardware)
    (hinit : ∀ w, dev w p = setupDevice p {} → Trail Event.Preparing (powerOn h) w → P (Device.init env p w)) :
    P (armed env h) := by
  refine hframe _ _ (frame_arm p _) (setupDevices_induct hframe hinit ?_ ?_)
  · obtain ⟨b, hb⟩ := prepare_ram env (powerOn h)
    simp only [dev, hb]
    rfl
  · exact (trail_prepare env (powerOn h)).mono fun _ he => he.preparing

theorem armed_state_zero (env : Env) (h : Hardware) : (dev (armed env h) 0).state = .stopped := by
  refine armed_induct (p := 0) (P := fun w => (dev w 0).state = .stopped) ?_ h ?_
  · intro w w' hf hs
    rw [hf.dev, hs]
  · intro w hd _
    rw [Device.dev_init]
    rfl

theorem booted_eq_powerUp (env : Env) (h : Hardware) :
    booted env h = Device.powerUp env 0 (armed env h) := by
  rw [booted_eq, Device.start_of_ne]
  simp [armed_state_zero]

/-- ポートごとの性質が、起動の直後に成り立つ。 -/
theorem booted_induct {p : Port} {P : World → Prop} (hframe : ∀ w w', Frame p w w' → P w → P w')
    (h : Hardware)
    (hinit : ∀ w, dev w p = setupDevice p {} → Trail Event.Preparing (powerOn h) w → P (Device.init env p w))
    (hstart : ∀ w, p = 0 → (dev w p).state = .stopped → P w → P (Device.powerUp env p w)) :
    P (booted env h) := by
  have ha := armed_induct hframe h hinit
  by_cases hp : p = 0
  · subst hp
    rw [booted_eq_powerUp]
    exact hstart _ rfl (armed_state_zero env h) ha
  · exact hframe _ _ (Frame.ofActs (Device.acts_start env _ 0) hp) ha

theorem booted_idle {p : Port} (hp : p ≠ 0) (env : Env) (h : Hardware) :
    (dev (booted env h) p).state = .stopped ∨ (dev (booted env h) p).state = .disabled := by
  refine booted_induct (p := p) (P := fun w => (dev w p).state = .stopped ∨ (dev w p).state = .disabled) ?_ h ?_ ?_
  · intro w w' hf hs
    rw [hf.dev]
    exact hs
  · intro w _ _
    rw [Device.dev_init]
    simp only [Device.enter, initialState]
    split
    · exact Or.inl rfl
    · exact Or.inr rfl
  · exact fun _ h0 => absurd h0 hp

/-! ## 起動の記録と記憶 -/

theorem trail_setup (env : Env) (h : Hardware) :
    Trail Event.Preparing (powerOn h) (setupDevices env (prepare env (powerOn h))) :=
  ((trail_prepare env _).mono fun _ h => h.preparing).trans (trail_setupDevices (fun _ _ => trivial) env _)

theorem trail_armed (env : Env) (h : Hardware) : Trail Event.Preparing (powerOn h) (armed env h) :=
  (trail_setup env h).trans (((Trail.refl _).setRam _).elapse env.latency 0)

theorem initAll_globals (env : Env) (is : List Port) (w : World) :
    (is.foldl (fun w i => Device.init env i w) w).ram.globals = w.ram.globals := by
  induction is generalizing w with
  | nil => rfl
  | cons i is ih =>
      rw [List.foldl_cons, ih, Device.init_eq]
      rfl

theorem booted_globals (env : Env) (h : Hardware) :
    (booted env h).ram.shouldResetAll = false ∧ (booted env h).ram.shouldResetSystem = false ∧
      (booted env h).ram.halted = false ∧ (booted env h).ram.deviceWantsStart = 0 := by
  have hs := Device.acts_start env (armed env h) 0
  have hd :
      (setupDevices env (prepare env (powerOn h))).ram.globals = (prepare env (powerOn h)).ram.globals :=
    initAll_globals env _ _
  obtain ⟨b, hb⟩ := prepare_ram env (powerOn h)
  have hall : (armed env h).ram.shouldResetAll = false := by
    have hd' := congrArg Ram.shouldResetAll hd
    rw [hb] at hd'
    exact hd'
  have hhalt : (armed env h).ram.halted = false := by
    have hd' := congrArg Ram.halted hd
    rw [hb] at hd'
    exact hd'
  refine ⟨?_, ?_, ?_, ?_⟩
  · rw [booted_eq, hs.resetAll_eq, hall]
  · rw [booted_eq, hs.resetSystem_eq]; rfl
  · rw [booted_eq, hs.halted_eq, hhalt]
  · rw [booted_eq, hs.wants_eq]; rfl

/-! ## 実行についての帰納法 -/

theorem Step.resetAll_eq {o : Op} {w w' : World} (h : Step env o w w')
    (h₀ : w.ram.shouldResetAll = false) :
    w'.ram.shouldResetAll = false := by
  cases h with
  | tick ht => rw [ht.resetAll, h₀]
  | update i => rw [(Device.acts_update env w i).resetAll_eq, h₀]
  | next hs =>
      have hstart : ∀ i b, (Device.start env i (beginStart i b w)).2.ram.shouldResetAll = false :=
        fun i b => by
        rw [(Device.acts_start env _ i).resetAll_eq]; exact h₀
      rcases startNextDevice_inv env w with h | ⟨i, -, -, h⟩ | ⟨i, -, -, -, h⟩
      · rw [h, h₀]
      · rw [h]; exact hstart i true
      · rw [h]; exact hstart i false
  | ping i hr ha ht h₁ h₂ => rw [h₂.ram, (Device.acts_onHeartbeat env _ i).resetAll_eq, h₁.ram, h₀]
  | start i hr ht h₁ => rw [h₁.ram]; exact h₀
  | stop i t hr ht h₁ => rw [h₁.ram, (Device.acts_stop env _ i).resetAll_eq]; exact h₀
  | enable i hr ht h₁ => rw [h₁.ram, (Device.acts_enable env w i).resetAll_eq, h₀]
  | media i m hr ht h01 h₁ => rw [h₁.ram, (Device.acts_setNextBootMedia env w i m).resetAll_eq, h₀]
  | eereset hr h₁ => rw [h₁.ram]; simpa [Record.clearMagic] using h₀
  | reset hr => exact h₀
  | resetAll hs => rw [h₀] at hs; cases hs

section Run

variable {C : Op → World → Prop} {P : World → Prop} {p : Port} {h : Hardware} {ops : List Op}

theorem run_induct_from {v : World}
    (hstep : ∀ o w w', C o w → w.ram.shouldResetAll = false → step env o w = some w' → P w → P w')
    (hrun : run env ops v = some w) (hall : v.ram.shouldResetAll = false) (hC : Run.Meets (step env) C ops v)
    (h₀ : P v) : w.ram.shouldResetAll = false ∧ P w := by
  refine Run.run_induct_of_meets (P := fun w => w.ram.shouldResetAll = false ∧ P w) ?_ hrun hC ⟨hall, h₀⟩
  rintro o s s' hc ⟨ha, hp⟩ hs
  exact ⟨(step_inv hs).resetAll_eq ha, hstep o s s' hc ha hs hp⟩

theorem run_induct (hstep : ∀ o w w', C o w → w.ram.shouldResetAll = false → Step env o w w' → P w → P w')
    (hrun : run env ops (booted env h) = some w) (hC : Run.Meets (step env) C ops (booted env h))
    (h₀ : P (booted env h)) : w.ram.shouldResetAll = false ∧ P w :=
  run_induct_from (fun o w w' hc ha hs => hstep o w w' hc ha (step_inv hs)) hrun (booted_globals env h).1 hC h₀

theorem trail_run {v : World} (hrun : run env ops v = some w) (hall : v.ram.shouldResetAll = false) :
    Trail (fun _ => True) v w :=
  (run_induct_from (C := fun _ _ => True) (P := Trail (fun _ => True) v)
    (fun _ _ _ _ ha hs ht => ht.trans ((step_inv hs).on ha 0).trail) hrun hall
    (Run.Meets.of_forall (fun _ _ => trivial) _) (Trail.refl v)).2

theorem resetAll_run {v : World} (hrun : run env ops v = some w) (hall : v.ram.shouldResetAll = false) :
    w.ram.shouldResetAll = false :=
  (run_induct_from (C := fun _ _ => True) (P := fun _ => True) (fun _ _ _ _ _ _ => id) hrun hall
    (Run.Meets.of_forall (fun _ _ => trivial) _) trivial).1

theorem run_resetAll (hrun : run env ops (booted env h) = some w) : w.ram.shouldResetAll = false :=
  resetAll_run hrun (booted_globals env h).1

theorem run_induct_on (hstep : ∀ o w w', C o w → StepOn env p o w w' → P w → P w')
    (hrun : run env ops (booted env h) = some w) (hC : Run.Meets (step env) C ops (booted env h))
    (h₀ : P (booted env h)) : P w :=
  (run_induct (fun o w w' hc ha hs => hstep o w w' hc (hs.on ha p)) hrun hC h₀).2

theorem run_invariant_on (hstep : ∀ o w w', StepOn env p o w w' → P w → P w')
    (hrun : run env ops (booted env h) = some w) (h₀ : P (booted env h)) : P w :=
  run_induct_on (C := fun _ _ => True) (fun o w w' _ => hstep o w w') hrun
    (Run.Meets.of_forall (fun _ _ => trivial) _) h₀

end Run

end Wagman.V4
