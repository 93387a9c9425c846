import Wagman.V3.Lemmas.Step
import Wagman.Lib.Run

/-!
# 起動の直後の状態

`setup` を、`setupDevices` の前、機器ごとの `Device::init`、リレーの回復に分ける。`setupDevices` の前は、EEPROM とピンに
書くだけである。
-/

namespace Wagman.V3

open Machine

variable {env : Env} {w : World}

/-- `setupDevices` の前に起きる事象。 -/
def Event.Preparing : Event → Prop
  | .eeprom _ _ => True
  | .pin _ _ => True
  | _ => False

/-! ## `setupDevices` の前 -/

theorem preparing_write (a : Nat) (v : UInt8) : Still Event.Preparing w (EEPROM.write env a v w) :=
  still_write trivial

theorem preparing_put (a k n : Nat) : Still Event.Preparing w (EEPROM.put env a k n w) :=
  still_put (fun _ _ _ _ => trivial) n

theorem preparing_putVersion (a : Nat) (v : Record.Version) :
    Still Event.Preparing w (Record.putVersion env a v w) :=
  (preparing_write _ _).trans (preparing_write _ _)

theorem preparing_initPort (i : Port) : Still Event.Preparing w (Record.initPort env i w) :=
  (preparing_put _ _ _).trans <| (preparing_put _ _ _).trans <| (preparing_write _ _).trans <|
    (preparing_write _ _).trans <| (preparing_write _ _).trans <| (preparing_write _ _).trans (preparing_write _ _)

theorem preparing_init : Still Event.Preparing w (Record.init env w) :=
  (preparing_put _ _ _).trans <| (preparing_put _ _ _).trans <| (preparing_putVersion _ _).trans <|
    (preparing_putVersion _ _).trans <| (preparing_write _ _).trans <|
    (Still.foldl (fun _ i _ => preparing_initPort i) _).trans <|
    (preparing_write _ _).trans <| (preparing_write _ _).trans <| (preparing_write _ _).trans <|
    (preparing_write _ _).trans <| (preparing_write _ _).trans <| (preparing_write _ _).trans (preparing_put _ _ _)

theorem trail_wagmanInit {A : Event → Prop} : Trail A w (wagmanInit env w) :=
  ((((Trail.refl w).setRam _).elapse env.latency 200).elapse env.latency 200).elapse env.latency 200

theorem still_lights {A : Event → Prop} (hp : ∀ k b, A (.pin k b)) (ms n : Nat) :
    Still A w ((List.range n).foldl (fun w _ => lightSequence env ms w) w) :=
  Still.foldl (fun _ _ _ => still_lightSequence hp ms) w

theorem still_checkSensor {A : Event → Prop} {getHealth : (Nat → UInt8) → UInt8} {setHealth : UInt8 → World → World}
    (hset : ∀ v w, Still A w (setHealth v w)) (read : World → UInt16) (bound : UInt16)
    (attempts : Nat) :
    Still A w (checkSensor env getHealth setHealth read bound attempts w) := by
  induction attempts generalizing w with
  | zero => exact Still.refl w
  | succ n ih =>
      have hstep : ∀ (v : UInt8) (w : World), Still A w (delay env 20 (setHealth v w)) := fun v w =>
        (hset v w).trans (still_delay 20)
      have hread : ∀ w : World, Still A w (delay env 50 (ioRead env w)) := fun w =>
        still_ioRead.trans (still_delay 50)
      simp only [checkSensor]
      split
      · exact (hstep _ _).trans ((hread _).trans (hstep _ _))
      · exact ((hstep _ _).trans ((hread _).trans (hstep _ _))).trans ih

/-- 起動の時刻と回数、計測器の健康の値、LED だけを書く事象。 -/
def Event.Surveys : Event → Prop
  | .eeprom a _ => (8 ≤ a ∧ a < 16) ∨
      ∃ j, a = Record.deviceRegion j + Record.portThermistorHealth ∨
        a = Record.deviceRegion j + Record.portCurrentHealth
  | .pin _ _ => True
  | _ => False

theorem Event.Surveys.preparing {e : Event} (h : e.Surveys) : e.Preparing := by
  cases e with
  | eeprom a v => trivial
  | pin k b => trivial
  | _ => exact h.elim

theorem surveys_checkSensors : Still Event.Surveys w (checkSensors env w) := by
  have hcurrent : Still Event.Surveys w (checkCurrentSensors env w) := by
    refine still_eachPort fun i w => ?_
    split
    · exact Still.refl w
    · exact still_checkSensor (fun _ _ => still_write (Or.inr ⟨i, Or.inr rfl⟩)) _ _ _
  have hthermistor : ∀ w : World, Still Event.Surveys w (checkThermistors env w) := by
    intro w
    refine still_eachPort fun i w => ?_
    split
    · exact Still.refl w
    · exact still_checkSensor (fun _ _ => still_write (Or.inr ⟨i, Or.inl rfl⟩)) _ _ _
  exact hcurrent.trans (hthermistor _)

/-- `prepare` のうち、記録を調べる前の部分。 -/
def wake (env : Env) (w : World) : World :=
  (List.range 8).foldl (fun w _ => lightSequence env 100 w)
    (delay env 4000 (w.setRam { w.ram with bootflags := w.hw.eeprom 0x41 }))

/-- `prepare` のうち、必要なら記録を初期化する部分。 -/
def establish (env : Env) (w : World) : World :=
  if Record.initialized w.hw.eeprom then wagmanInit env w
  else (List.range 16).foldl (fun w _ => lightSequence env 20 w) (wagmanInit env (Record.init env w))

/-- `prepare` のうち、記録を初期化した後の部分。 -/
def survey (env : Env) (w : World) : World :=
  let w := ioRead env (w.setRam { w.ram with setupTime := getTime env w })
  let w := Record.setLastBootTime env w.ram.setupTime w
  let w := Record.incrementBootCount env w
  if powerLost w.ram.bootflags then checkSensors env w else w

theorem prepare_eq (env : Env) (w : World) : prepare env w = survey env (establish env (wake env w)) := by
  dsimp only [prepare, survey, establish, wake]

theorem trail_wake {A : Event → Prop} (hp : ∀ k b, A (.pin k b)) : Trail A w (wake env w) :=
  ((Trail.refl w).setRam _).trans ((still_delay 4000).trans (still_lights hp 100 8)).trail

theorem wake_eeprom : (wake env w).hw.eeprom = w.hw.eeprom := by
  have ht : Trail (fun e => ∃ k b, e = .pin k b) w (wake env w) := trail_wake fun k b => ⟨k, b, rfl⟩
  exact funext fun a => trail_eeprom ht fun _ ⟨_, _, he⟩ => by cases he

theorem surveys_survey : Trail Event.Surveys w (survey env w) := by
  have hput : ∀ (v : World) (a n : Nat), 8 ≤ a → a ≤ 12 → Still Event.Surveys v (EEPROM.put env a 4 n v) :=
    fun v a n h₁ h₂ => still_put (fun b _ _ _ => Or.inl ⟨by omega, by omega⟩) n
  have hcheck : ∀ v : World, Trail Event.Surveys v (if powerLost v.ram.bootflags then checkSensors env v else v) := by
    intro v
    split
    · exact surveys_checkSensors.trail
    · exact Trail.refl v
  have hcount : ∀ (v : World) (t : UInt32),
      Trail Event.Surveys v (Record.incrementBootCount env (Record.setLastBootTime env t v)) := fun v t =>
    ((hput _ _ _ (by simp) (by simp)).trans (hput _ _ _ (by simp) (by simp))).trail
  simp only [survey]
  refine Trail.trans ?_ (hcheck _)
  refine Trail.trans ?_ (hcount _ _)
  exact ((Trail.refl w).setRam _).elapse env.latency 0

theorem initialized_init : Record.initialized (Record.init env w).hw.eeprom = true := by
  have hput : ∀ v : World, (EEPROM.put env Record.magicAddr 4 Record.magic v).hw.eeprom =
      Bytes.put Bytes.store Record.magicAddr 4 Record.magic v.hw.eeprom := fun v =>
    Bytes.read_put (fun w : World => w.hw.eeprom) (fun _ _ _ => rfl) _ _ _ _
  have hget : ∀ v : World,
      Record.initialized (EEPROM.put env Record.magicAddr 4 Record.magic v).hw.eeprom = true := by
    intro v
    rw [Record.initialized, hput, Bytes.get_put_self]
    decide
  exact hget _

/-- `prepare` は、必要なら記録を初期化し、その後は起動の時刻と回数、計測器の健康の値だけを書く。 -/
theorem prepare_inv (env : Env) (w : World) : ∃ u, Trail Event.Preparing w u ∧
    (Record.initialized w.hw.eeprom = true → u.hw.eeprom = w.hw.eeprom) ∧
    Record.initialized u.hw.eeprom = true ∧ Trail Event.Surveys u (prepare env w) := by
  rw [prepare_eq, establish]
  by_cases hi : Record.initialized (wake env w).hw.eeprom = true
  · rw [if_pos hi]
    refine ⟨w, Trail.refl w, fun _ => rfl, by rwa [wake_eeprom] at hi, ?_⟩
    exact ((trail_wake fun _ _ => trivial).trans trail_wagmanInit).trans surveys_survey
  · rw [if_neg hi]
    refine ⟨Record.init env (wake env w), (trail_wake fun _ _ => trivial).trans preparing_init.trail,
      fun h => absurd (by rwa [wake_eeprom]) hi, initialized_init, ?_⟩
    exact (trail_wagmanInit.trans (still_lights (fun _ _ => trivial) 20 16).trail).trans surveys_survey

/-- リセットの原因は、`prepare` の間に変わらない。 -/
theorem prepare_bootflags (env : Env) (w : World) : (prepare env w).ram.bootflags = w.hw.eeprom 0x41 := by
  have hpins : ∀ {v v' : World}, Still (fun _ => True) v v' → v'.ram.bootflags = v.ram.bootflags :=
    fun h => by rw [h.ram]
  have hwake : (wake env w).ram.bootflags = w.hw.eeprom 0x41 := by
    have hlights : Still (fun _ => True) (w.setRam { w.ram with bootflags := w.hw.eeprom 0x41 }) (wake env w) :=
      (still_delay 4000).trans (still_lights (fun _ _ => trivial) 100 8)
    exact hpins hlights
  have hsurvey : ∀ v : World, (survey env v).ram.bootflags = v.ram.bootflags := by
    intro v
    have hcheck : ∀ u : World, (if powerLost u.ram.bootflags then checkSensors env u else u).ram.bootflags =
        u.ram.bootflags := by
      intro u
      split
      · exact hpins (surveys_checkSensors.mono fun _ _ => trivial)
      · rfl
    have hput : ∀ (u : World) (a n : Nat), (EEPROM.put env a 4 n u).ram.bootflags = u.ram.bootflags :=
      fun u a n => hpins (still_put (fun _ _ _ _ => trivial) n)
    simp only [survey]
    refine (hcheck _).trans ?_
    rw [Record.incrementBootCount, Record.setBootCount, hput, Record.setLastBootTime, hput]
    rfl
  have hinit : ∀ v : World, (wagmanInit env v).ram.bootflags = v.ram.bootflags := fun _ => rfl
  rw [prepare_eq, hsurvey, establish]
  split
  · rw [hinit, hwake]
  · rw [hpins (still_lights (fun _ _ => trivial) 20 16), hinit, hpins (preparing_init.mono fun _ _ => trivial), hwake]

theorem trail_prepare (env : Env) (w : World) : Trail Event.Preparing w (prepare env w) := by
  obtain ⟨u, hu, -, -, ht⟩ := prepare_inv env w
  exact hu.trans (ht.mono fun _ he => he.preparing)

/-- 記録が初期化されていれば、`prepare` は、計測器の健康の値のほかのポートの記録を変えない。 -/
theorem prepare_record {i : Port} {o : Nat} (env : Env) (h : Record.initialized w.hw.eeprom = true) (ho : o < 128)
    (h₁ : o ≠ Record.portThermistorHealth) (h₂ : o ≠ Record.portCurrentHealth) :
    (prepare env w).hw.eeprom (Record.deviceRegion i + o) = w.hw.eeprom (Record.deviceRegion i + o) := by
  obtain ⟨u, -, hu, -, ht⟩ := prepare_inv env w
  rw [← hu h]
  refine trail_eeprom ht ?_
  rintro v (⟨-, h⟩ | ⟨j, h | h⟩)
  · simp only [Record.deviceRegion, Record.portRegionsStart] at h
    omega
  · exact h₁ (deviceRegion_add_inj ho (by simp) h).2
  · exact h₂ (deviceRegion_add_inj ho (by simp) h).2

/-! ## `Device::init` -/

/-- `Device::init` が最初に定める欄。 -/
def Device.initial (d : Device) : Device :=
  { d with
    shouldForceBootMedia := false
    forceBootMedia := .sd
    currentLevel := .low
    startDelay := 0
    stopTimeout := 60000 }

/-- 有効の印から決まる最初の状態。 -/
def initialState (m : Nat → UInt8) (i : Port) : State :=
  if Record.getDeviceEnabled m i then .stopped else .disabled

theorem setDev_setDev (i : Port) (d d' : Device) (w : World) :
    setDev i d' (setDev i d w) = setDev i d' w := by
  simp [setDev, Ram.setDevice, Machine.setRam]

theorem Device.init_eq (env : Env) (i : Port) (w : World) :
    Device.init env i w = Device.changeState i (initialState w.hw.eeprom i)
      (ioRead env (setDev i (dev w i).initial w)) := by
  simp only [Device.init, Device.setStopTimeout, dev_setDev_self, setDev_setDev, initialState]
  by_cases he : Record.getDeviceEnabled w.hw.eeprom i = true
  · have he' : Record.getDeviceEnabled (setDev i (dev w i).initial w).hw.eeprom i = true := he
    simp only [Device.initial] at he' ⊢
    simp only [he, he', if_true]
  · have he' : ¬ Record.getDeviceEnabled (setDev i (dev w i).initial w).hw.eeprom i = true := he
    simp only [Device.initial] at he' ⊢
    simp only [he, he', if_false, Bool.false_eq_true]

theorem frame_init {p i : Port} (h : p ≠ i) : Frame p w (Device.init env i w) := by
  rw [Device.init_eq]
  exact ((Frame.setDev _ h).trans (Frame.ofStill still_ioRead h)).trans (Frame.changeState _ h)

/-! ## 起動についての帰納法 -/

theorem quiet_arm : Quiet w (arm env w) := ⟨((Trail.refl w).setRam _).elapse env.latency 0, rfl⟩

/-- `devices[p]` の `Device::init` の前は `Q`、後は `P` が保たれるなら、`setup` の後に `P` が成り立つ。 -/
theorem setup_induct {p : Port} {Q P : World → Prop} (h₀ : Q (prepare env w)) (hset : ∀ v r, Q v → Q (v.setRam r))
    (hbefore : ∀ v v', Frame p v v' → Q v → Q v')
    (hinit : ∀ v, Q v → P (Device.init env p v)) (hframe : ∀ v v', Frame p v v' → P v → P v')
    (hown : ∀ v v', Prim env p v v' → P v → P v') : P (setup env w) := by
  have hprim : ∀ i v v', Prim env i v v' → P v → P v' := Prim.induct_on hframe hown
  have hdevices : ∀ v : World, Q v → P (eachPort (Device.init env) v) := fun v =>
    Run.foldl_visit (f := fun w i => Device.init env i w) (List.nodup_finRange 5) (List.mem_finRange p)
      (fun i v hi => hbefore _ _ (frame_init hi)) hinit (fun i v hi => hframe _ _ (frame_init hi))
  have hrecover : ∀ v : World, P v → P (eachPort (recoverRelay env) v) := fun v hv =>
    List.foldlRecOn (List.finRange 5) _ hv fun v hv i _ => prim_recoverRelay (hprim i) hv
  have harm : ∀ v : World, P v → P (arm env v) := fun v => prim_quiet hprim quiet_arm
  exact harm _ (hrecover _ (hdevices _ (hset _ _ h₀)))

/-- `devices[p]` の `Device::init` の前は `Q`、後は `P` が保たれるなら、起動の直後に `P` が成り立つ。 -/
theorem booted_induct {p : Port} {Q P : World → Prop} (h : Hardware) (h₀ : Q (powerOn h))
    (hprepare : ∀ v v', Trail Event.Preparing v v' → Q v → Q v')
    (hbefore : ∀ v v', Frame p v v' → Q v → Q v')
    (hinit : ∀ v, Q v → P (Device.init env p v)) (hframe : ∀ v v', Frame p v v' → P v → P v')
    (hown : ∀ v v', Prim env p v v' → P v → P v') : P (booted env h) :=
  setup_induct (hprepare _ _ (trail_prepare env _) h₀) (fun v r => hprepare _ _ ((Trail.refl v).setRam r)) hbefore
    hinit hframe hown

end Wagman.V3
