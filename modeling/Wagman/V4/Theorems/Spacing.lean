import Wagman.V4.Lemmas.Setup
import Wagman.Lib.Spacing

/-!
# リレーのラッチの間隔

どのポートのラッチも、一つずつ、間を空けて値を取り込む。`driveRelay` は、ラッチの立ち上がりの前に 110 ミリ秒以上、後に 710 ミリ秒
以上待ち、ほかの処理と重ならない。
-/

namespace Wagman.V4

open Machine

/-- ラッチの `clk` を上げた後、どのポートのラッチの `clk` を次に上げるまでも空く時間。 -/
def Event.hold : Event → Option Nat
  | .pin k level => if level = true ∧ ∃ p, k = relayClk p then some 820 else none
  | _ => none

/-- 間隔に関わらない事象。 -/
abbrev Event.Free (e : Event) : Prop := e.hold = none

variable {env : Env} {i : Port} {w w' : World}

theorem hold_rise (i : Port) : Event.hold (.pin (relayClk i) true) = some 820 := if_pos ⟨rfl, i, rfl⟩

theorem free_fall (k : Nat) : Event.Free (.pin k false) := by simp [Event.Free, Event.hold]

theorem free_pin {k : Nat} (h : ∀ p, k ≠ relayClk p) (b : Bool) : Event.Free (.pin k b) :=
  if_neg fun ⟨_, p, hp⟩ => h p hp

theorem Event.Quiet.free {e : Event} (h : e.Quiet) : e.Free := by
  cases e with
  | pin k b => exact free_pin (led_ne_relayClk h) b
  | _ => rfl

theorem Event.Preparing.free {e : Event} (h : e.Preparing) : e.Free := by
  cases e with
  | pin k b =>
      refine free_pin (fun p hp => ?_) b
      rcases h with hk | hk
      · exact ncAutoDisable_ne_relayClk p (hk.symm.trans hp)
      · exact led_ne_relayClk hk p hp
  | _ => rfl

theorem free_write (a : Nat) (v : UInt8) (w : World) : Still Event.Free w (EEPROM.write env a v w) := still_write rfl

theorem free_put (a n : Nat) : Still Event.Free w (EEPROM.put env a 4 n w) := still_put (fun _ _ _ _ => rfl) n

/-! ## 一回の切り替え -/

/-- `driveRelay` のうち、ラッチの立ち上がりの直前まで。 -/
def beforeRise (env : Env) (i : Port) (turning : UInt8) (mode : Bool) (w : World) : World :=
  w |> Record.setRelayState env i turning
    |> delay env 10
    |> (mark (.relay i mode) ·)
    |> digitalWrite env (relayClk i) false
    |> digitalWrite env (relayD i) mode
    |> delay env 100

/-- `driveRelay` のうち、ラッチの立ち上がりの後。 -/
def afterRise (env : Env) (i : Port) (settled : UInt8) (w : World) : World :=
  w |> delay env 100
    |> digitalWrite env (relayClk i) false
    |> digitalWrite env (relayD i) false
    |> delay env 100
    |> delay env 500
    |> Record.setRelayState env i settled
    |> delay env 10

theorem driveRelay_eq (t s : UInt8) (mode : Bool) :
    Device.driveRelay env i t mode s w =
      afterRise env i s (digitalWrite env (relayClk i) true (beforeRise env i t mode w)) := rfl

theorem trail_beforeRise (t : UInt8) (mode : Bool) : Trail Event.Free w (beforeRise env i t mode w) := by
  have hd : Event.Free (.pin (relayD i) mode) := free_pin (relayD_ne_relayClk i) mode
  have hrecord : Trail Event.Free w (delay env 10 (Record.setRelayState env i t w)) :=
    ((free_write _ t w).trans (still_delay 10)).trail
  have hlow : ∀ v : World,
      Still Event.Free v (delay env 100 (digitalWrite env (relayD i) mode
        (digitalWrite env (relayClk i) false v))) := fun v =>
    (still_digitalWrite (free_fall _)).trans ((still_digitalWrite hd).trans (still_delay 100))
  have hmark : Trail Event.Free w ((delay env 10 (Record.setRelayState env i t w)).mark (.relay i mode)) :=
    hrecord.mark rfl
  exact hmark.trans (hlow _).trail

theorem trail_afterRise (s : UInt8) : Trail Event.Free w (afterRise env i s w) :=
  ((still_delay 100).trans <| (still_digitalWrite (free_fall _)).trans <| (still_digitalWrite (free_fall _)).trans <|
    (still_delay 100).trans <| (still_delay 500).trans <| (free_write _ s _).trans (still_delay 10)).trail

theorem beforeRise_now (t : UInt8) (mode : Bool) : w.now + 110 ≤ (beforeRise env i t mode w).now := by
  simp only [beforeRise, delay, digitalWrite, Record.setRelayState, EEPROM.write, Machine.elapse, Machine.emit,
    Machine.mark]
  omega

theorem afterRise_now (s : UInt8) : w.now + 710 ≤ (afterRise env i s w).now := by
  simp only [afterRise, delay, digitalWrite, Record.setRelayState, EEPROM.write, Machine.elapse, Machine.emit]
  omega

theorem paced_driveRelay (t s : UInt8) (mode : Bool) (h : Paced Event.hold 110 w) :
    Paced Event.hold 110 (Device.driveRelay env i t mode s w) := by
  have hemit : Trail Event.Free ((beforeRise env i t mode w).mark (.pin (relayClk i) true))
      (digitalWrite env (relayClk i) true (beforeRise env i t mode w)) := Trail.of_mark env.latency
  have hrise : ∀ v : World, v.now ≤ (digitalWrite env (relayClk i) true v).now := fun _ => Nat.le_add_right _ _
  have hafter : ∀ v : World, v.now + 710 ≤ (afterRise env i s v).now := fun _ => afterRise_now s
  rw [driveRelay_eq]
  refine h.pulse (trail_beforeRise t mode) (beforeRise_now t mode) (hold_rise i) (hemit.trans (trail_afterRise s)) ?_
  exact Nat.add_le_add_right (Nat.le_trans (Nat.add_le_add_right (hrise _) 710) (hafter _)) 110

/-! ## 実行 -/

theorem paced_changeState (s : State) (h : Paced Event.hold 110 w) : Paced Event.hold 110 (Device.changeState i s w) :=
  h.of_trail (trail_changeState rfl)

theorem paced_enable (h : Paced Event.hold 110 w) : Paced Event.hold 110 (Device.enable env i w) :=
  paced_changeState .stopped (h.of_trail (free_write _ _ w).trail)

theorem paced_powerUp (h : Paced Event.hold 110 w) : Paced Event.hold 110 (Device.powerUp env i w) := by
  have hselect : Trail Event.Free w (Device.selectMedia env i w) :=
    trail_selectMedia (fun _ => rfl) fun s b => free_pin (bootSelectorPin_ne_relayClk s) b
  have hrecord : ∀ v : World, Trail Event.Free v (Device.recordBoot env i v) := fun v =>
    (still_recordBoot fun _ _ _ => rfl).trail
  exact paced_changeState .started (paced_driveRelay _ _ _ (h.of_trail (hselect.trans (hrecord _))))

theorem paced_powerDown (h : Paced Event.hold 110 w) : Paced Event.hold 110 (Device.powerDown env i w) :=
  (paced_changeState .stopped (paced_driveRelay _ _ _ h)).of_trail (((Trail.refl _).setRam _).mark rfl)

theorem Prim.paced (hp : Prim env i Tick w w') (h : Paced Event.hold 110 w) : Paced Event.hold 110 w' := by
  cases hp with
  | frame ht => exact h.of_trail (ht.trail.mono fun _ he => he.free)
  | tweak d _ => exact h.of_trail (trail_setDev i d)
  | beat => exact h.of_trail ((trail_setDev i _).mark rfl)
  | refuse _ _ => exact paced_changeState .disabled (h.of_trail (free_write _ _ w).trail)
  | halt _ => exact paced_changeState .stopping h
  | revive _ _ => exact paced_enable h
  | off _ => exact paced_powerDown h
  | on _ => exact paced_powerUp h
  | fail _ => exact h.of_trail (free_put _ _).trail
  | media m => exact h.of_trail (trail_setNextBootMedia rfl fun s b => free_pin (bootSelectorPin_ne_relayClk s) b)

theorem paced_start (h : Paced Event.hold 110 w) : Paced Event.hold 110 (Device.start env i w).2 :=
  prim_start (fun _ _ hp => hp.paced) h

theorem paced_beginStart (b : Bool) (h : Paced Event.hold 110 w) : Paced Event.hold 110 (beginStart i b w) :=
  h.of_trail (((Trail.refl _).setRam _).mark rfl)

theorem Idle.paced (hi : Idle w w') (h : Paced Event.hold 110 w) : Paced Event.hold 110 w' :=
  h.of_trail (hi.trail.mono fun _ he => he.free)

theorem Step.paced {o : Op} (hs : Step env o w w') (hall : w.ram.shouldResetAll = false) (h : Paced Event.hold 110 w) :
    Paced Event.hold 110 w' := by
  have hP : ∀ (i : Port) (v v' : World), Prim env i Tick v v' → Paced Event.hold 110 v → Paced Event.hold 110 v' :=
    fun _ _ _ hp => hp.paced
  cases hs with
  | tick ht => exact h.of_trail (ht.trail.mono fun _ he => he.free)
  | update i =>
      exact prim_updateState (hP i) (prim_sense (hP i) (fun _ _ _ _ hb => paced_changeState .started hb) h)
  | next _ =>
      rcases startNextDevice_inv env w with he | ⟨i, -, -, he⟩ | ⟨i, -, -, -, he⟩
      · rw [he]
        exact h
      · rw [he]
        exact (paced_start (paced_beginStart true h)).of_trail ((Trail.refl _).setRam _)
      · rw [he]
        exact paced_start (paced_beginStart false h)
  | ping i _ _ _ h₁ h₂ =>
      exact h₂.paced (prim_onHeartbeat (hP i) (fun _ hb => paced_changeState .started hb) (h₁.paced h))
  | start i _ _ h₁ => exact h₁.paced (h.of_trail ((Trail.refl w).setRam _))
  | stop i t _ _ h₁ => exact h₁.paced (prim_stop (hP i) (prim_setStopTimeout (hP i) t h))
  | enable i _ _ h₁ => exact h₁.paced (paced_enable h)
  | media i m _ _ _ h₁ => exact h₁.paced (hP i _ _ (.media m) h)
  | eereset _ h₁ => exact h₁.paced (h.of_trail (free_put _ _).trail)
  | reset _ => exact h.of_trail (((Trail.refl w).setRam _).emit _ rfl)
  | resetAll hr => cases hall.symm.trans hr

theorem paced_booted (env : Env) (h : Hardware) : Paced Event.hold 110 (booted env h) := by
  have hon : Paced Event.hold 110 (powerOn h) := ⟨List.Pairwise.nil, fun _ hx => by cases hx⟩
  rw [booted_eq]
  exact paced_start (hon.of_trail ((trail_armed env h).mono fun _ he => he.free))

/-- どの EEPROM の内容から起動したどの実行でも、どのポートのものでも、ラッチの二つの立ち上がりは 820 ミリ秒以上離れている。 -/
theorem latches_spaced (env : Env) (h : Hardware) {ops : List Op} (hrun : run env ops (booted env h) = some w) :
    Machine.Spaced Event.hold w.log := by
  have hinv := run_induct (C := fun _ _ => True) (P := Paced Event.hold 110) (fun _ _ _ _ ha hs => hs.paced ha) hrun
    (Run.Meets.of_forall (fun _ _ => trivial) _) (paced_booted env h)
  exact hinv.2.spaced

/-- 起動でポート 0 の、要求でポート 1 のラッチが立ち上がる。二つは 820 ミリ秒以上離れている。 -/
theorem latches_spaced_request : ∃ w, run Env.ideal [.request true 0 ⟨0xc007, 2, none⟩, .startNext]
    (booted Env.ideal Hardware.ready) = some w ∧
      (w.log.filter fun x => x.event.hold.isSome).length = 2 ∧ Machine.Spaced Event.hold w.log := by
  have hb : ((run Env.ideal [.request true 0 ⟨0xc007, 2, none⟩, .startNext] (booted Env.ideal Hardware.ready)).any
      fun w => (w.log.filter fun x => x.event.hold.isSome).length == 2) = true := by decide +kernel
  obtain ⟨w, hw, hlength⟩ := (Option.any_eq_true _ _).mp hb
  exact ⟨w, hw, beq_iff_eq.mp hlength, latches_spaced Env.ideal Hardware.ready hw⟩

end Wagman.V4
