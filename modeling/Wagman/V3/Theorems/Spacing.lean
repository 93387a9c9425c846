import Wagman.V3.Lemmas.Recovery
import Wagman.Lib.Spacing

/-!
# リレーの切り替えの間隔

どのポートのリレーも、一つずつ、間を空けて切り替わる。`driveRelay` は切り替えの前後で待ち、ほかの処理と重ならない。
-/

namespace Wagman.V3

open Machine

/-- リレーの切り替えの後、どのポートの次の切り替えまでも空く時間。ポート 0 は、ラッチを働かせる分だけ長い。 -/
def Event.hold : Event → Option Nat
  | .relay p _ => some (if p = 0 then 720 else 570)
  | _ => none

variable {env : Env} {i : Port} {w w' : World}

theorem Event.Global.hold {e : Event} (h : e.Global) : e.hold = none := by
  cases e with
  | relay p on => exact absurd rfl (h p)
  | _ => rfl

theorem Event.Records.hold {e : Event} (h : e.Records i) : e.hold = none := by
  cases e with
  | eeprom a v => rfl
  | _ => exact h.elim

theorem Event.Preparing.hold {e : Event} (h : e.Preparing) : e.hold = none := by
  cases e with
  | eeprom a v => rfl
  | pin k b => rfl
  | _ => exact h.elim

/-! ## 一回の切り替え -/

theorem idle_write (a : Nat) (v : UInt8) (w : World) : Still (fun e => e.hold = none) w (EEPROM.write env a v w) :=
  still_write rfl

theorem setRelay_now (on : Bool) : w.now + (if i = 0 then 200 else 50) ≤ (setRelay env i on w).now := by
  have hnow : ∀ (k : Nat) (b : Bool) (v : World), v.now + 50 ≤ (delay env 50 (digitalWrite env k b v)).now := by
    intro k b v
    simp only [delay, digitalWrite, Machine.elapse, Machine.emit]
    omega
  have hmark : (w.mark (.relay i on)).now = w.now := rfl
  unfold setRelay
  split
  · have h₁ := hnow powerLatch0Pin false (w.mark (.relay i on))
    have h₂ := hnow (powerPin i) on (delay env 50 (digitalWrite env powerLatch0Pin false (w.mark (.relay i on))))
    have h₃ := hnow powerLatch0Pin true
      (delay env 50 (digitalWrite env (powerPin i) on
        (delay env 50 (digitalWrite env powerLatch0Pin false (w.mark (.relay i on))))))
    refine Nat.le_trans ?_ (hnow powerLatch0Pin false _)
    omega
  · exact hnow (powerPin i) on (w.mark (.relay i on))

theorem paced_driveRelay (t s : UInt8) (on : Bool) (h : Paced Event.hold 10 w) :
    Paced Event.hold 10 (Device.driveRelay env i t on s w) := by
  have hwrite : ∀ (v : UInt8) (u : World),
      Trail (fun e => e.hold = none) u (delay env 10 (Record.setRelayState env i v u)) := fun v u =>
    ((idle_write _ v u).trans (still_delay 10)).trail
  have hnow : ∀ (v : UInt8) (u : World), u.now + 10 ≤ (delay env 10 (Record.setRelayState env i v u)).now := by
    intro v u
    simp only [delay, Record.setRelayState, EEPROM.write, Machine.elapse, Machine.emit]
    omega
  have hset : (delay env 10 (Record.setRelayState env i t w)).now + (if i = 0 then 200 else 50) ≤
      (setRelay env i on (delay env 10 (Record.setRelayState env i t w))).now := setRelay_now on
  refine h.pulse (hwrite t w) (hnow t w) (e := .relay i on) rfl
    ((trail_setRelay (fun _ _ => rfl) on).trans ((still_delay 500).trail.trans (hwrite s _))) ?_
  have hlast := hnow s (delay env 500 (setRelay env i on (delay env 10 (Record.setRelayState env i t w))))
  have hrest : ∀ u : World, u.now + 500 ≤ (delay env 500 u).now := fun u => Nat.le_add_right _ _
  have hwait := hrest (setRelay env i on (delay env 10 (Record.setRelayState env i t w)))
  refine Nat.le_trans ?_ (Nat.add_le_add_right hlast 10)
  split
  · rename_i hi
    rw [if_pos hi] at hset
    omega
  · rename_i hi
    rw [if_neg hi] at hset
    omega

/-! ## 実行 -/

theorem paced_changeState (s : State) (h : Paced Event.hold 10 w) : Paced Event.hold 10 (Device.changeState i s w) :=
  h.of_trail ((trail_setDev i _).mark rfl)

theorem paced_powerUp (h : Paced Event.hold 10 w) : Paced Event.hold 10 (Device.powerUp env i w) := by
  have hselect : Trail (fun e => e.hold = none) w (Device.selectMedia env i w) :=
    ((trail_setDev i _).trans (trail_setDev i _)).trans (still_setBootMedia fun _ _ => rfl).trail
  have hrecord : ∀ v : World, Trail (fun e => e.hold = none) v (Device.recordBoot env i v) := fun v =>
    (still_recordBoot fun _ _ _ => rfl).trail
  exact paced_changeState .started (paced_driveRelay _ _ _ (h.of_trail (hselect.trans (hrecord _))))

theorem paced_powerDown (h : Paced Event.hold 10 w) : Paced Event.hold 10 (Device.powerDown env i w) :=
  (paced_changeState .stopped (paced_driveRelay _ _ _ h)).of_trail ((Trail.refl _).setRam _)

theorem paced_kill (h : Paced Event.hold 10 w) : Paced Event.hold 10 (Device.kill env i w).2 := by
  unfold Device.kill
  split
  · exact h
  · exact paced_powerDown h

theorem paced_disable (h : Paced Event.hold 10 w) : Paced Event.hold 10 (Device.disable env i w) := by
  by_cases hi : i = 0
  · simp only [Device.disable, hi, ne_eq, not_true_eq_false, if_false]
    exact paced_kill h
  · simp only [Device.disable, ne_eq, hi, not_false_eq_true, if_true]
    exact paced_changeState .disabled (paced_kill (h.of_trail (idle_write _ _ w).trail))

theorem Prim.paced (hp : Prim env i w w') (h : Paced Event.hold 10 w) : Paced Event.hold 10 w' := by
  cases hp with
  | quiet hq => exact h.of_trail (hq.trail.mono fun _ he => he.hold)
  | tweak d _ => exact h.of_trail (trail_setDev i d)
  | beat => exact h.of_trail ((trail_setDev i _).mark rfl)
  | record hr => exact h.of_trail (hr.trail.mono fun _ he => he.hold)
  | media m => exact h.of_trail ((trail_setDev i _).trans (still_setBootMedia fun _ _ => rfl).trail)
  | wake _ => exact paced_changeState .started h
  | halt _ => exact paced_changeState .stopping h
  | on _ => exact paced_powerUp h
  | off _ => exact paced_powerDown h
  | enable =>
      have hmark : Trail (fun e => e.hold = none) w (w.mark (.enable i)) := (Trail.refl w).mark rfl
      exact paced_changeState .stopped (h.of_trail (hmark.trans (idle_write _ _ _).trail))
  | disable => exact paced_disable h

theorem paced_booted (env : Env) (h : Hardware) : Paced Event.hold 10 (booted env h) := by
  have hon : Paced Event.hold 10 (powerOn h) := ⟨List.Pairwise.nil, fun _ hx => by cases hx⟩
  have hprepare := hon.of_trail ((trail_prepare env (powerOn h)).mono fun _ he => he.hold)
  have hinit : ∀ v : World, Paced Event.hold 10 v → Paced Event.hold 10 (eachPort (Device.init env) v) := fun v hv =>
    List.foldlRecOn (List.finRange 5) _ hv fun _ hv i _ => hv.of_trail (Device.trail_init fun _ => rfl)
  have hrecover : ∀ v : World, Paced Event.hold 10 v → Paced Event.hold 10 (eachPort (recoverRelay env) v) :=
    fun v hv => List.foldlRecOn (List.finRange 5) _ hv fun _ hv i _ => prim_recoverRelay (fun _ _ hp => hp.paced) hv
  exact (hrecover _ (hinit _ (hprepare.of_trail ((Trail.refl _).setRam _)))).of_trail
    (quiet_arm.trail.mono fun _ he => he.hold)

/-- どの EEPROM の内容から起動したどの実行でも、どのポートのものでも、二つのリレーの切り替えは 570 ミリ秒以上離れている。先の
切り替えがポート 0 のものなら、720 ミリ秒以上離れている。 -/
theorem relays_spaced (env : Env) (h : Hardware) (ops : List Op) :
    Spaced Event.hold (run env ops (booted env h)).log :=
  (run_induct (fun _ _ _ hp => hp.paced) ops (paced_booted env h)).spaced

end Wagman.V3
