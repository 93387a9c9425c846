import Wagman.V3.Lemmas.Setup

/-!
# リレーの回復

`setupDevices` を、ポート `i` の回復の前、ポート `i` の回復、その後に分ける。前と後は、ポート `i` の EEPROM の領域と
リレーに触れない。`setupDevices` の前は、`Record::init` を除けば、起動の時刻と回数、計測器の健康の値だけを書く。
-/

namespace Wagman.V3

open Machine

/-- リレーの遷移を記した番地。 -/
def journalAddr (p : Port) : Nat := Record.deviceRegion p + Record.portRelayJournal

/-- リレーの切り替えの途中であると記されている。 -/
def Turning (m : Nat → UInt8) (i : Port) : Prop :=
  Record.getRelayState m i = relayTurningOn ∨ Record.getRelayState m i = relayTurningOff

instance (m : Nat → UInt8) (i : Port) : Decidable (Turning m i) := inferInstanceAs (Decidable (_ ∨ _))

variable {env : Env} {i j : Port} {w v : World}

/-! ## 一つのポートの回復 -/

/-- 回復が `devices[i]` を切るまでの部分。 -/
def beginRecovery (env : Env) (i : Port) (w : World) : World := Record.setRelayState env i relayOff (ioRead env w)

theorem recoverRelay_of_turning (h : Turning w.hw.eeprom i) : recoverRelay env i w =
    if powerLost w.ram.bootflags then Device.disable env i (beginRecovery env i w)
    else (Device.kill env i (beginRecovery env i w)).2 := if_pos h

theorem recoverRelay_of_not_turning (h : ¬ Turning w.hw.eeprom i) : recoverRelay env i w = ioRead env w := if_neg h

theorem disable_of_ne_zero (h : i ≠ 0) : Device.disable env i w =
    Device.changeState i .disabled (Device.kill env i (Record.setDeviceEnabled env i false w)).2 := by
  simp [Device.disable, h]

theorem disable_zero : Device.disable env 0 w = (Device.kill env 0 w).2 := by simp [Device.disable]

theorem powerDown_bootflags : (Device.powerDown env i w).ram.bootflags = w.ram.bootflags := by
  have hdrive : Still (fun _ => True) w (Device.driveRelay env i relayTurningOff false relayOff w) :=
    still_driveRelay trivial (fun _ _ => trivial) (fun _ => trivial)
  have hram := congrArg Ram.bootflags hdrive.ram
  exact hram

theorem kill_bootflags : (Device.kill env i w).2.ram.bootflags = w.ram.bootflags := by
  unfold Device.kill
  split
  · rfl
  · exact powerDown_bootflags

/-- 回復は、リセットの原因の記憶を変えない。 -/
theorem recoverRelay_bootflags : (recoverRelay env i w).ram.bootflags = w.ram.bootflags := by
  by_cases ht : Turning w.hw.eeprom i
  · rw [recoverRelay_of_turning ht]
    split
    · by_cases hi : i = 0
      · subst hi
        rw [disable_zero]
        exact kill_bootflags
      · rw [disable_of_ne_zero hi]
        exact kill_bootflags
    · exact kill_bootflags
  · rw [recoverRelay_of_not_turning ht]
    rfl

/-- 回復は、ポート `i` のリレーと状態、リレーの記録、有効の印だけを変える。 -/
structure Recovers (A : Event → Prop) (i : Port) : Prop where
  relay : ∀ on, A (.relay i on)
  state : ∀ s, A (.state i s)
  pin : ∀ k b, A (.pin k b)
  journal : ∀ v, A (.eeprom (Record.deviceRegion i + Record.portRelayJournal) v)

section Recovers

variable {A : Event → Prop} (hA : Recovers A i)

include hA

theorem Recovers.kill : Trail A w (Device.kill env i w).2 := by
  unfold Device.kill
  split
  · exact Trail.refl w
  · have hdrive : Still A w (Device.driveRelay env i relayTurningOff false relayOff w) :=
      still_driveRelay (hA.relay false) hA.pin hA.journal
    exact ((hdrive.trail.setRam _).mark (hA.state .stopped)).setRam _

theorem Recovers.disable (he : ∀ v, A (.eeprom (Record.deviceRegion i + Record.portEnabled) v)) :
    Trail A w (Device.disable env i w) := by
  by_cases hi : i = 0
  · subst hi
    rw [disable_zero]
    exact hA.kill
  · rw [disable_of_ne_zero hi]
    exact (((still_write (he _)).trail.trans hA.kill).setRam _).mark (hA.state .disabled)

theorem Recovers.recoverRelay (he : ∀ v, A (.eeprom (Record.deviceRegion i + Record.portEnabled) v)) :
    Trail A w (recoverRelay env i w) := by
  have hbegin : Still A w (beginRecovery env i w) := still_ioRead.trans (still_write (hA.journal _))
  by_cases ht : Turning w.hw.eeprom i
  · rw [recoverRelay_of_turning ht]
    split
    · exact hbegin.trail.trans (hA.disable he)
    · exact hbegin.trail.trans hA.kill
  · rw [recoverRelay_of_not_turning ht]
    exact still_ioRead.trail

end Recovers

theorem frame_recoverRelay (h : i ≠ j) : Frame i w (recoverRelay env j w) :=
  prim_recoverRelay (P := fun v => Frame i w v) (fun _ _ hp hv => hv.trans (hp.frame h)) (Frame.refl w)

/-! ## `setupDevices` の分解 -/

/-- ポート `i` について、状態を記すほかには何もしない事象。 -/
def Event.Enters (i : Port) (e : Event) : Prop := e.About i → ∃ s, e = .state i s

theorem enters_eeprom {o : Nat} (ho : o < 128) (val : UInt8) :
    ¬ Event.Enters i (.eeprom (Record.deviceRegion i + o) val) := by
  intro h
  obtain ⟨s, hs⟩ := h ⟨o, ho, rfl⟩
  cases hs

/-- `w` で始まった `setupDevices` が、ポート `i` の回復の直前に `v` にある。 -/
structure Awaits (i : Port) (w v : World) : Prop where
  trail : Trail (Event.Enters i) w v
  state : (dev v i).state = initialState w.hw.eeprom i
  bootflags : v.ram.bootflags = w.ram.bootflags

namespace Awaits

theorem byte_eq (h : Awaits i w v) {o : Nat} (ho : o < 128) :
    v.hw.eeprom (Record.deviceRegion i + o) = w.hw.eeprom (Record.deviceRegion i + o) :=
  trail_eeprom h.trail fun val => enters_eeprom ho val

theorem turning_iff (h : Awaits i w v) : Turning v.hw.eeprom i ↔ Turning w.hw.eeprom i := by
  simp only [Turning, Record.getRelayState, h.byte_eq (o := Record.portRelayJournal) (by simp)]

end Awaits

theorem Device.init_bootflags (env : Env) (i : Port) (w : World) :
    (Device.init env i w).ram.bootflags = w.ram.bootflags := by
  rw [Device.init_eq]
  rfl

theorem initialState_congr {m m' : Nat → UInt8}
    (h : m (Record.deviceRegion i + Record.portEnabled) = m' (Record.deviceRegion i + Record.portEnabled)) :
    initialState m i = initialState m' i := by
  have he : Record.getDeviceEnabled m i = Record.getDeviceEnabled m' i := by
    simp only [Record.getDeviceEnabled, h]
  rw [initialState, initialState, he]

theorem Device.trail_init {A : Event → Prop} (h : ∀ s, A (.state j s)) : Trail A v (Device.init env j v) := by
  rw [Device.init_eq]
  exact (((Trail.refl v).setRam _).elapse env.latency 0).trans (((Trail.refl _).setRam _).mark (h _))

theorem trail_setupDevices {A : Event → Prop} (hA : ∀ i, Recovers A i)
    (he : ∀ i v, A (.eeprom (Record.deviceRegion i + Record.portEnabled) v)) : Trail A w (setupDevices env w) := by
  have hfold : ∀ (f : Port → World → World), (∀ i v, Trail A v (f i v)) → ∀ v, Trail A v (eachPort f v) := by
    intro f hf v
    exact List.foldlRecOn (List.finRange 5) _ (motive := fun u => Trail A v u) (Trail.refl v)
      fun u hu i _ => hu.trans (hf i u)
  exact ((Trail.refl w).setRam _).trans
    ((hfold _ (fun i v => Device.trail_init (hA i).state) _).trans
      (hfold _ (fun i v => (hA i).recoverRelay (he i)) _))

/-- すべての機器の `Device::init` の後では、どのポートも回復を待つ。 -/
theorem awaits_init (env : Env) (i : Port) (w : World) : Awaits i w (eachPort (Device.init env)
    (w.setRam { w.ram with devices := fun i => setupDevice i (w.ram.devices i) })) := by
  have htrail : ∀ (j : Port) (v : World), Trail (Event.Enters i) v (Device.init env j v) := by
    refine fun j v => Device.trail_init fun s => ?_
    rintro rfl
    exact ⟨s, rfl⟩
  refine Run.foldl_visit (f := fun w i => Device.init env i w) (p := i)
    (Q := fun v => Trail (Event.Enters i) w v ∧ v.ram.bootflags = w.ram.bootflags)
    (List.nodup_finRange 5) (List.mem_finRange i) ?_ ?_ ?_ ⟨(Trail.refl w).setRam _, rfl⟩
  · rintro j v - ⟨ht, hb⟩
    exact ⟨ht.trans (htrail j v), (Device.init_bootflags env j v).trans hb⟩
  · rintro v ⟨ht, hb⟩
    refine ⟨ht.trans (htrail i v), ?_, (Device.init_bootflags env i v).trans hb⟩
    rw [Device.init_eq, dev_changeState]
    exact initialState_congr (trail_eeprom ht fun val => enters_eeprom (by simp) val)
  · intro j v hj hv
    exact ⟨hv.trail.trans (htrail j v), by rw [(frame_init hj).dev, hv.state],
      (Device.init_bootflags env j v).trans hv.bootflags⟩

/-- `setupDevices` は、ポート `i` の回復を待つ状態に達し、回復の後はポート `i` に関わらない。 -/
theorem setupDevices_at (env : Env) (i : Port) (w : World) :
    ∃ v, Awaits i w v ∧ Frame i (recoverRelay env i v) (setupDevices env w) := by
  have hsetup : setupDevices env w =
      (List.finRange 5).foldl (fun w i => recoverRelay env i w) (eachPort (Device.init env)
      (w.setRam { w.ram with devices := fun i => setupDevice i (w.ram.devices i) })) := rfl
  rw [hsetup]
  refine Run.foldl_visit (f := fun w i => recoverRelay env i w) (p := i) (Q := fun v => Awaits i w v)
    (P := fun v' => ∃ v, Awaits i w v ∧ Frame i (recoverRelay env i v) v')
    (List.nodup_finRange 5) (List.mem_finRange i) ?_ ?_ ?_ (awaits_init env i w)
  · intro j v hj hv
    have hf : Frame i v (recoverRelay env j v) := frame_recoverRelay hj
    exact ⟨hv.trail.trans (hf.trail.mono fun _ he ha => absurd ha he), by rw [hf.dev, hv.state],
      recoverRelay_bootflags.trans hv.bootflags⟩
  · exact fun v hv => ⟨v, hv, Frame.refl _⟩
  · rintro j v' hj ⟨v, hv, hf⟩
    exact ⟨v, hv, hf.trans (frame_recoverRelay hj)⟩

end Wagman.V3
