import Wagman.V3.Lemmas.Setup

/-!
# 有効の印と `DISABLED`

ポート 0 のほかの機器は、EEPROM の有効の印が 0 のときに、そのときに限って `DISABLED` である。`DISABLED` になった機器は、
`enable()` されるまで、リレーを入れられず、状態も変わらない。
-/

namespace Wagman.V3

open Machine

/-! ## 無効にされてからの記録 -/

/-- 記録の中で、`devices[p]` が `DISABLED` になってから `enable()` されていない。 -/
def asleep (p : Port) : Log → Bool
  | [] => false
  | ⟨_, .enable q⟩ :: l => q != p && asleep p l
  | ⟨_, .state q s⟩ :: l => (q == p && s == .disabled) || asleep p l
  | _ :: l => asleep p l

/-- 最後の事象が、無効な機器のリレーを入れたり、状態を変えたりしていない。 -/
def Undisturbed (p : Port) : Log → Prop
  | [] => True
  | x :: l => asleep p l = true → x.event ≠ .relay p true ∧ ∀ s, x.event = .state p s → s = .disabled

/-- `devices[p]` の状態とリレーに関わる事象。 -/
def Event.Disturbs (p : Port) : Event → Prop
  | .relay q on => q = p ∧ on = true
  | .state q _ => q = p
  | .enable q => q = p
  | _ => False

theorem not_disturbs_of_not_about {p : Port} {e : Event} (h : ¬ e.About p) : ¬ e.Disturbs p := by
  cases e with
  | relay q on => exact fun hq => h hq.1
  | state q s => exact h
  | enable q => exact h
  | _ => exact id

theorem asleep_cons {p : Port} {x : Entry Event} (hx : ¬ x.event.Disturbs p) (l : Log) :
    asleep p (x :: l) = asleep p l := by
  obtain ⟨t, e⟩ := x
  cases e with
  | enable q =>
      have hq : q ≠ p := hx
      simp [asleep, hq]
  | state q s =>
      have hq : q ≠ p := hx
      simp [asleep, hq]
  | _ => rfl

theorem undisturbed_cons {p : Port} {x : Entry Event} (hx : ¬ x.event.Disturbs p) (l : Log) :
    Undisturbed p (x :: l) := by
  intro _
  refine ⟨fun h => ?_, fun s h => ?_⟩
  · rw [h] at hx
    exact absurd ⟨rfl, rfl⟩ hx
  · rw [h] at hx
    exact absurd rfl hx

/-- 有効の印の番地。 -/
def enabledAddr (p : Port) : Nat := Record.deviceRegion p + Record.portEnabled

/-- 記録と状態の対応。操作の途中でも成り立つ。 -/
structure Watched (p : Port) (w : World) : Prop where
  asleep : asleep p w.log = true ↔ (dev w p).state = .disabled
  undisturbed : Always (Undisturbed p) w.log

namespace Watched

variable {env : Env} {p : Port} {w w' : World}

theorem of_trail (h : Trail (fun e => ¬ e.Disturbs p) w w') (hs : (dev w' p).state = (dev w p).state)
    (hw : Watched p w) : Watched p w' := by
  have hlog : V3.asleep p w'.log = V3.asleep p w.log := h.log_eq fun x l hx => asleep_cons hx l
  refine ⟨by rw [hlog, hs]; exact hw.asleep, ?_⟩
  have hcur : Undisturbed p w.log := hw.undisturbed _ (List.suffix_refl _)
  exact (h.always (K := Undisturbed p) (fun x l hx _ => undisturbed_cons hx l) (fun _ h => h) hcur
    hw.undisturbed).2

theorem of_awake (h : Trail (fun e => (∀ s, e ≠ .state p s) ∧ e ≠ .enable p) w w')
    (hs : (dev w' p).state = (dev w p).state) (hd : (dev w p).state ≠ .disabled) (hw : Watched p w) :
    Watched p w' := by
  have hfalse : V3.asleep p w.log = false := by
    rw [← Bool.not_eq_true, hw.asleep]
    exact hd
  have hcons : ∀ (x : Entry Event) (l : Log), (∀ s, x.event ≠ .state p s) ∧ x.event ≠ .enable p →
      V3.asleep p l = false → V3.asleep p (x :: l) = false := by
    rintro ⟨t, e⟩ l ⟨hst, hen⟩ hl
    cases e with
    | enable q => simp [V3.asleep, hl]
    | state q s =>
        have hq : q ≠ p := fun hq => hst s (by rw [hq])
        simp [V3.asleep, hq, hl]
    | _ => exact hl
  have hstep := h.always (K := fun l => V3.asleep p l = false ∧ Undisturbed p l)
    (fun x l hx hl => ⟨hcons x l hx hl.1, fun ha => by rw [hl.1] at ha; cases ha⟩) (fun _ hl => hl.2)
    ⟨hfalse, hw.undisturbed _ (List.suffix_refl _)⟩ hw.undisturbed
  refine ⟨?_, hstep.2⟩
  rw [hstep.1.1, hs]
  simp [hd]

theorem changeState {s : State} (hs : s = .disabled ∨ (dev w p).state ≠ .disabled) (hw : Watched p w) :
    Watched p (Device.changeState p s w) := by
  refine ⟨?_, always_cons.mpr ⟨?_, hw.undisturbed⟩⟩
  · rw [dev_changeState, changeState_log]
    rcases hs with rfl | hd
    · simp [Device.enter, V3.asleep]
    · have hfalse : ¬ V3.asleep p w.log = true := fun ha => hd (hw.asleep.mp ha)
      simp [Device.enter, V3.asleep, hfalse]
  · intro ha
    refine ⟨nofun, fun s' h => ?_⟩
    cases h
    rcases hs with rfl | hd
    · rfl
    · exact absurd (hw.asleep.mp ha) hd

/-- `enable()` は、無効な機器の状態を変えてよい唯一の操作である。 -/
theorem enable (hw : Watched p w) : Watched p (Device.enable env p w) := by
  have hlog :
      (Device.enable env p w).log = ⟨(Record.setDeviceEnabled env p true (w.mark (.enable p))).now,
      .state p .stopped⟩ :: ⟨w.now, .eeprom (enabledAddr p) 1⟩ :: ⟨w.now, .enable p⟩ :: w.log := rfl
  have hfalse :
      V3.asleep p (⟨w.now, .eeprom (enabledAddr p) 1⟩ :: ⟨w.now, .enable p⟩ :: w.log) = false := by
    simp [V3.asleep]
  refine ⟨?_, ?_⟩
  · rw [hlog]
    simp [V3.asleep, Device.enable, Device.enter]
  · rw [hlog]
    refine always_cons.mpr ⟨fun ha => ?_, always_cons.mpr ⟨undisturbed_cons id _, always_cons.mpr ⟨?_, hw.undisturbed⟩⟩⟩
    · rw [hfalse] at ha
      cases ha
    · exact fun _ => ⟨nofun, nofun⟩

end Watched

/-! ## 有効の印 -/

/-- ポート 0 の機器は `DISABLED` でなく、ほかの機器は有効の印が 0 のときに限って `DISABLED` である。 -/
structure Consistent (p : Port) (w : World) : Prop extends Watched p w where
  zero : p = 0 → (dev w p).state ≠ .disabled
  flag : p ≠ 0 → ((dev w p).state = .disabled ↔ w.hw.eeprom (enabledAddr p) = 0)

/-- 有効の印を書かない、`devices[i]` の電源の操作の事象。 -/
def Event.Powers (i : Port) : Event → Prop
  | .relay q _ => q = i
  | .pin _ _ => True
  | e => e.Records i

theorem Event.Records.powers {i : Port} {e : Event} (h : e.Records i) : e.Powers i := by
  cases e with
  | eeprom a v => exact h
  | _ => exact h.elim

theorem trail_powers_byte {p : Port} {w w' : World} (h : Trail (Event.Powers p) w w') :
    w'.hw.eeprom (enabledAddr p) = w.hw.eeprom (enabledAddr p) := by
  refine trail_eeprom h ?_
  rintro v ⟨o, ho, hlt, ha⟩
  have ho' := (deviceRegion_add_inj (p := p) (q := p) (by simp) hlt ha).2
  simp only [Record.portEnabled] at ho'
  omega

section Powers

variable {env : Env} {p : Port} {w : World}

theorem powers_driveRelay (t s : UInt8) (on : Bool) :
    Still (Event.Powers p) w (Device.driveRelay env p t on s w) :=
  still_driveRelay rfl (fun _ _ => trivial) (fun _ => ⟨38, by simp, by simp, rfl⟩)

theorem powers_recordBoot : Still (Event.Powers p) w (Device.recordBoot env p w) :=
  still_recordBoot fun o _ ho => ⟨o, by omega, by omega, rfl⟩

theorem byte_powerDown :
    (Device.powerDown env p w).hw.eeprom (enabledAddr p) = w.hw.eeprom (enabledAddr p) := by
  have hdrive : Still (Event.Powers p) w (Device.driveRelay env p relayTurningOff false relayOff w) :=
    powers_driveRelay _ _ _
  have hbyte := trail_powers_byte hdrive.trail
  exact hbyte

theorem byte_kill (w : World) :
    (Device.kill env p w).2.hw.eeprom (enabledAddr p) = w.hw.eeprom (enabledAddr p) := by
  unfold Device.kill
  split
  · rfl
  · exact byte_powerDown

theorem Watched.powerDown (hne : (dev w p).state ≠ .disabled) (hw : Watched p w) :
    Watched p (Device.powerDown env p w) := by
  have hdrive :
      Still (fun e => ¬ e.Disturbs p) w (Device.driveRelay env p relayTurningOff false relayOff w) :=
    still_driveRelay (by simp [Event.Disturbs]) (fun _ _ => id) (fun _ => id)
  have hstate := congrArg Device.state (dev_still hdrive p)
  have hoff :=
    (hw.of_trail hdrive.trail hstate).changeState (s := .stopped) (Or.inr (by rw [hstate]; exact hne))
  exact hoff.of_trail ((Trail.refl _).setRam _) rfl

theorem Watched.kill (hw : Watched p w) : Watched p (Device.kill env p w).2 := by
  by_cases hs : (dev w p).state = .disabled
  · simp only [Device.kill, hs, if_true]
    exact hw
  · simp only [Device.kill, hs, if_false]
    exact hw.powerDown hs

end Powers

namespace Consistent

variable {env : Env} {p : Port} {w w' : World}

theorem of_watched (hw' : Watched p w') (hs : (dev w' p).state = (dev w p).state)
    (hb : w'.hw.eeprom (enabledAddr p) = w.hw.eeprom (enabledAddr p)) (hw : Consistent p w) :
    Consistent p w' where
  toWatched := hw'
  zero hp := by rw [hs]; exact hw.zero hp
  flag hp := by rw [hs, hb]; exact hw.flag hp

theorem frame (h : Frame p w w') (hw : Consistent p w) : Consistent p w' := by
  refine hw.of_watched (hw.toWatched.of_trail (h.trail.mono fun _ he => not_disturbs_of_not_about he) ?_) ?_ ?_
  · rw [h.dev]
  · rw [h.dev]
  · exact h.byte_eq (by simp)

theorem powers (h : Trail (Event.Powers p) w w') (hs : (dev w' p).state = (dev w p).state)
    (hd : (dev w p).state ≠ .disabled) (hw : Consistent p w) : Consistent p w' := by
  refine hw.of_watched (hw.toWatched.of_awake (h.mono fun e he => ?_) hs hd) hs (trail_powers_byte h)
  cases e with
  | state q s => exact he.elim
  | enable q => exact he.elim
  | _ => exact ⟨nofun, nofun⟩

theorem move {s : State} (hs : s ≠ .disabled) (hd : (dev w p).state ≠ .disabled) (hw : Consistent p w) :
    Consistent p (Device.changeState p s w) where
  toWatched := hw.toWatched.changeState (Or.inr hd)
  zero _ := by
    rw [dev_changeState]
    exact hs
  flag hp := by
    rw [dev_changeState]
    exact ⟨fun h => absurd h hs, fun h => absurd ((hw.flag hp).mpr h) hd⟩

theorem powerUp (hst : (dev w p).state = .stopped) (hw : Consistent p w) :
    Consistent p (Device.powerUp env p w) := by
  have hne : (dev w p).state ≠ .disabled := by
    rw [hst]
    decide
  have hsel : Trail (Event.Powers p) w (Device.selectMedia env p w) :=
    ((trail_setDev p _).trans (trail_setDev p _)).trans (still_setBootMedia fun _ _ => trivial).trail
  have hdev : (dev (Device.selectMedia env p w) p).state = (dev w p).state := by
    have hmedia :
        ∀ (s : Nat) (m : Media) (v : World), dev (setBootMedia env s m v) p = dev v p := fun _ _ _ =>
      dev_still (still_setBootMedia (A := fun _ => True) fun _ _ => trivial) p
    simp only [Device.selectMedia, hmedia, dev_setDev_self]
  have hdrive : Still (Event.Powers p) (Device.selectMedia env p w)
      (Device.driveRelay env p relayTurningOn true relayOn (Device.recordBoot env p (Device.selectMedia env p w))) :=
    powers_recordBoot.trans (powers_driveRelay _ _ _)
  have hstate := (congrArg Device.state (dev_still hdrive p)).trans hdev
  have hpow := hw.powers (hsel.trans hdrive.trail) hstate hne
  exact hpow.move (by decide) (by rw [hstate]; exact hne)

theorem powerDown (hne : (dev w p).state ≠ .disabled) (hw : Consistent p w) :
    Consistent p (Device.powerDown env p w) where
  toWatched := hw.toWatched.powerDown hne
  zero _ := by
    rw [state_powerDown]
    decide
  flag hp := by
    rw [state_powerDown, byte_powerDown]
    exact ⟨nofun, fun h => absurd ((hw.flag hp).mpr h) hne⟩

theorem kill (hw : Consistent p w) : Consistent p (Device.kill env p w).2 := by
  by_cases hs : (dev w p).state = .disabled
  · simp only [Device.kill, hs, if_true]
    exact hw
  · simp only [Device.kill, hs, if_false]
    exact hw.powerDown hs

theorem enable (hw : Consistent p w) : Consistent p (Device.enable env p w) where
  toWatched := hw.toWatched.enable
  zero _ := by
    simp only [Device.enable, dev_changeState, Device.enter]
    decide
  flag _ := by
    have hbyte : (Device.enable env p w).hw.eeprom (enabledAddr p) = 1 := Bytes.store_self _ _ _
    rw [hbyte]
    simp only [Device.enable, dev_changeState, Device.enter]
    decide

theorem disable (hw : Consistent p w) : Consistent p (Device.disable env p w) := by
  by_cases hp : p = 0
  · simp only [Device.disable, hp, ne_eq, not_true_eq_false, if_false]
    exact hp ▸ hw.kill
  · have hclear : Watched p (Record.setDeviceEnabled env p false w) :=
      hw.toWatched.of_trail (still_write id).trail rfl
    have hkill : Watched p (Device.kill env p (Record.setDeviceEnabled env p false w)).2 := hclear.kill
    have hzero : (Record.setDeviceEnabled env p false w).hw.eeprom (enabledAddr p) = 0 :=
      Bytes.store_self _ _ _
    simp only [Device.disable, ne_eq, hp, not_false_eq_true, if_true]
    refine ⟨hkill.changeState (Or.inl rfl), fun h0 => absurd h0 hp, fun _ => ?_⟩
    rw [dev_changeState]
    exact ⟨fun _ => (byte_kill _).trans hzero, fun _ => rfl⟩

theorem prim (h : Prim env p w w') (hw : Consistent p w) : Consistent p w' := by
  cases h with
  | quiet hq => exact hw.frame (hq.frame p)
  | tweak d hd =>
      have hs : (dev (setDev p d w) p).state = (dev w p).state := by rw [dev_setDev_self, hd]
      exact hw.of_watched (hw.toWatched.of_trail (trail_setDev p d) hs) hs rfl
  | beat =>
      have hs : (dev (Device.beat p w) p).state = (dev w p).state := by simp
      exact hw.of_watched (hw.toWatched.of_trail ((trail_setDev p _).mark id) hs) hs rfl
  | record hs =>
      have hd := congrArg Device.state (dev_still hs p)
      refine hw.of_watched (hw.toWatched.of_trail (hs.trail.mono fun e he => ?_) hd) hd
        (trail_powers_byte (hs.trail.mono fun _ he => he.powers))
      cases e with
      | eeprom a v => exact id
      | _ => exact he.elim
  | media m =>
      have htrail :
          ∀ A : Event → Prop, (∀ k b, A (.pin k b)) → Trail A w (Device.setNextBootMedia env p m w) :=
        fun A hA => (trail_setDev p _).trans (still_setBootMedia hA).trail
      have hd : (dev (Device.setNextBootMedia env p m w) p).state = (dev w p).state := by
        simp only [Device.setNextBootMedia]
        rw [dev_still (still_setBootMedia (A := fun _ => True) fun _ _ => trivial), dev_setDev_self]
      exact hw.of_watched (hw.toWatched.of_trail (htrail _ fun _ _ => id) hd) hd
        (trail_powers_byte (htrail _ fun _ _ => trivial))
  | wake hs => exact hw.move (by decide) (by rcases hs with hs | hs <;> rw [hs] <;> decide)
  | halt hs => exact hw.move (by decide) (by rw [hs]; decide)
  | on hs => exact hw.powerUp hs
  | off hs => exact hw.powerDown hs
  | enable => exact hw.enable
  | disable => exact hw.disable

end Consistent

/-! ## 起動と実行 -/

section Run

variable {env : Env} {p : Port} {w w' : World}

/-- `Device::init` より前の、`devices[p]` に何も起きていない記録。 -/
structure Fresh (p : Port) (w : World) : Prop where
  awake : asleep p w.log = false
  undisturbed : Always (Undisturbed p) w.log

theorem Fresh.of_trail (h : Trail (fun e => ¬ e.Disturbs p) w w') (hw : Fresh p w) : Fresh p w' := by
  have hlog : asleep p w'.log = asleep p w.log := h.log_eq fun x l hx => asleep_cons hx l
  have hcur : Undisturbed p w.log := hw.undisturbed _ (List.suffix_refl _)
  exact ⟨hlog.trans hw.awake, (h.always (K := Undisturbed p) (fun x l hx _ => undisturbed_cons hx l)
    (fun _ h => h) hcur hw.undisturbed).2⟩

theorem fresh_powerOn (p : Port) (h : Hardware) : Fresh p (powerOn h) := by
  refine ⟨rfl, fun l hl => ?_⟩
  rw [List.suffix_nil.mp hl]
  trivial

theorem Event.Preparing.not_disturbs {e : Event} (h : e.Preparing) (p : Port) : ¬ e.Disturbs p := by
  cases e with
  | eeprom a v => exact id
  | pin k b => exact id
  | _ => exact h.elim

theorem Fresh.init (hw : Fresh p w) : Consistent p (Device.init env p w) := by
  have hlog : (Device.init env p w).log =
      ⟨(Device.init env p w).now, .state p (initialState w.hw.eeprom p)⟩ :: w.log := by
    rw [Device.init_eq]
    rfl
  have hstate : (dev (Device.init env p w) p).state = initialState w.hw.eeprom p := by
    rw [Device.init_eq, dev_changeState]
    rfl
  have hbyte : (Device.init env p w).hw.eeprom = w.hw.eeprom := by
    rw [Device.init_eq]
    rfl
  refine ⟨⟨?_, ?_⟩, ?_, ?_⟩
  · rw [hlog, hstate]
    simp [asleep, hw.awake]
  · rw [hlog]
    refine always_cons.mpr ⟨fun ha => ?_, hw.undisturbed⟩
    rw [hw.awake] at ha
    cases ha
  · intro hp
    rw [hstate, initialState, Record.getDeviceEnabled, if_pos hp]
    decide
  · intro hp
    rw [hstate, hbyte, initialState, Record.getDeviceEnabled, if_neg hp]
    by_cases hb : w.hw.eeprom (enabledAddr p) = 0
    · simp [enabledAddr] at hb
      simp [enabledAddr, hb]
    · simp [enabledAddr] at hb
      simp [enabledAddr, hb]

theorem consistent_booted (env : Env) (h : Hardware) (p : Port) : Consistent p (booted env h) := by
  refine booted_induct (p := p) (Q := Fresh p) h (fresh_powerOn p h) ?_ ?_ (fun _ hw => hw.init)
    (fun _ _ hf hw => hw.frame hf) (fun _ _ hs hw => hw.prim hs)
  · exact fun _ _ htrail hw => hw.of_trail (htrail.mono fun _ he => he.not_disturbs p)
  · exact fun _ _ hf hw => hw.of_trail (hf.trail.mono fun _ he => not_disturbs_of_not_about he)

theorem consistent_run (env : Env) (h : Hardware) (ops : List Op) (p : Port) :
    Consistent p (run env ops (booted env h)) :=
  run_induct (Prim.induct_on (fun _ _ hf hw => hw.frame hf) (fun _ _ hs hw => hw.prim hs)) ops
    (consistent_booted env h p)

end Run

/-- どの EEPROM の内容から起動したどの実行でも、ポート 0 の機器は `DISABLED` でなく、ほかの機器は有効の印が 0 のときに限って
`DISABLED` である。`DISABLED` になった機器は、`enable()` されるまで、リレーを入れられず、状態も変わらない。 -/
theorem disabled_iff_flag_zero (env : Env) (h : Hardware) (ops : List Op) :
    (dev (run env ops (booted env h)) 0).state ≠ .disabled ∧
    ∀ p, p ≠ 0 →
      ((dev (run env ops (booted env h)) p).state = .disabled ↔
        (run env ops (booted env h)).hw.eeprom (enabledAddr p) = 0) ∧
      ((dev (run env ops (booted env h)) p).state = .disabled ↔ asleep p (run env ops (booted env h)).log = true) ∧
      ∀ x l, x :: l <:+ (run env ops (booted env h)).log → asleep p l = true →
        x.event ≠ .relay p true ∧ ∀ s, x.event = .state p s → s = .disabled := by
  refine ⟨(consistent_run env h ops 0).zero rfl, fun p hp => ?_⟩
  have hc := consistent_run env h ops p
  exact ⟨hc.flag hp, hc.asleep.symm, fun x l hl => hc.undisturbed _ hl⟩

/-- `disable 1`、`start 1` の順に命令を受けて、次の機器を起動する実行。 -/
def disableThenStart : List Op :=
  [.line (ascii ['d', 'i', 's', 'a', 'b', 'l', 'e', ' ', '1']) [],
    .line (ascii ['s', 't', 'a', 'r', 't', ' ', '1']) [], .startNext]

theorem disabled_iff_flag_zero_disable : ∃ w x l,
    run Env.ideal disableThenStart (booted Env.ideal Hardware.ready) = w ∧ w.log = x :: l ∧ asleep 1 l = true ∧
    (dev w 1).state = .disabled ∧ w.hw.eeprom (enabledAddr 1) = 0 ∧ x.event ≠ .relay 1 true := by
  have hlog :
      asleep 1 (run Env.ideal disableThenStart (booted Env.ideal Hardware.ready)).log.tail = true := by
    decide +kernel
  obtain ⟨-, hp⟩ := disabled_iff_flag_zero Env.ideal Hardware.ready disableThenStart
  obtain ⟨hflag, -, hundisturbed⟩ := hp 1 (by decide)
  obtain ⟨x, l, hl⟩ : ∃ x l, (run Env.ideal disableThenStart (booted Env.ideal Hardware.ready)).log = x :: l := by
    refine List.exists_cons_of_ne_nil fun hnil => ?_
    rw [hnil] at hlog
    cases hlog
  have hstate :
      (dev (run Env.ideal disableThenStart (booted Env.ideal Hardware.ready)) 1).state = .disabled := by
    decide +kernel
  rw [hl] at hlog
  exact ⟨_, x, l, rfl, hl, hlog, hstate, hflag.mp hstate, (hundisturbed x l (by rw [hl]) hlog).1⟩

end Wagman.V3
