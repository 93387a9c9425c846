import Wagman.V3.Lifetime
import Wagman.V3.Theorems.Recovery

/-!
# 無効な機器の電源

無効にした機器は、有効の印が EEPROM に残るので、何度起動し直しても、どこで途切れても、`enable` されるまで電源を入れられない。
-/

namespace Wagman.V3

open Machine

variable {env : Env} {h : Hardware} {p : Port} {w w' : World} {l : Log}

/-! ## 一回の投入 -/

/-- `enable()` されたか、有効の印が 0 のままで、リレーも入れられていない。 -/
def Held (h : Hardware) (p : Port) (l : Log) : Prop :=
  (∃ x ∈ l, x.event = .enable p) ∨
    (replay h l).eeprom (enabledAddr p) = 0 ∧ ∀ x ∈ l, x.event ≠ .relay p true

/-- `p` のリレーを入れず、有効の印を 0 でない値にしない事象。 -/
def Event.Meek (p : Port) : Event → Prop
  | .relay q on => ¬(q = p ∧ on = true)
  | .eeprom a v => a = enabledAddr p → v = 0
  | _ => True

theorem meek_of_not_about {e : Event} (he : ¬ e.About p) : e.Meek p := by
  cases e with
  | relay q on => exact fun hq => he hq.1
  | eeprom a v => exact fun ha => absurd ⟨0, by decide, ha⟩ he
  | _ => trivial

theorem Event.Records.meek {i : Port} {e : Event} (he : e.Records i) : e.Meek p := by
  cases e with
  | eeprom a v =>
      obtain ⟨o, ho, hlt, rfl⟩ := he
      intro ha
      have hzero := (deviceRegion_add_inj hlt (by simp) ha).2
      simp only [Record.portEnabled] at hzero
      omega
  | _ => exact he.elim

theorem Event.Surveys.meek {e : Event} (he : e.Surveys) : e.Meek p := by
  cases e with
  | eeprom a v =>
      intro ha
      rcases he with ⟨-, hlt⟩ | ⟨j, hj | hj⟩
      · simp only [ha, enabledAddr, Record.deviceRegion, Record.portRegionsStart] at hlt
        omega
      · exact absurd (deviceRegion_add_inj (by simp) (by simp) (ha.symm.trans hj)).2 (by decide)
      · exact absurd (deviceRegion_add_inj (by simp) (by simp) (ha.symm.trans hj)).2 (by decide)
  | pin k b => trivial
  | _ => exact he.elim

theorem Held.cons {x : Entry Event} (hx : x.event.Meek p) (hl : Held h p l) : Held h p (x :: l) := by
  rcases hl with ⟨y, hy, he⟩ | ⟨hz, hr⟩
  · exact Or.inl ⟨y, List.mem_cons_of_mem _ hy, he⟩
  · refine Or.inr ⟨?_, fun y hy => ?_⟩
    · obtain ⟨t, e⟩ := x
      rw [replay_cons]
      cases e with
      | eeprom a v =>
          by_cases ha : a = enabledAddr p
          · subst ha
            exact (Bytes.store_self _ _ _).trans (hx rfl)
          · exact (Bytes.store_of_ne (Ne.symm ha) _ _).trans hz
      | _ => exact hz
    · rcases List.mem_cons.mp hy with rfl | hy
      · intro he
        rw [he] at hx
        exact hx ⟨rfl, rfl⟩
      · exact hr y hy

/-- どの時点でも `Held` である。 -/
structure Dormant (h : Hardware) (p : Port) (w : World) : Prop where
  replayed : w.hw = replay h w.log
  held : Always (Held h p) w.log

namespace Dormant

theorem of_trail (ht : Trail (Event.Meek p) w w') (hw : Dormant h p w) : Dormant h p w' :=
  ⟨ht.replayed hw.replayed, (ht.always (fun _ _ hx hl => hl.cons hx) (fun _ hl => hl)
    (hw.held _ (List.suffix_refl _)) hw.held).2⟩

/-- `enable()` された後は、何が起きてもよい。 -/
theorem of_enabled {A : Event → Prop} (ht : Trail A w w') (he : ∃ x ∈ w.log, x.event = .enable p)
    (hw : Dormant h p w) : Dormant h p w' := by
  refine ⟨ht.replayed hw.replayed, (ht.always (K := fun l => ∃ x ∈ l, x.event = .enable p) ?_ (fun _ hl => Or.inl hl)
    he hw.held).2⟩
  rintro x l - ⟨y, hy, hye⟩
  exact ⟨y, List.mem_cons_of_mem _ hy, hye⟩

theorem changeState {i : Port} (s : State) (hw : Dormant h p w) : Dormant h p (Device.changeState i s w) :=
  hw.of_trail ((trail_setDev i _).mark trivial)

theorem enabled (hp : p ≠ 0) (hs : (dev w p).state = .stopped) (hc : Consistent p w) (hw : Dormant h p w) :
    ∃ x ∈ w.log, x.event = .enable p := by
  refine (hw.held _ (List.suffix_refl _)).resolve_right fun hz => ?_
  have hdis := (hc.flag hp).mpr (by rw [hw.replayed]; exact hz.1)
  rw [hs] at hdis
  cases hdis

theorem kill (hw : Dormant h p w) : Dormant h p (Device.kill env p w).2 := by
  have hdrive : Trail (Event.Meek p) w (Device.driveRelay env p relayTurningOff false relayOff w) :=
    (still_driveRelay (by simp [Event.Meek]) (fun _ _ => trivial)
      fun _ => Event.Records.meek (i := p) ⟨38, by simp, by simp, rfl⟩).trail
  unfold Device.kill
  split
  · exact hw
  · exact ((hw.of_trail hdrive).changeState .stopped).of_trail ((Trail.refl _).setRam _)

theorem prim (hp : p ≠ 0) (hprim : Prim env p w w') (hc : Consistent p w) (hw : Dormant h p w) : Dormant h p w' := by
  cases hprim with
  | quiet hq => exact hw.of_trail (hq.trail.mono fun _ he => meek_of_not_about (he p))
  | tweak d _ => exact hw.of_trail (trail_setDev p d)
  | beat => exact hw.of_trail ((trail_setDev p _).mark trivial)
  | record hr => exact hw.of_trail (hr.trail.mono fun _ he => he.meek)
  | media m => exact hw.of_trail ((trail_setDev p _).trans (still_setBootMedia fun _ _ => trivial).trail)
  | wake _ => exact hw.changeState .started
  | halt _ => exact hw.changeState .stopping
  | on hs =>
      -- 有効の印が 0 なら `DISABLED` なので、`STOPPED` の機器は `enable()` されている
      have hselect : Trail (fun _ => True) w (Device.selectMedia env p w) :=
        ((trail_setDev p _).trans (trail_setDev p _)).trans (still_setBootMedia fun _ _ => trivial).trail
      have hrecord : Still (fun _ => True) (Device.selectMedia env p w)
          (Device.driveRelay env p relayTurningOn true relayOn
            (Device.recordBoot env p (Device.selectMedia env p w))) :=
        (still_recordBoot fun _ _ _ => trivial).trans (still_driveRelay trivial (fun _ _ => trivial) fun _ => trivial)
      exact (hw.of_enabled (hselect.trans hrecord.trail) (hw.enabled hp hs hc)).changeState .started
  | off hs =>
      have hkill : Dormant h p (Device.kill env p w).2 := hw.kill
      simpa only [Device.kill, hs, if_false] using hkill
  | enable =>
      have hmark : Dormant h p (w.mark (.enable p)) := hw.of_trail ((Trail.refl w).mark trivial)
      have hset : Still (fun _ => True) (w.mark (.enable p))
          (Record.setDeviceEnabled env p true (w.mark (.enable p))) :=
        still_write trivial
      exact (hmark.of_enabled hset.trail ⟨_, List.mem_cons_self, rfl⟩).changeState .stopped
  | disable =>
      have hclear : Still (Event.Meek p) w (Record.setDeviceEnabled env p false w) := still_write fun _ => rfl
      rw [disable_of_ne_zero hp]
      exact (hw.of_trail hclear.trail).kill.changeState .disabled

end Dormant

/-- 初期化された記録は、`setup` の間に初期化されない。 -/
theorem surveys_prepare (env : Env) (hi : Record.initialized w.hw.eeprom = true) :
    Trail Event.Surveys w (prepare env w) := by
  have hwake : Record.initialized (wake env w).hw.eeprom = true := by rwa [wake_eeprom]
  rw [prepare_eq, establish, if_pos hwake]
  exact ((trail_wake fun _ _ => trivial).trans trail_wagmanInit).trans surveys_survey

theorem dormant_run (env : Env) (hp : p ≠ 0) (hi : Record.initialized h.eeprom = true)
    (hz : h.eeprom (enabledAddr p) = 0) (ops : List Op) : Dormant h p (run env ops (booted env h)) := by
  have hon : Dormant h p (powerOn h) := by
    refine ⟨rfl, fun l hl => ?_⟩
    rw [List.suffix_nil.mp hl]
    exact Or.inr ⟨hz, fun _ hx => by cases hx⟩
  have hprepare : Dormant h p (prepare env (powerOn h)) :=
    hon.of_trail ((surveys_prepare env hi).mono fun _ he => he.meek)
  have hfresh : Fresh p (prepare env (powerOn h)) :=
    (fresh_powerOn p h).of_trail ((trail_prepare env (powerOn h)).mono fun _ he => he.not_disturbs p)
  have hframe : ∀ v v', Frame p v v' → Consistent p v ∧ Dormant h p v → Consistent p v' ∧ Dormant h p v' :=
    fun v v' hf hv => ⟨hv.1.frame hf, hv.2.of_trail (hf.trail.mono fun _ he => meek_of_not_about he)⟩
  have hown : ∀ v v', Prim env p v v' → Consistent p v ∧ Dormant h p v → Consistent p v' ∧ Dormant h p v' :=
    fun v v' hprim hv => ⟨hv.1.prim hprim, hv.2.prim hp hprim hv.1⟩
  refine (run_induct (P := fun v => Consistent p v ∧ Dormant h p v) (Prim.induct_on hframe hown) ops ?_).2
  refine setup_induct (p := p) (Q := fun v => Fresh p v ∧ Dormant h p v) ⟨hfresh, hprepare⟩ ?_ ?_ ?_ hframe hown
  · exact fun v r hv => ⟨hv.1.of_trail ((Trail.refl v).setRam r), hv.2.of_trail ((Trail.refl v).setRam r)⟩
  · exact fun v v' hf hv => ⟨hv.1.of_trail (hf.trail.mono fun _ he => not_disturbs_of_not_about he),
      hv.2.of_trail (hf.trail.mono fun _ he => meek_of_not_about he)⟩
  · exact fun v hv => ⟨hv.1.init, hv.2.of_trail (Device.trail_init fun _ => trivial)⟩

/-! ## 投入の繰り返し -/

/-- 有効の印を戻しうる事象。`magic` への書き込みは、次の起動で記録を初期化させる。 -/
def Event.Restores (p : Port) : Event → Prop
  | .enable q => q = p
  | .eeprom a _ => a < 4
  | _ => False

instance (p : Port) (e : Event) : Decidable (e.Restores p) :=
  match e with
  | .enable _ => inferInstanceAs (Decidable (_ = _))
  | .eeprom _ _ => inferInstanceAs (Decidable (_ < _))
  | .pin _ _ | .relay _ _ | .state _ _ | .heartbeat _ | .print _ | .setDateTime _ => isFalse id

theorem replay_header (hl : ∀ x ∈ l, ¬ x.event.Restores p) {a : Nat} (ha : a < 4) :
    (replay h l).eeprom a = h.eeprom a := by
  refine replay_induct (A := fun e : Event => ¬ e.Restores p) (P := fun s : Hardware => s.eeprom a = h.eeprom a) ?_ rfl
    hl
  intro e s he hs
  cases e with
  | eeprom b v =>
      have hne : a ≠ b := by
        rintro rfl
        exact he ha
      exact (Bytes.store_of_ne hne _ _).trans hs
  | _ => exact hs

/-- 有効の印が 0 である、初期化された記録は、途切れた後もそのままで、その間、リレーは入れられない。 -/
theorem Life.dormant (hp : p ≠ 0) (b : Life) {m : Nat → UInt8} (hi : Record.initialized m = true)
    (hz : m (enabledAddr p) = 0) (hl : ∀ x ∈ b.log m, ¬ x.event.Restores p) :
    (∀ x ∈ b.log m, x.event ≠ .relay p true) ∧ Record.initialized (b.after m) = true ∧
      b.after m (enabledAddr p) = 0 := by
  have hstart : ∀ a, a < 4 → (b.start m).eeprom a = m a := fun a ha => Bytes.store_of_ne (by omega) _ _
  have hi' : Record.initialized (b.start m).eeprom = true := by
    rw [← hi]
    exact initialized_congr hstart
  have hz' : (b.start m).eeprom (enabledAddr p) = 0 := by
    have hne : enabledAddr p ≠ 0x41 := by
      simp only [enabledAddr, Record.deviceRegion, Record.portRegionsStart]
      omega
    exact (Bytes.store_of_ne hne _ _).trans hz
  rcases (dormant_run b.env hp hi' hz' b.ops).held _ (List.drop_suffix b.lost _) with ⟨x, hx, he⟩ | ⟨hflag, hrelay⟩
  · have hrestores : x.event.Restores p := by
      rw [he]
      rfl
    exact absurd hrestores (hl x hx)
  · refine ⟨hrelay, ?_, hflag⟩
    rw [← hi']
    exact initialized_congr fun a ha => replay_header hl ha

/-- 無効な機器は、何度投入が繰り返されても、どの投入がどこで途切れても、`enable()` されず、`magic` に書かれないうちは、電源を
入れられない。 -/
theorem disabled_stays_off (hp : p ≠ 0) {m : Nat → UInt8} (hi : Record.initialized m = true)
    (hz : m (enabledAddr p) = 0) (bs : List Life)
    (hno : ∀ l ∈ lifetime bs m, ∀ x ∈ l, ¬ x.event.Restores p) :
    ∀ l ∈ lifetime bs m, ∀ x ∈ l, x.event ≠ .relay p true := by
  refine Lifetime.logs_induct (I := fun m => Record.initialized m = true ∧ m (enabledAddr p) = 0) ?_ ⟨hi, hz⟩ hno
  exact fun b m hm hl => b.dormant hp hm.1 hm.2 hl

/-- 無効なポート 2 の機器を起動させようとして途切れ、電圧の低下の後にもう一度起動する。 -/
def startDisabled : List Life :=
  [{ env := Env.ideal, bootflags := 2, pin := fun _ => false,
     ops := [.line (ascii ['s', 't', 'a', 'r', 't', ' ', '2']) [], .startNext, .startNext, .idle 60001, .startNext],
     lost := 2 },
   { env := Env.ideal, bootflags := 4, pin := fun _ => true, ops := [.idle 60001, .startNext, .update 2], lost := 0 }]

theorem disabled_stays_off_restarted :
    ¬∃ l ∈ lifetime startDisabled Hardware.ready.eeprom, ∃ x ∈ l, x.event = .relay 2 true :=
  fun ⟨l, hl, x, hx, he⟩ =>
    disabled_stays_off (by decide) (by decide) (by decide) startDisabled (by decide +kernel) l hl x hx he

end Wagman.V3
