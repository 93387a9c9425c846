import Wagman.V4.Theorems.Media

/-!
# 選択ピンの持ち主

ポート 2、3、4 の機器は選択ピンの番号を与えられておらず、静的な初期値の 0 を持つ。そのため、それらが起動されるか、
監視のないまま媒体を切り替えると、ポート 0 の機器の選択ピンが書き換わる。そのような一歩のない実行では、選択ピンは
その持ち主の機器だけが書き、最後に選んだ媒体を示す。
-/

namespace Wagman.V4

open Machine

/-- 記録の先頭が `devices[p]` による媒体の選択なら、その媒体。 -/
def selectedNow (p : Port) : Log → Option Media
  | ⟨_, .start q m⟩ :: _ => if q = p then some m else none
  | ⟨_, .media q m⟩ :: _ => if q = p then some m else none
  | _ => none

/-- `devices[p]` が最後に選んだ媒体。 -/
def lastSelected (p : Port) : Log → Option Media
  | [] => none
  | ⟨_, .start q m⟩ :: l => if q = p then some m else lastSelected p l
  | ⟨_, .media q m⟩ :: l => if q = p then some m else lastSelected p l
  | _ :: l => lastSelected p l

/-- 選択ピン `s` への書き込みは、持ち主の機器が媒体を選んだ直後に、その媒体について行われる。 -/
def SelectorOk (s : Fin 2) : Log → Prop
  | ⟨_, .pin k b⟩ :: l => k = bootSelectorPin s → ∃ m, selectedNow (portOf s) l = some m ∧ b = m.level
  | _ => True

/-- 選択ピン `s` は、その持ち主だけのものである。 -/
structure SelectorPrivate (s : Fin 2) (w : World) : Prop where
  writes : Always (SelectorOk s) w.log
  shows : ∀ m, lastSelected (portOf s) w.log = some m → w.hw.pin (bootSelectorPin s) = m.level

/-- 選択ピン `s` に関わる事象。 -/
def Event.Selects (s : Fin 2) : Event → Prop
  | .pin k _ => k = bootSelectorPin s
  | .start q _ => q = portOf s
  | .media q _ => q = portOf s
  | _ => False

theorem lastSelected_cons {s : Fin 2} {x : Entry Event} (hx : ¬ x.event.Selects s) (l : Log) :
    lastSelected (portOf s) (x :: l) = lastSelected (portOf s) l := by
  obtain ⟨t, e⟩ := x
  cases e with
  | media q m => exact if_neg hx
  | start q m => exact if_neg hx
  | _ => rfl

theorem selectorOk_cons {s : Fin 2} {x : Entry Event} (hx : ¬ x.event.Selects s) (l : Log) :
    SelectorOk s (x :: l) := by
  obtain ⟨t, e⟩ := x
  cases e with
  | pin k b => exact fun hk => absurd hk hx
  | _ => trivial

theorem Event.Quiet.not_selects {e : Event} (he : e.Quiet) (s : Fin 2) : ¬ e.Selects s := by
  cases e with
  | pin k b => exact fun hk => led_ne_bootSelectorPin he s hk
  | resp id sub v => exact fun h => h
  | respBytes id sub v => exact fun h => h
  | _ => exact he.elim

theorem Event.Preparing.not_selects {e : Event} (he : e.Preparing) (s : Fin 2) : ¬ e.Selects s := by
  have hpin : ncAutoDisable ≠ bootSelectorPin s := by revert s; decide
  cases e with
  | eeprom a v => exact fun h => h
  | pin k b =>
      rintro hk
      rcases he with rfl | he
      · exact hpin hk
      · exact led_ne_bootSelectorPin he s hk
  | state q t => exact fun h => h
  | _ => exact he.elim

theorem Footprint.not_selects {F : Footprint} {s : Fin 2} (hsel : ¬ F.sel s)
    (hport : F.port ≠ portOf s ∨ (¬ F.on ∧ ¬ F.force)) {e : Event} (he : F.Allows e) : ¬ e.Selects s := by
  cases e with
  | pin k b =>
      rintro rfl
      rcases he with hk | hk | ⟨s', hs', hk⟩
      · exact bootSelectorPin_ne_relayClk _ _ hk
      · exact bootSelectorPin_ne_relayD _ _ hk
      · have hinj : Function.Injective bootSelectorPin := by decide
        exact hsel (hinj hk ▸ hs')
  | start q m =>
      rintro rfl
      rcases hport with hp | ⟨hn, -⟩
      · exact hp he.1.symm
      · exact hn he.2
  | media q m =>
      rintro rfl
      rcases hport with hp | ⟨-, hf⟩
      · exact hp he.1.symm
      · exact hf he.2
  | _ => exact fun h => h

namespace SelectorPrivate

variable {env : Env} {s : Fin 2} {w w' : World}

theorem of_trail (h : SelectorPrivate s w) (hp : Trail (fun e => ¬ e.Selects s) w w') :
    SelectorPrivate s w' where
  writes := (hp.always (fun x l hx _ => selectorOk_cons hx l) (fun _ hk => hk)
    (h.writes _ (List.suffix_refl _)) h.writes).2
  shows m hm := by
    rw [hp.log_eq fun x l hx => lastSelected_cons hx l] at hm
    rw [← h.shows m hm]
    exact trail_pin hp fun b hb => hb rfl

theorem of_idle (h : SelectorPrivate s w) (hi : Idle w w') : SelectorPrivate s w' :=
  h.of_trail (hi.trail.mono fun _ he => Event.Quiet.not_selects he s)

theorem of_setRam (h : SelectorPrivate s w) (r : Ram) : SelectorPrivate s (w.setRam r) :=
  h.of_trail ((Trail.refl w).setRam r)

theorem of_acts {F : Footprint} (h : SelectorPrivate s w) (ha : Acts F w w') (hsel : ¬ F.sel s)
    (hport : F.port ≠ portOf s ∨ (¬ F.on ∧ ¬ F.force)) : SelectorPrivate s w' :=
  h.of_trail (ha.trail.mono fun _ he => Footprint.not_selects hsel hport he)

/-! ## 持ち主の操作 -/

theorem select (h : SelectorPrivate s w) {e : Event} {m : Media}
    (he : ∀ t l, selectedNow (portOf s) (⟨t, e⟩ :: l) = some m)
    (hl : ∀ t l, lastSelected (portOf s) (⟨t, e⟩ :: l) = some m)
    (hok : ∀ t l, SelectorOk s (⟨t, e⟩ :: l)) :
    SelectorPrivate s (digitalWrite env (bootSelectorPin s) m.level (w.mark e)) where
  writes := always_cons.mpr ⟨fun _ => ⟨m, he _ _, rfl⟩, always_cons.mpr ⟨hok _ _, h.writes⟩⟩
  shows m' hm := by
    have hm' : lastSelected (portOf s) (⟨w.now, e⟩ :: w.log) = some m' := hm
    rw [hl] at hm'
    cases hm'
    simp [digitalWrite, Effect.apply, Hardware.digitalWrite]

theorem setNextBootMedia (h : SelectorPrivate s w) (hsel : (dev w (portOf s)).bootSelector = s.val)
    (m : Media) :
    SelectorPrivate s (Device.setNextBootMedia env (portOf s) m w) := by
  have hset : SelectorPrivate s (setDev (portOf s)
      { dev w (portOf s) with shouldForceBootMedia := true, forceBootMedia := m } w) := h.of_setRam _
  have heq : Device.setNextBootMedia env (portOf s) m w = digitalWrite env (bootSelectorPin s) m.level
      ((setDev (portOf s) { dev w (portOf s) with shouldForceBootMedia := true, forceBootMedia := m } w).mark
        (.media (portOf s) m)) := by
    simp only [Device.setNextBootMedia, setBootMedia, dev_setDev_self, hsel]
    exact dif_pos s.isLt
  rw [heq]
  exact hset.select (fun _ _ => if_pos rfl) (fun _ _ => if_pos rfl) (fun _ _ => trivial)

theorem powerUp (h : SelectorPrivate s w)
    (hc : (dev w (portOf s)).config = (setupDevice (portOf s) {}).config) :
    SelectorPrivate s (Device.powerUp env (portOf s) w) := by
  have hsel : SelectorPrivate s (Device.selectMedia env (portOf s) w) := by
    rw [selectMedia_eq env hc rfl]
    exact SelectorPrivate.select (h.of_setRam _) (fun _ _ => if_pos rfl) (fun _ _ => if_pos rfl) (fun _ _ => trivial)
  refine hsel.of_trail ?_
  have hrec : Trail (fun e => ¬ e.Selects s) (Device.selectMedia env (portOf s) w)
      (Device.recordBoot env (portOf s) (Device.selectMedia env (portOf s) w)) :=
    (still_recordBoot fun _ _ _ h => h).trail
  have hdrive : ∀ v,
      Trail (fun e => ¬ e.Selects s) v (Device.driveRelay env (portOf s) relayTurningOn true relayOn v) :=
    fun v => (still_driveRelay (fun h => h) (fun _ => (bootSelectorPin_ne_relayClk s _).symm)
      (fun _ => (bootSelectorPin_ne_relayD s _).symm) (fun _ h => h)).trail
  exact (hrec.trans (hdrive _)).trans (trail_changeState fun h => h)

theorem start (h : SelectorPrivate s w)
    (hc : (dev w (portOf s)).config = (setupDevice (portOf s) {}).config) :
    SelectorPrivate s (Device.start env (portOf s) w).2 := by
  unfold Device.start
  split
  · exact h
  · exact h.powerUp hc

end SelectorPrivate

/-! ## 実行を通した持ち主 -/

/-- 一歩の前の状態についての条件。`startNextDevice` はポート 2、3、4 の機器を起動せず、それらの `update` は媒体を
切り替えない。 -/
def KeepsSelectors (env : Env) (o : Op) (w : World) : Prop :=
  match o with
  | .startNext => ∀ i, w.ram.shouldResetSystem = false → nextDevice w = some i → (dev w i).state ≠ .stopping →
      i.val < 2
  | .update i => Device.SwitchDue i (Device.sense env i w) → i.val < 2
  | _ => True

instance (env : Env) (o : Op) (w : World) : Decidable (KeepsSelectors env o w) :=
  match o with
  | .startNext => inferInstanceAs (Decidable (∀ i : Port, _ → _ → _ → i.val < 2))
  | .update i => inferInstanceAs (Decidable (Device.SwitchDue i _ → _))
  | .idle _ | .pinHB _ | .request _ _ _ | .resetAll | .status | .reset | .leds => isTrue trivial

/-- すべての機器の欄が、`setupDevices` の定めたとおりである。 -/
def Configured (w : World) : Prop := ∀ q, (dev w q).config = (setupDevice q {}).config

theorem bootSelector_eq {w : World} (hc : Configured w) {i : Port} (hi : i.val < 2) :
    (dev w i).bootSelector = i.val :=
  (congrArg Prod.fst (hc i)).trans (bootSelector_portOf ⟨i.val, hi⟩)

theorem val_ne_of_ne_portOf {s : Fin 2} {i : Port} (h : i ≠ portOf s) : s.val ≠ i.val :=
  fun hs => h (Fin.ext hs.symm)

section Step

variable {env : Env} {s : Fin 2} {w w' : World}

theorem SelectorPrivate.startOf (h : SelectorPrivate s w) (hc : Configured w) {i : Port}
    (hi : (dev w i).state ≠ .stopping → i.val < 2) : SelectorPrivate s (Device.start env i w).2 := by
  by_cases hst : (dev w i).state = .stopping
  · rw [Device.start_of_stopping env hst]
    exact h
  · by_cases hp : i = portOf s
    · subst hp
      exact h.start (hc _)
    · refine h.of_acts (Device.acts_start env w i) ?_ (Or.inl hp)
      simp only [Footprint.boot, bootSelector_eq hc (hi hst)]
      exact val_ne_of_ne_portOf hp

theorem SelectorPrivate.updateOf (h : SelectorPrivate s w) (hc : Configured w) {i : Port}
    (hi : Device.SwitchDue i (Device.sense env i w) → i.val < 2) :
    SelectorPrivate s (Device.update env i w) := by
  have hs : SelectorPrivate s (Device.sense env i w) :=
    h.of_acts (Device.acts_sense env w i) id (Or.inr ⟨id, id⟩)
  have hcfg : (dev (Device.sense env i w) i).config = (setupDevice i {}).config :=
    (Device.acts_sense env w i).config.trans (hc i)
  rw [Device.update_eq]
  by_cases hd : Device.SwitchDue i (Device.sense env i w)
  · have hsel : (dev (Device.sense env i w) i).bootSelector = i.val :=
      (congrArg Prod.fst hcfg).trans (bootSelector_portOf ⟨i.val, hi hd⟩)
    by_cases hp : i = portOf s
    · subst hp
      rw [Device.updateState_of_due env hd]
      simp only [Device.updateStartedUnmanaged, hd.2.2, if_true]
      have hm : ∀ m, SelectorPrivate s (Device.setNextBootMedia env (portOf s) m
          (ioRead env (Device.sense env (portOf s) w))) := fun m =>
        SelectorPrivate.setNextBootMedia (hs.of_trail still_ioRead.trail) hsel m
      exact (hm _).of_acts (Device.acts_stop env _ _) id (Or.inr ⟨id, id⟩)
    · refine hs.of_acts (Device.acts_updateState env _ i) ?_ (Or.inl hp)
      simp only [Footprint.supervise, hsel]
      exact val_ne_of_ne_portOf hp
  · exact hs.of_acts (Device.acts_updateState_of_not_due env hd) id (Or.inr ⟨id, id⟩)

theorem SelectorPrivate.step {o : Op} (h : SelectorPrivate s w) (hc : Configured w) (hs : Step env o w w')
    (hall : w.ram.shouldResetAll = false) (hC : KeepsSelectors env o w) : SelectorPrivate s w' := by
  cases hs with
  | tick ht => exact h.of_trail (ht.trail.mono fun _ he => Event.Quiet.not_selects he s)
  | update i => exact h.updateOf hc hC
  | next hr =>
      have hstart :
          ∀ i b, nextDevice w = some i → SelectorPrivate s (Device.start env i (beginStart i b w)).2 := by
        intro i b hn
        have hb : SelectorPrivate s (beginStart i b w) :=
          h.of_trail (((Trail.refl w).setRam _).mark fun h => h)
        exact hb.startOf hc (fun hst => hC i hr hn hst)
      rcases startNextDevice_inv env w with he | ⟨i, hn, -, he⟩ | ⟨i, hn, -, -, he⟩
      · rw [he]
        exact h
      · rw [he]
        exact (hstart i true hn).of_setRam _
      · rw [he]
        exact hstart i false hn
  | ping i hr ha ht h₁ h₂ =>
      exact ((h.of_idle h₁).of_acts (Device.acts_onHeartbeat env _ i) id (Or.inr ⟨id, id⟩)).of_idle h₂
  | start i hr ht h₁ => exact (h.of_setRam _).of_idle h₁
  | stop i t hr ht h₁ =>
      have ha := (Device.acts_setStopTimeout w i t).trans (Device.acts_stop env _ i)
      exact (h.of_acts ha id (Or.inr ⟨id, id⟩)).of_idle h₁
  | enable i hr ht h₁ => exact (h.of_acts (Device.acts_enable env w i) id (Or.inr ⟨id, id⟩)).of_idle h₁
  | media i m hr ht h01 h₁ =>
      have hi : i.val < 2 := by rcases h01 with rfl | rfl <;> decide
      have hsel := bootSelector_eq hc hi
      by_cases hp : i = portOf s
      · subst hp
        exact (h.setNextBootMedia hsel m).of_idle h₁
      · refine (h.of_acts (Device.acts_setNextBootMedia env w i m) ?_ (Or.inl hp)).of_idle h₁
        simp only [Footprint.switch, hsel]
        exact val_ne_of_ne_portOf hp
  | eereset hr h₁ =>
      have hm : Trail (fun e => ¬ e.Selects s) w (Record.clearMagic env w) :=
        (still_put (fun _ _ _ _ h => h) 0).trail
      exact (h.of_trail hm).of_idle h₁
  | reset hr => exact h.of_trail (((Trail.refl w).setRam _).emit env.latency fun h => h)
  | resetAll hr => rw [hall] at hr; cases hr

end Step

theorem configured_armed (env : Env) (h : Hardware) : Configured (armed env h) := by
  intro q
  refine armed_induct (p := q) (P := fun w => (dev w q).config = (setupDevice q {}).config) ?_ h ?_
  · intro w w' hf hw
    rw [hf.dev, hw]
  · intro w hd _
    rw [Device.dev_init, hd]
    rfl

theorem configured_booted (env : Env) (h : Hardware) : Configured (booted env h) := by
  have hs := Device.acts_start env (armed env h) 0
  intro q
  rw [← configured_armed env h q, booted_eq]
  by_cases hq : q = 0
  · subst hq
    exact hs.config
  · rw [hs.other q hq]

theorem selectorPrivate_booted (env : Env) (h : Hardware) (s : Fin 2) :
    SelectorPrivate s (booted env h) := by
  have h₀ : SelectorPrivate s (powerOn h) := by
    refine ⟨fun l hl => ?_, fun m hm => by cases hm⟩
    rw [List.suffix_nil.mp hl]
    trivial
  have ha : SelectorPrivate s (armed env h) :=
    h₀.of_trail ((trail_armed env h).mono fun _ he => Event.Preparing.not_selects he s)
  rw [booted_eq]
  exact ha.startOf (configured_armed env h) fun _ => by decide

/-- ポート 2、3、4 の機器が起動も媒体の切り替えもしない実行では、選択ピンは持ち主だけが書き、最後に選んだ媒体を
示す。 -/
theorem selectors_private (env : Env) (h : Hardware) (ops : List Op) (w : World)
    (hrun : run env ops (booted env h) = some w)
    (hC : Run.Meets (step env) (KeepsSelectors env) ops (booted env h))
    (s : Fin 2) : SelectorPrivate s w := by
  have hinv :=
    run_induct (P := fun w => Configured w ∧ SelectorPrivate s w) (fun o v v' hc hall hs hI => ?_) hrun hC
    ⟨configured_booted env h, selectorPrivate_booted env h s⟩
  · exact hinv.2.2
  · refine ⟨fun q => ?_, hI.2.step hI.1 hs hall hc⟩
    rw [(hs.on hall q).config_eq, hI.1 q]

/-- ポート 1 の機器を起動しても、どちらの選択ピンも持ち主の選んだ媒体を示す。 -/
theorem selectors_private_guest : ∃ w,
    run Env.ideal [.request true 0 ⟨0xc007, 2, none⟩, .startNext] (booted Env.ideal Hardware.ready) = some w ∧
      lastSelected 1 w.log = some .emmc ∧ SelectorPrivate 0 w ∧ SelectorPrivate 1 w := by
  have hb : ((run Env.ideal [.request true 0 ⟨0xc007, 2, none⟩, .startNext]
      (booted Env.ideal Hardware.ready)).any fun w => decide (lastSelected 1 w.log = some .emmc)) = true := by
    decide +kernel
  have hC :
      Run.Meets (step Env.ideal) (KeepsSelectors Env.ideal) [.request true 0 ⟨0xc007, 2, none⟩, .startNext]
      (booted Env.ideal Hardware.ready) := by decide +kernel
  obtain ⟨w, hw, hs⟩ := (Option.any_eq_true _ _).mp hb
  have hp := selectors_private Env.ideal Hardware.ready _ w hw hC
  exact ⟨w, hw, of_decide_eq_true hs, hp 0, hp 1⟩

/-- ポート 3 の機器を起動すると、ポート 0 の機器の選択ピンが書き換わる。 -/
theorem selector_overwritten : ∃ w,
    run Env.ideal [.request true 0 ⟨0xc007, 4, none⟩, .startNext] (booted Env.ideal Hardware.ready) = some w ∧
      lastSelected 0 w.log = some .emmc ∧ w.hw.pin (bootSelectorPin 0) = Media.sd.level ∧ ¬ SelectorPrivate 0 w := by
  have hb : ((run Env.ideal [.request true 0 ⟨0xc007, 4, none⟩, .startNext]
      (booted Env.ideal Hardware.ready)).any fun w =>
      decide (lastSelected 0 w.log = some .emmc ∧ w.hw.pin (bootSelectorPin 0) = Media.sd.level)) = true := by
    decide +kernel
  obtain ⟨w, hw, hs⟩ := (Option.any_eq_true _ _).mp hb
  obtain ⟨hl, hp⟩ := of_decide_eq_true hs
  refine ⟨w, hw, hl, hp, fun h => ?_⟩
  rw [h.shows .emmc hl] at hp
  cases hp

end Wagman.V4
