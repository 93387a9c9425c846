import Wagman.V4.Lemmas.Setup

/-!
# リレーと状態の一致

`STOPPED` か `DISABLED` の機器のリレーが切れていることは、リレーが入ったまま `enable` される場合を除いて、
どの一歩でも保たれる。また、無効な機器は、`stop` されない限り無効のままで、リレーは入らない。
-/

namespace Wagman.V4

open Machine

/-! ## リレーに関わる事象 -/

/-- 記録の中で最後の、ポート `p` への `setRelay` の値。 -/
def lastRelay (p : Port) : Log → Option Bool
  | [] => none
  | ⟨_, .relay q mode⟩ :: l => if q = p then some mode else lastRelay p l
  | _ :: l => lastRelay p l

/-- ポート `p` のリレーは切れている。 -/
structure RelayOff (p : Port) (w : World) : Prop where
  journal : Record.getRelayState w.hw.eeprom p = relayOff
  latch : w.hw.latch p = false
  last : lastRelay p w.log ≠ some true

instance (p : Port) (w : World) : Decidable (RelayOff p w) :=
  decidable_of_iff (Record.getRelayState w.hw.eeprom p = relayOff ∧ w.hw.latch p = false ∧
    lastRelay p w.log ≠ some true) ⟨fun h => ⟨h.1, h.2.1, h.2.2⟩, fun h => ⟨h.1, h.2, h.3⟩⟩

/-- 止まっているか無効な機器のリレーは切れている。 -/
def RelayAgrees (p : Port) (w : World) : Prop :=
  (dev w p).state = .stopped ∨ (dev w p).state = .disabled → RelayOff p w

instance (p : Port) (w : World) : Decidable (RelayAgrees p w) :=
  inferInstanceAs (Decidable (_ ∨ _ → RelayOff p w))

theorem lastRelay_cons_of_not {p : Port} {x : Entry Event} (h : ¬ x.event.MovesRelay p) (l : Log) :
    lastRelay p (x :: l) = lastRelay p l := by
  obtain ⟨t, e⟩ := x
  cases e with
  | relay q mode => exact if_neg h
  | _ => rfl

theorem RelayOff.of_trail {p : Port} {w w' : World} (h : RelayOff p w)
    (hp : Trail (fun e => ¬ e.MovesRelay p) w w') : RelayOff p w' where
  journal := by
    rw [← h.journal]
    exact trail_eeprom hp fun _ hn => hn rfl
  latch := by
    rw [← h.latch]
    exact trail_latch hp fun _ hn => hn rfl
  last := by
    rw [hp.log_eq fun x l hx => lastRelay_cons_of_not hx l]
    exact h.last

/-! ## 操作ごとの保存 -/

namespace RelayAgrees

variable {p : Port} {w w' : World}

theorem of_trail (h : RelayAgrees p w) (hp : Trail (fun e => ¬ e.MovesRelay p) w w')
    (hs : (dev w' p).state = (dev w p).state) : RelayAgrees p w' := by
  intro hs'
  rw [hs] at hs'
  exact (h hs').of_trail hp

theorem of_frame (h : RelayAgrees p w) (hf : Frame p w w') : RelayAgrees p w' :=
  h.of_trail (hf.trail.mono fun _ he => not_movesRelay_of_not_about he) (by rw [hf.dev])

theorem of_setDev (h : RelayAgrees p w) {d : Device} (hs : d.state = (dev w p).state) :
    RelayAgrees p (setDev p d w) :=
  h.of_trail (trail_setDev p d) (by simpa using hs)

theorem of_powered (h : (dev w p).state = .started ∨ (dev w p).state = .stopping) : RelayAgrees p w := by
  intro hs
  rcases h with h | h <;> rcases hs with hs | hs <;> rw [h] at hs <;> cases hs

theorem changeState_started : RelayAgrees p (Device.changeState p .started w) :=
  of_powered (Or.inl (by simp [dev, Device.enter]))

theorem changeState_stopping : RelayAgrees p (Device.changeState p .stopping w) :=
  of_powered (Or.inr (by simp [dev, Device.enter]))

end RelayAgrees

section Operations

variable {env : Env} {p : Port} {w : World}

theorem RelayOff.changeState (h : RelayOff p w) (s : State) : RelayOff p (Device.changeState p s w) :=
  h.of_trail (trail_changeState id)

theorem RelayOff.setDeviceEnabled (h : RelayOff p w) (b : Bool) :
    RelayOff p (Record.setDeviceEnabled env p b w) := h.of_trail (still_setDeviceEnabled env p b w).trail

theorem lastRelay_driveRelay (env : Env) (p : Port) (t s : UInt8) (mode : Bool) (w : World) :
    lastRelay p (Device.driveRelay env p t mode s w).log = some mode :=
  if_pos rfl

theorem relayOff_powerDown (env : Env) (p : Port) (w : World) :
    RelayOff p (Device.powerDown env p w) := by
  have hd : RelayOff p (Device.driveRelay env p relayTurningOff false relayOff w) := by
    refine ⟨driveRelay_journal .., driveRelay_latch_self .., ?_⟩
    rw [lastRelay_driveRelay]
    decide
  exact (hd.changeState .stopped).of_trail (((Trail.refl _).setRam _).mark id)

theorem RelayAgrees.enable (h : RelayOff p w) : RelayAgrees p (Device.enable env p w) :=
  fun _ => (h.setDeviceEnabled true).changeState .stopped

theorem RelayAgrees.prim {w' : World} (hs : Prim env p (Frame p) w w') (h : RelayAgrees p w) :
    RelayAgrees p w' := by
  cases hs with
  | frame hf => exact h.of_frame hf
  | tweak d hd => exact h.of_setDev (Device.steady_state hd)
  | beat => exact h.of_trail ((trail_setDev p _).mark id) (by simp)
  | refuse _ hd => exact fun _ => ((h (Or.inr hd)).setDeviceEnabled false).changeState .disabled
  | halt _ => exact changeState_stopping
  | revive _ hd => exact RelayAgrees.enable (h (Or.inr hd))
  | off _ => exact fun _ => relayOff_powerDown env p w
  | on _ => exact changeState_started
  | fail hst => exact of_powered (Or.inl (by simpa only [dev, incrementBootFailures_ram] using hst))
  | media m => exact h.of_trail (trail_setNextBootMedia id fun s _ => bootSelectorPin_ne_relayClk s p) (by simp)

end Operations

/-! ## 実行を通した一致 -/

/-- `devices[p]` を有効にする要求は、リレーが切れているときにだけ処理される。 -/
def EnablesWhenOff (p : Port) (o : Op) (w : World) : Prop := o.Enables p → RelayOff p w

instance (p : Port) (o : Op) (w : World) : Decidable (EnablesWhenOff p o w) :=
  inferInstanceAs (Decidable (_ → _))

theorem RelayAgrees.step {env : Env} {p : Port} {o : Op} {w w' : World} (hC : EnablesWhenOff p o w)
    (hs : StepOn env p o w w') (h : RelayAgrees p w) : RelayAgrees p w' :=
  hs.induct (P := RelayAgrees p) (fun _ _ hp h => h.prim hp) (fun ho _ => RelayAgrees.enable (hC ho))
    (fun _ _ _ _ _ => changeState_started) h

/-- リレーが入ったまま `ENABLE` を処理しない限り、止まっているか無効な機器のリレーは、どの実行でも切れている。 -/
theorem relay_agrees_unless_enabled_on (env : Env) (h : Hardware) (p : Port) (ops : List Op) (w : World)
    (hrun : run env ops (booted env h) = some w) (h₀ : RelayAgrees p (booted env h))
    (hC : Run.Meets (step env) (EnablesWhenOff p) ops (booted env h)) : RelayAgrees p w :=
  run_induct_on (fun _ _ _ hc hs hp => RelayAgrees.step hc hs hp) hrun hC h₀

/-- ポート 0 の機器を止め、時間切れの `update` で `kill` すると、リレーが切れて `STOPPED` になる。 -/
theorem relay_agrees_unless_enabled_on_kill : ∃ w,
    run Env.ideal [.request true 0 ⟨0xc008, 1, some 0⟩, .idle 1, .update 0]
      (booted Env.ideal Hardware.ready) = some w ∧ (dev w 0).state = .stopped ∧ RelayAgrees 0 w := by
  have hb : ((run Env.ideal [.request true 0 ⟨0xc008, 1, some 0⟩, .idle 1, .update 0]
      (booted Env.ideal Hardware.ready)).any fun w => decide ((dev w 0).state = .stopped)) = true := by
    decide +kernel
  obtain ⟨w, hw, hs⟩ := (Option.any_eq_true _ _).mp hb
  have hC : Run.Meets (step Env.ideal) (EnablesWhenOff 0) [.request true 0 ⟨0xc008, 1, some 0⟩, .idle 1, .update 0]
      (booted Env.ideal Hardware.ready) := by decide +kernel
  exact ⟨w, hw, of_decide_eq_true hs,
    relay_agrees_unless_enabled_on Env.ideal Hardware.ready 0 _ w hw (by decide +kernel) hC⟩

/-- 動いている機器を `ENABLE` すると、リレーが入ったまま `STOPPED` になる。 -/
theorem relay_on_after_enable : RelayAgrees 0 (booted Env.ideal Hardware.ready) ∧ ∃ w,
    run Env.ideal [.request true 0 ⟨0xc00c, 1, none⟩] (booted Env.ideal Hardware.ready) = some w ∧
      (dev w 0).state = .stopped ∧ Record.getRelayState w.hw.eeprom 0 = relayOn ∧
      lastRelay 0 w.log = some true ∧ ¬ RelayAgrees 0 w := by
  have hb :
      ((run Env.ideal [.request true 0 ⟨0xc00c, 1, none⟩] (booted Env.ideal Hardware.ready)).any fun w =>
      decide ((dev w 0).state = .stopped ∧ Record.getRelayState w.hw.eeprom 0 = relayOn ∧
        lastRelay 0 w.log = some true ∧ ¬ RelayAgrees 0 w)) = true := by decide +kernel
  obtain ⟨w, hw, hp⟩ := (Option.any_eq_true _ _).mp hb
  exact ⟨by decide +kernel, w, hw, of_decide_eq_true hp⟩

/-! ## 無効な機器 -/

/-- 起動の直後、ポート 0 のほかの機器は、有効の印がないときにだけ無効である。 -/
theorem booted_state {p : Port} (hp : p ≠ 0) (env : Env) (h : Hardware) :
    (dev (booted env h) p).state = initialState (booted env h).hw.eeprom p := by
  refine booted_induct (p := p) (P := fun w => (dev w p).state = initialState w.hw.eeprom p) ?_ h ?_ ?_
  · intro w w' hf hs
    rw [hf.dev, hs]
    simp only [initialState, hf.enabled_eq]
  · intro w _ _
    rw [Device.dev_init, Device.init_eq]
    rfl
  · exact fun _ h0 => absurd h0 hp

/-- 無効なまま起動も要求されておらず、リレーを入れたことがない。 -/
structure Dormant (p : Port) (w : World) : Prop where
  disabled : (dev w p).state = .disabled
  wants : w.ram.deviceWantsStart.toNat ≠ p.val
  dark : ∀ x ∈ w.log, x.event ≠ .relay p true

theorem ne_relay_of_not_about {p : Port} {e : Event} (h : ¬ e.About p) : e ≠ .relay p true := by
  rintro rfl
  exact h rfl

theorem Footprint.ne_relay {F : Footprint} (hF : ¬ F.on) {p : Port} {e : Event} (h : F.Allows e) :
    e ≠ .relay p true := by
  rintro rfl
  exact hF (h.2 rfl)

section Disabled

variable {env : Env} {p : Port} {w : World}

theorem onHeartbeat_disabled (hp : p ≠ 0) (h : (dev w p).state = .disabled) :
    (dev (Device.onHeartbeat env p w) p).state = .disabled := by
  rw [Device.onHeartbeat_of_disabled env h, if_neg hp]
  simp [dev, Device.enter]

theorem sense_disabled (env : Env) (hp : p ≠ 0) (h : (dev w p).state = .disabled) :
    (dev (Device.sense env p w) p).state = .disabled := by
  have hh : (dev (Device.updateHeartbeat env p w) p).state = .disabled := by
    unfold Device.updateHeartbeat
    split
    · exact onHeartbeat_disabled hp h
    · exact h
  simp only [Device.sense, Device.updateFault]
  split
  · exact hh
  · split
    · rw [dev_setDev_self]
      exact hh
    · exact hh

theorem update_disabled (hp : p ≠ 0) (h : (dev w p).state = .disabled) :
    Device.update env p w = Device.sense env p w := by
  have hs := sense_disabled env hp h
  rw [Device.update_eq]
  simp only [Device.updateState, hs, Device.updateDisabled]
  rw [if_neg (fun hc => hp hc.1)]

end Disabled

/-- 有効にも起動もされず、無効な間に止められもしない機器は、無効のままでいる。 -/
theorem Dormant.step {env : Env} {p : Port} (hp : p ≠ 0) {o : Op} {w w' : World} (h : Dormant p w)
    (hs : Step env o w w') (hall : w.ram.shouldResetAll = false) (hE : ¬ o.Enables p) (hS : ¬ o.Starts p)
    (hC : o.Stops p → (dev w p).state ≠ .disabled) : Dormant p w' := by
  have hwants := hs.wants_ne hall hS h.wants
  have hframe : ∀ {w w'}, Frame p w w' → (∀ x ∈ w.log, x.event ≠ .relay p true) →
      ∀ x ∈ w'.log, x.event ≠ .relay p true := fun hf =>
    hf.trail.forall_log fun _ he => ne_relay_of_not_about he
  have hacts : ∀ {F : Footprint} {w w'}, ¬ F.on → Acts F w w' → (∀ x ∈ w.log, x.event ≠ .relay p true) →
      ∀ x ∈ w'.log, x.event ≠ .relay p true := fun hF ha =>
    ha.trail.forall_log fun _ he => Footprint.ne_relay hF he
  cases hs.on hall p with
  | frame hf => exact ⟨by rw [hf.dev]; exact h.disabled, hwants, hframe hf h.dark⟩
  | update =>
      refine ⟨?_, hwants, hacts id (Device.acts_update env w p) h.dark⟩
      rw [update_disabled hp h.disabled]
      exact sense_disabled env hp h.disabled
  | next hn _ _ _ =>
      rcases hn with hn | hn
      · exact absurd hn h.wants
      · rw [h.disabled] at hn
        cases hn
  | ping _ _ _ h₁ h₂ =>
      refine ⟨?_, hwants, hframe h₂ (hacts id (Device.acts_onHeartbeat env _ p) (hframe h₁ h.dark))⟩
      rw [h₂.dev]
      exact onHeartbeat_disabled hp (by rw [h₁.dev]; exact h.disabled)
  | stop t hr ht h₁ => exact absurd h.disabled (hC ⟨hr, ht⟩)
  | enable hr ht h₁ => exact absurd ⟨hr, ht⟩ hE
  | media m _ _ _ h₁ =>
      refine ⟨?_, hwants, hframe h₁ (hacts id (Device.acts_setNextBootMedia env w p m) h.dark)⟩
      rw [h₁.dev, Device.dev_setNextBootMedia]
      exact h.disabled

theorem dormant_booted {p : Port} (hp : p ≠ 0) (env : Env) (h : Hardware)
    (hd : Record.getDeviceEnabled (booted env h).hw.eeprom p = false) : Dormant p (booted env h) := by
  have hdark : ∀ x ∈ (booted env h).log, x.event ≠ .relay p true := by
    refine booted_induct (p := p) (P := fun w => ∀ x ∈ w.log, x.event ≠ .relay p true) ?_ h ?_ ?_
    · intro w w' hf hw
      exact hf.trail.forall_log (fun _ he => ne_relay_of_not_about he) hw
    · intro w _ htrail
      have hw : Trail Event.Preparing (powerOn h) (Device.init env p w) :=
        htrail.trans (Device.trail_init fun _ => trivial)
      have hne : ∀ e : Event, e.Preparing → e ≠ .relay p true := by
        rintro e he rfl
        exact he
      exact hw.forall_log hne (by simp [powerOn])
    · exact fun _ h0 => absurd h0 hp
  refine ⟨?_, ?_, hdark⟩
  · rw [booted_state hp, initialState, hd]
    rfl
  · rw [(booted_globals env h).2.2.2]
    exact fun h0 => hp (Fin.ext h0.symm)

/-- 無効な機器は、`DISABLED` の間に `STOP` が処理されなければ、`ENABLE` か `START` されるまでリレーを入れられない。 -/
theorem disabled_stays_unpowered (env : Env) (h : Hardware) (p : Port) (hp : p ≠ 0)
    (hd : Record.getDeviceEnabled (booted env h).hw.eeprom p = false) (ops : List Op) (w : World)
    (hrun : run env ops (booted env h) = some w) (hE : ∀ o ∈ ops, ¬ o.Enables p ∧ ¬ o.Starts p)
    (hC : Run.Meets (step env) (fun o w => o.Stops p → (dev w p).state ≠ .disabled) ops (booted env h)) :
    ∀ x ∈ w.log, x.event ≠ .relay p true := by
  have hE' : Run.Meets (step env) (fun o _ => ¬ o.Enables p ∧ ¬ o.Starts p) ops (booted env h) :=
    Run.Meets.of_forall hE _
  have hinv :=
    run_induct (P := Dormant p) (fun o s s' hc hall hs hI => hI.step hp hs hall hc.1.1 hc.1.2 hc.2) hrun
    (hE'.and hC) (dormant_booted hp env h hd)
  exact hinv.2.dark

/-- 無効なポート 3 の機器に心拍を送って一分待っても、リレーは入らない。 -/
theorem disabled_stays_unpowered_ping : ∃ w,
    run Env.ideal [.request true 0 ⟨0xff1e, 4, none⟩, .startNext, .idle 60001, .startNext]
      (booted Env.ideal Hardware.ready) = some w ∧ ∀ x ∈ w.log, x.event ≠ .relay 3 true := by
  obtain ⟨w, hw⟩ := Option.isSome_iff_exists.mp (show (run Env.ideal
    [.request true 0 ⟨0xff1e, 4, none⟩, .startNext, .idle 60001, .startNext]
    (booted Env.ideal Hardware.ready)).isSome = true by decide +kernel)
  exact ⟨w, hw, disabled_stays_unpowered Env.ideal Hardware.ready 3 (by decide) (by decide +kernel) _ w hw
    (by decide) (by decide +kernel)⟩

/-- 無効なポート 3 の機器を `STOP` する実行。`ENABLE` と `START` は含まない。 -/
def stopDisabled : List Op :=
  [.request true 0 ⟨0xc008, 4, some 0⟩, .idle 1, .update 3, .startNext, .idle 60001, .startNext, .idle 60001, .startNext]

/-- 無効なポート 3 の機器に `STOP` を送ると、`STOPPING` を経て `STOPPED` になり、やがて自動的に起動される。 -/
theorem disabled_powered_after_stop :
    Record.getDeviceEnabled (booted Env.ideal Hardware.ready).hw.eeprom 3 = false ∧
      (∀ o ∈ stopDisabled, ¬ o.Enables 3 ∧ ¬ o.Starts 3) ∧
      ∃ w, run Env.ideal stopDisabled (booted Env.ideal Hardware.ready) = some w ∧
        ∃ x ∈ w.log, x.event = .relay 3 true := by
  have hb : ((run Env.ideal stopDisabled (booted Env.ideal Hardware.ready)).any fun w =>
      decide (∃ x ∈ w.log, x.event = .relay 3 true)) = true := by decide +kernel
  obtain ⟨w, hw, hp⟩ := (Option.any_eq_true _ _).mp hb
  exact ⟨by decide +kernel, by decide, w, hw, of_decide_eq_true hp⟩

end Wagman.V4
