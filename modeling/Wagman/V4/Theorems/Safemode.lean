import Wagman.V4.Lemmas.Safemode
import Wagman.V4.Theorems.Accounting
import Wagman.V4.Theorems.Journal
import Wagman.V4.Theorems.Relay
import Wagman.V4.Theorems.Spacing
import Wagman.Lib.Credit

/-!
# `safemode` の電源と心拍

`safemode` は、ポート 0 のほかの機器の電源を、`start` の行の数までしか入れず、心拍を、`ping` の行と `hello` の行の数までしか伝えない。
また、どちらのファームウェアを何回起動しても、どの時点で電源が切れても、リレーの記録はラッチの状態と食い違わない。
-/

namespace Wagman.V4.Safemode

open Machine

/-! ## 実行についての帰納法 -/

/-- どのポートのリレーにも関わらない事象と、電源の入れ方、切り方に保たれる性質。 -/
structure Closed (env : V4.Env) (P : Board → Prop) : Prop where
  harmless : ∀ {w w' : Board}, Trail (fun e => ∀ p, ¬ e.MovesRelay p) w w' → P w → P w'
  down : ∀ (i : Port) {w : Board}, P w → P (Device.powerDown env i w)
  up : ∀ (i : Port) {w : Board}, P w → P (Device.powerUp env i w)

namespace Closed

variable {env : V4.Env} {P : Board → Prop} {w w' : Board}

theorem calm (hP : Closed env P) (h : Calm env w w') (hw : P w) : P w' := by
  induction h with
  | loose ht _ _ => exact hP.harmless (ht.mono fun _ he => he.not_movesRelay) hw
  | down i => exact hP.down i hw
  | trans _ _ ih₁ ih₂ => exact ih₂ (ih₁ hw)

theorem setRam (hP : Closed env P) (r : Ram) (hw : P w) : P (w.setRam r) := hP.harmless ((Trail.refl w).setRam r) hw

theorem onHeartbeat (hP : Closed env P) (i : Port) (hw : P w) : P (Device.onHeartbeat env i w) :=
  hP.calm Calm.after_beat (hP.harmless ((trail_setDev i _).mark fun _ => id) hw)

theorem step {o : Op} (hP : Closed env P) (h : Step env o w w') (hw : P w) : P w' := by
  cases h with
  | calm h => exact hP.calm h hw
  | ping i _ => exact hP.onHeartbeat i hw
  | want i _ => exact hP.setRam _ hw
  | beat i _ h => exact hP.calm h (hP.onHeartbeat i (hP.setRam _ hw))
  | serve i _ hv hu =>
      refine hP.setRam _ ?_
      rcases hu with rfl | rfl
      · exact hP.calm hv hw
      · exact hP.up i (hP.calm hv hw)
  | auto hv h => exact hP.calm h (hP.up 0 (hP.calm hv hw))
  | heard h => exact hP.harmless (h.trail.mono fun _ he => he.not_movesRelay) hw

/-- ポート `p` のリレーだけに関わる性質では、ほかのポートの電源は、リレーに関わらない事象と同じである。 -/
theorem of_port {p : Port} (hfree : ∀ {w w' : Board}, Trail (fun e => ¬ e.MovesRelay p) w w' → P w → P w')
    (hdown : ∀ {w : Board}, P w → P (Device.powerDown env p w))
    (hup : ∀ {w : Board}, P w → P (Device.powerUp env p w)) : Closed env P := by
  have hother : ∀ {F : Footprint} {w w' : Board}, Acts F w w' → p ≠ F.port → P w → P w' := fun ha hp =>
    hfree ((Frame.ofActs ha hp).trail.mono fun _ he => not_movesRelay_of_not_about he)
  refine ⟨fun ht => hfree (ht.mono fun _ he => he p), fun i w hw => ?_, fun i w hw => ?_⟩
  · by_cases hi : p = i
    · subst hi
      exact hdown hw
    · exact hother (Device.acts_powerDown env w i) hi hw
  · by_cases hi : p = i
    · subst hi
      exact hup hw
    · exact hother (Device.acts_powerUp env w i) hi hw

theorem run {env : Env} (hP : Closed env.board P) {w : World} (ops : List Op) (hw : P w.board) :
    P (run env ops w).board := by
  unfold Safemode.run
  induction ops generalizing w with
  | nil => exact hw
  | cons o ops ih => exact ih (hP.step (step_inv env o w) hw)

end Closed

/-! ## 起動 -/

section Setup

variable {env : V4.Env} {w : Board}

theorem trail_setupDevices {A : Event → Prop} (hA : ∀ i s, A (.state i s)) : Trail A w (setupDevices env w) :=
  ((Trail.refl w).setRam _).trans (trail_initAll hA env _ _)

theorem trail_setup : Trail Event.Preparing w (setup env w) :=
  (((trail_prepare env w).mono fun _ he => he.preparing).trans (trail_setupDevices fun _ _ => trivial)).trans
    (((Trail.refl _).setRam _).elapse env.latency 0)

theorem booted_board (env : Env) (h : Hardware) : (booted env h).board = setup env.board (powerOn h) := rfl

theorem trail_booted (env : Env) (h : Hardware) : Trail Event.Preparing (powerOn h) (booted env h).board := trail_setup

end Setup

/-! ## リレーの記録 -/

/-- 何回かの起動のどこかの時点での装置の状態。起動するファームウェアは、そのたびにどちらでもよい。 -/
inductive Instant (h₀ : Hardware) : Hardware → Prop
  | initial : Instant h₀ h₀
  | reset {h : Hardware} (pins : Nat → Bool) : Instant h₀ h → Instant h₀ { h with pin := pins }
  | regular {h : Hardware} {w : Board} {l : Log} (env : V4.Env) (ops : List V4.Op) : Instant h₀ h →
      Record.initialized h.eeprom = true → V4.run env ops (V4.booted env h) = some w → l <:+ w.log →
      Instant h₀ (replay h l)
  | safemode {h : Hardware} {l : Log} (env : Env) (ops : List Op) : Instant h₀ h →
      Record.initialized h.eeprom = true → l <:+ (run env ops (booted env h)).board.log → Instant h₀ (replay h l)

section Journal

variable {p : Port} {h : Hardware}

theorem closed_recorded (env : V4.Env) (p : Port) (h : Hardware) : Closed env (Recorded p h) :=
  Closed.of_port (fun ht hr => hr.of_trail ht) Recorded.powerDown Recorded.powerUp

theorem recorded_booted (env : Env) (hi : Record.initialized h.eeprom = true) (hs : JournalSound p h) :
    Recorded p h (booted env h).board := by
  have hon : Recorded p h (powerOn h) := by
    refine ⟨rfl, fun l hl => ?_⟩
    rw [List.suffix_nil.mp hl]
    exact hs
  exact ((hon.of_frame (frame_prepare hi p)).of_trail (trail_setupDevices fun _ _ => id)).of_frame (frame_arm p _)

/-- 二つのファームウェアをどの順で何回起動しても、どの時点でも、リレーの記録はラッチの状態と食い違わない。 -/
theorem journal_sound_across (h₀ : Hardware) (hs : JournalSound p h₀) (hi : Instant h₀ h) : JournalSound p h := by
  induction hi with
  | initial => exact hs
  | reset pins _ ih => exact ⟨ih.on, ih.off⟩
  | regular env ops _ hinit hrun hl ih =>
      have hb : Recorded p _ (V4.booted env _) := Recorded.booted hinit ih
      have hw := run_invariant_on (fun _ _ _ hstep hr => Recorded.step hstep hr) hrun hb
      exact hw.always _ hl
  | safemode env ops _ hinit hl ih =>
      exact ((closed_recorded env.board p _).run ops (recorded_booted env hinit ih)).always _ hl

end Journal

/-- `safemode` がポート 0 のリレーを動かす途中で電源が切れ、次に常用のファームウェアが起動してリレーを入れ終わる。 -/
theorem journal_sound_across_reboot : ∃ h, Instant Hardware.ready h ∧ Record.getRelayState h.eeprom 0 = relayOn ∧
    h.latch 0 = true ∧ JournalSound 0 h := by
  have h₀ : JournalSound 0 Hardware.ready := ⟨fun h => absurd h (by decide), fun _ => rfl⟩
  let cut : Hardware :=
    replay Hardware.ready ((run Env.ideal [.startNext] (booted Env.ideal Hardware.ready)).board.log.drop 2)
  have hcut : Instant Hardware.ready cut :=
    .safemode Env.ideal [.startNext] .initial (by decide +kernel) (List.drop_suffix 2 _)
  have hreset : Instant Hardware.ready { cut with pin := fun _ => false } := .reset _ hcut
  have hboot := Instant.regular V4.Env.ideal [] hreset (by decide +kernel) rfl (List.suffix_refl _)
  exact ⟨_, hboot, by decide +kernel, by decide +kernel, journal_sound_across _ h₀ hboot⟩

/-! ## ラッチの間隔 -/

theorem free_of_harmless {e : Event} (h : ∀ p, ¬ e.MovesRelay p) : e.Free := by
  cases e with
  | pin k b => exact free_pin h b
  | _ => rfl

theorem closed_paced (env : V4.Env) : Closed env (Paced Event.hold 110) where
  harmless ht h := h.of_trail (ht.mono fun _ he => free_of_harmless he)
  down _ _ h := paced_powerDown h
  up _ _ h := paced_powerUp h

/-- `safemode` のどの実行でも、ラッチの二つの立ち上がりは 820 ミリ秒以上離れている。 -/
theorem rises_spaced (env : Env) (h : Hardware) (ops : List Op) :
    Machine.Spaced Event.hold (run env ops (booted env h)).board.log := by
  have hon : Paced Event.hold 110 (powerOn h) := ⟨List.Pairwise.nil, fun _ hx => by cases hx⟩
  have hbooted : Paced Event.hold 110 (booted env h).board :=
    hon.of_trail ((trail_booted env h).mono fun _ he => he.free)
  exact ((closed_paced env.board).run ops hbooted).spaced

/-! ## 電源を入れる回数 -/

/-- 事象 `e` が起きなければ、`e` の回数は変わらない。 -/
theorem count_eq {e : Event} {w w' : Board} (h : Trail (fun x => x ≠ e) w w') :
    (w'.log.countP fun x => decide (x.event = e)) = w.log.countP fun x => decide (x.event = e) :=
  h.log_eq fun x l hx => by simp [hx]

/-- ポート `p` のリレーを入れる `setRelay` の呼び出しの回数。 -/
def powerOns (p : Port) (log : Log) : Nat := log.countP fun x => decide (x.event = .relay p true)

section PowerOns

variable {env : V4.Env} {p i : Port} {w w' : Board}

theorem powerOns_eq (h : Trail (fun e => e ≠ .relay p true) w w') : powerOns p w'.log = powerOns p w.log :=
  count_eq h

theorem powerOns_powerDown : powerOns p (Device.powerDown env i w).log = powerOns p w.log :=
  powerOns_eq ((Device.acts_powerDown env w i).trail.mono fun _ he => Footprint.ne_relay id he)

theorem powerOns_powerUp_of_ne (h : p ≠ i) : powerOns p (Device.powerUp env i w).log = powerOns p w.log := by
  refine powerOns_eq ((Device.acts_powerUp env w i).trail.mono ?_)
  rintro e he rfl
  exact h he.1

theorem powerOns_powerUp : powerOns p (Device.powerUp env p w).log = powerOns p w.log + 1 := by
  obtain ⟨v, hv⟩ : ∃ v, v = (Device.recordBoot env p (Device.selectMedia env p w) |>
      Record.setRelayState env p relayTurningOn |> delay env 10) := ⟨_, rfl⟩
  have hpre : Trail (fun e => e ≠ .relay p true) w v := by
    rw [hv]
    exact (trail_selectMedia (by simp) (by simp)).trans ((still_recordBoot (by simp)).trans
      ((still_write (by simp)).trans (still_delay 10))).trail
  have hpost : Trail (fun e => e ≠ .relay p true) (v.mark (.relay p true)) (Device.powerUp env p w) := by
    rw [hv]
    refine Trail.trans ?_ (trail_changeState (by simp))
    exact ((still_setLatchedRelay (by simp) (by simp) true).trans ((still_delay 500).trans
      ((still_write (by simp)).trans (still_delay 10)))).trail
  have hmark : powerOns p (v.mark (.relay p true)).log = powerOns p v.log + 1 := by simp [powerOns]
  rw [powerOns_eq hpost, hmark, powerOns_eq hpre]

theorem Calm.wants_eq (h : Calm env w w') : w'.ram.deviceWantsStart = w.ram.deviceWantsStart := by
  induction h with
  | loose _ hw _ => exact hw
  | down i => exact (Device.acts_powerDown env _ i).wants_eq
  | trans _ _ ih₁ ih₂ => exact ih₂.trans ih₁

theorem Calm.powerOns_eq (h : Calm env w w') : powerOns p w'.log = powerOns p w.log := by
  induction h with
  | loose ht _ _ => exact Safemode.powerOns_eq (ht.mono fun _ he => he.ne_relay p true)
  | down i => exact powerOns_powerDown
  | trans _ _ ih₁ ih₂ => exact ih₂.trans ih₁

theorem powerOns_onHeartbeat : powerOns p (Device.onHeartbeat env i w).log = powerOns p w.log := by
  have hbeat : powerOns p (Device.beat i w).log = powerOns p w.log :=
    Safemode.powerOns_eq ((trail_setDev i _).mark (by simp))
  rw [Calm.after_beat.powerOns_eq, hbeat]

theorem wants_onHeartbeat : (Device.onHeartbeat env i w).ram.deviceWantsStart = w.ram.deviceWantsStart :=
  Calm.after_beat.wants_eq

/-- 起動を要求されていれば 1。 -/
def wanted (p : Port) (w : Board) : Nat := (decide (w.ram.deviceWantsStart.toNat = p.val)).toNat

theorem wanted_eq (h : w'.ram.deviceWantsStart = w.ram.deviceWantsStart) : wanted p w' = wanted p w := by
  rw [wanted, wanted, h]

theorem wanted_setRam_port {r : Ram} (hr : r.deviceWantsStart = UInt8.ofNat i) :
    wanted p (w.setRam r) = (decide (i = p)).toNat := by
  have hi : (UInt8.ofNat i.val).toNat = i.val := by
    rw [UInt8.toNat_ofNat']
    omega
  simp only [wanted, setRam_ram, hr, hi, Fin.ext_iff]

theorem wanted_setRam_none {r : Ram} (hr : r.deviceWantsStart = 255) : wanted p (w.setRam r) = 0 := by
  have hne : (255 : UInt8).toNat ≠ p.val := by
    have hlt := p.isLt
    simp only [UInt8.reduceToNat]
    omega
  simp only [wanted, setRam_ram, hr, decide_eq_false hne, Bool.toNat_false]

/-- 電源を入れるには、要求されていなければならない。要求は、`start` の行ごとに一つしか増えない。 -/
theorem step_powerOns {o : Op} (hp : p ≠ 0) (h : Step env o w w') :
    powerOns p w'.log + wanted p w' ≤ powerOns p w.log + wanted p w + (o.names .start p).toNat := by
  cases h with
  | calm h => rw [h.powerOns_eq, wanted_eq h.wants_eq]; omega
  | ping i _ => rw [powerOns_onHeartbeat, wanted_eq wants_onHeartbeat]; omega
  | want i hi =>
      rw [wanted_setRam_port rfl]
      by_cases hip : i = p
      · subst hip
        rw [hi, decide_eq_true rfl]
        exact Nat.add_le_add_right (Nat.le_add_right _ _) _
      · rw [decide_eq_false hip]
        exact Nat.le_trans (Nat.le_add_right _ _) (Nat.le_add_right _ _)
  | beat i _ h =>
      rw [h.powerOns_eq, powerOns_onHeartbeat, wanted_eq h.wants_eq, wanted_eq wants_onHeartbeat]
      exact Nat.le_add_right _ _
  | @serve _ v u i hi hv hu =>
      have hlog : powerOns p (u.setRam { u.ram with deviceWantsStart := 255 }).log = powerOns p u.log := rfl
      have hcalm := hv.powerOns_eq (p := p)
      rw [hlog, wanted_setRam_none rfl]
      rcases hu with rfl | rfl
      · omega
      · by_cases hip : p = i
        · subst hip
          have hone : wanted p w = 1 := by simp [wanted, hi]
          rw [powerOns_powerUp]
          omega
        · rw [powerOns_powerUp_of_ne hip]
          omega
  | @auto _ v _ hv h =>
      have hup : (Device.powerUp env 0 v).ram.deviceWantsStart = v.ram.deviceWantsStart :=
        (Device.acts_powerUp env v 0).wants_eq
      have hwants := h.wants_eq.trans (hup.trans hv.wants_eq)
      rw [h.powerOns_eq, powerOns_powerUp_of_ne hp, hv.powerOns_eq, wanted_eq hwants]
      omega
  | heard h =>
      rw [Safemode.powerOns_eq (h.trail.mono fun _ he => he.ne_relay p true), wanted_eq h.wants]
      omega

end PowerOns

section Latch

variable {p : Port} {h : Hardware} {w w' : Board}

theorem keepsLatch_of_not_movesRelay {e : Event} (he : ¬ e.MovesRelay p) : e.KeepsLatch p := by
  cases e with
  | pin k b => exact keepsLatch_pin p (Or.inl he)
  | _ => exact fun _ => rfl

/-- リレーが切から入に変わる回数は、リレーを入れる `setRelay` の呼び出しの回数を超えない。 -/
structure Rising (p : Port) (h : Hardware) (w : Board) : Prop where
  replayed : w.hw = replay h w.log
  le : turnOns p h w.log ≤ powerOns p w.log

/-- ラッチを変えず、リレーを入れる呼び出しでもない。 -/
def Event.Level (p : Port) (e : Event) : Prop := e.KeepsLatch p ∧ e ≠ .relay p true

theorem level_of_not_movesRelay {e : Event} (he : ¬ e.MovesRelay p) : Event.Level p e := by
  refine ⟨keepsLatch_of_not_movesRelay he, ?_⟩
  rintro rfl
  exact he rfl

theorem Rising.of_trail (hr : Rising p h w) (ht : Trail (Event.Level p) w w') : Rising p h w' := by
  refine ⟨ht.replayed hr.replayed, ?_⟩
  rw [turnOns_eq p h (ht.mono fun _ he => he.1), powerOns_eq (ht.mono fun _ he => he.2)]
  exact hr.le

theorem Rising.powerDown {env : V4.Env} (hr : Rising p h w) : Rising p h (Device.powerDown env p w) := by
  have ht : Trail (fun e => e ≠ .relay p true) w (Device.driveRelay env p relayTurningOff false relayOff w) :=
    (still_driveRelay (by simp) (by simp) (by simp) (by simp)).trail
  have hdrive : Rising p h (Device.driveRelay env p relayTurningOff false relayOff w) := by
    refine ⟨ht.replayed hr.replayed, ?_⟩
    rw [turnOns_driveRelay env p h w _ _ _ hr.replayed, powerOns_eq ht, Bool.and_false]
    exact hr.le
  have hstate : Event.Level p (.state p .stopped) := level_of_not_movesRelay id
  have hkilled : Event.Level p (.killed p) := level_of_not_movesRelay id
  exact (hdrive.of_trail (trail_changeState hstate)).of_trail (((Trail.refl _).setRam _).mark hkilled)

theorem Rising.powerUp {env : V4.Env} (hr : Rising p h w) : Rising p h (Device.powerUp env p w) := by
  refine ⟨(Device.acts_powerUp env w p).trail.replayed hr.replayed, ?_⟩
  rw [turnOns_powerUp env p h w hr.replayed, powerOns_powerUp]
  exact Nat.add_le_add hr.le (Bool.toNat_le _)

theorem closed_rising (env : V4.Env) (p : Port) (h : Hardware) : Closed env (Rising p h) :=
  Closed.of_port (fun ht hr => hr.of_trail (ht.mono fun _ he => level_of_not_movesRelay he)) Rising.powerDown
    Rising.powerUp

end Latch

theorem Event.Preparing.level {p : Port} {e : Event} (he : e.Preparing) : Event.Level p e := by
  refine ⟨he.keepsLatch p, ?_⟩
  rintro rfl
  exact he

theorem booted_wants (env : Env) (h : Hardware) : (booted env h).board.ram.deviceWantsStart = 0 := rfl

theorem wanted_of_zero {w : Board} (hw : w.ram.deviceWantsStart = 0) {p : Port} (hp : p ≠ 0) : wanted p w = 0 := by
  have hne : (0 : UInt8).toNat ≠ p.val := fun h => hp (Fin.ext h.symm)
  simp only [wanted, hw, decide_eq_false hne, Bool.toNat_false]

/-- どの実行でも、ポート 0 のほかのリレーが切から入に変わる回数も、リレーを入れる呼び出しの回数も、そのポートの `start` の行の数を
超えない。 -/
theorem powered_on_request (env : Env) (h : Hardware) {p : Port} (hp : p ≠ 0) (ops : List Op) :
    turnOns p h (run env ops (booted env h)).board.log ≤ powerOns p (run env ops (booted env h)).board.log ∧
      powerOns p (run env ops (booted env h)).board.log ≤ ops.countP (Op.names .start p) := by
  have hlevel : Trail (Event.Level p) (powerOn h) (booted env h).board :=
    (trail_booted env h).mono fun _ he => Event.Preparing.level he
  have hon : Rising p h (powerOn h) := ⟨rfl, Nat.le_refl _⟩
  have hrising : Rising p h (booted env h).board := hon.of_trail hlevel
  have hcovered : Credit.Covered (step env) (fun w => powerOns p w.board.log) (fun w => wanted p w.board)
      fun o => (o.names .start p).toNat := fun o w => step_powerOns hp (step_inv env o w)
  have hspent := hcovered.spent_le (powerOns_eq (hlevel.mono fun _ he => he.2))
    (wanted_of_zero (booted_wants env h) hp) ops
  rw [Credit.sum_grant] at hspent
  exact ⟨((closed_rising env.board p h).run ops hrising).le, hspent⟩

/-- ポート 1 を `start` する行と、次の `startNextDevice`。 -/
def requestPort1 : List Op := [.line (ascii ['s', 't', 'a', 'r', 't', ' ', '1']) [], .startNext]

/-- ポート 1 の `start` の行で、ポート 1 のリレーが一度だけ入る。 -/
theorem powered_on_request_line : turnOns 1 Hardware.ready
      (run Env.ideal requestPort1 (booted Env.ideal Hardware.ready)).board.log = 1 ∧
    powerOns 1 (run Env.ideal requestPort1 (booted Env.ideal Hardware.ready)).board.log ≤ 1 := by
  have hle := powered_on_request Env.ideal Hardware.ready (p := 1) (by decide) requestPort1
  have hcount : requestPort1.countP (Op.names .start 1) = 1 := by decide +kernel
  rw [hcount] at hle
  exact ⟨by decide +kernel, hle.2⟩

/-! ## 心拍の回数 -/

/-- `devices[p]` の心拍の回数。 -/
def beats (p : Port) (log : Log) : Nat := log.countP fun x => decide (x.event = .heartbeat p)

section Beats

variable {env : V4.Env} {p i : Port} {w w' : Board}

theorem beats_eq (h : Trail (fun e => e ≠ .heartbeat p) w w') : beats p w'.log = beats p w.log :=
  count_eq h

theorem Calm.beats_eq (h : Calm env w w') : beats p w'.log = beats p w.log := by
  induction h with
  | loose ht _ _ => exact Safemode.beats_eq (ht.mono fun _ he => he.ne_heartbeat p)
  | @down w i =>
      have hdrive : Trail (fun e => e ≠ .heartbeat p) w (Device.driveRelay env i relayTurningOff false relayOff w) :=
        (still_driveRelay (by simp) (by simp) (by simp) (by simp)).trail
      exact Safemode.beats_eq ((hdrive.trans (trail_changeState (by simp))).trans
        (((Trail.refl _).setRam _).mark (by simp)))
  | trans _ _ ih₁ ih₂ => exact ih₂.trans ih₁

theorem beats_powerUp : beats p (Device.powerUp env i w).log = beats p w.log :=
  beats_eq ((trail_selectMedia (by simp) (by simp)).trans
    (trail_afterSelect (by simp) (by simp) (by simp) (by simp)))

theorem beats_onHeartbeat :
    beats p (Device.onHeartbeat env i w).log = beats p w.log + (decide (i = p)).toNat := by
  have hlog : (Device.beat i w).log = ⟨w.now, .heartbeat i⟩ :: w.log := rfl
  rw [Calm.after_beat.beats_eq, hlog, beats, List.countP_cons, beats]
  by_cases hi : i = p
  · simp [hi]
  · simp [hi]

theorem Calm.counters_eq (h : Calm env w w') : w'.ram.heartbeatCounters = w.ram.heartbeatCounters := by
  induction h with
  | loose _ _ hc => exact hc
  | down i => rw [Device.powerDown_ram]; rfl
  | trans _ _ ih₁ ih₂ => exact ih₂.trans ih₁

theorem counters_onHeartbeat : (Device.onHeartbeat env i w).ram.heartbeatCounters = w.ram.heartbeatCounters :=
  Calm.after_beat.counters_eq

theorem counters_powerUp : (Device.powerUp env i w).ram.heartbeatCounters = w.ram.heartbeatCounters := by
  rw [Device.powerUp_ram]
  rfl

/-- 一回の心拍は、`ping` の行か、数えた八つの `hello` の行を使う。 -/
theorem step_beats {o : Op} (h : Step env o w w') :
    8 * beats p w'.log + (w'.ram.heartbeatCounters p).toNat ≤
      8 * beats p w.log + (w.ram.heartbeatCounters p).toNat + (8 * (o.names .ping p).toNat + (o.hears p).toNat) := by
  cases h with
  | calm h => rw [h.beats_eq, h.counters_eq]; omega
  | ping i hi =>
      rw [beats_onHeartbeat, counters_onHeartbeat]
      by_cases hip : i = p
      · subst hip
        rw [hi, decide_eq_true rfl]
        omega
      · rw [decide_eq_false hip]
        simp only [Bool.toNat_false]
        omega
  | want i _ => exact Nat.le_add_right _ _
  | beat i hc h =>
      rw [h.beats_eq, h.counters_eq, beats_onHeartbeat, counters_onHeartbeat, setRam_ram, setRam_log]
      dsimp only
      by_cases hip : i = p
      · subst hip
        have hle : 8 ≤ (w.ram.heartbeatCounters i).toNat := UInt32.le_iff_toNat_le.mp hc
        rw [decide_eq_true rfl, Function.update_self]
        simp only [Bool.toNat_true, UInt32.toNat_zero]
        omega
      · rw [decide_eq_false hip, Function.update_of_ne (Ne.symm hip)]
        exact Nat.le_add_right _ _
  | @serve _ v u i _ hv hu =>
      have hbeats : beats p u.log = beats p w.log := by
        rcases hu with rfl | rfl
        · exact hv.beats_eq
        · rw [beats_powerUp, hv.beats_eq]
      have hcounters : u.ram.heartbeatCounters = w.ram.heartbeatCounters := by
        rcases hu with rfl | rfl
        · exact hv.counters_eq
        · rw [counters_powerUp, hv.counters_eq]
      rw [setRam_log, setRam_ram, hbeats, hcounters]
      exact Nat.le_add_right _ _
  | auto hv h =>
      rw [h.beats_eq, h.counters_eq, beats_powerUp, counters_powerUp, hv.beats_eq, hv.counters_eq]
      exact Nat.le_add_right _ _
  | heard h =>
      have hle := h.counters p
      rw [Safemode.beats_eq (h.trail.mono fun _ he => he.ne_heartbeat p)]
      omega

theorem calm_init : Calm env w (Device.init env i w) := by
  rw [Device.init_eq]
  exact ((Calm.setDev i _).trans Calm.ioRead).trans (Calm.changeState _)

theorem calm_initAll (is : List Port) (w : Board) : Calm env w (is.foldl (fun w i => Device.init env i w) w) := by
  induction is generalizing w with
  | nil => exact Calm.refl w
  | cons i is ih => exact calm_init.trans (ih _)

theorem calm_setupDevices : Calm env w (setupDevices env w) := by
  have hset : Calm env w (w.setRam { w.ram with devices := fun i => setupDevice i (w.ram.devices i) }) :=
    Calm.setRam rfl rfl
  unfold setupDevices
  exact hset.trans (calm_initAll (List.finRange 5) _)

theorem arm_counters : (arm env w).ram.heartbeatCounters = w.ram.heartbeatCounters := rfl

theorem setup_counters : (setup env w).ram.heartbeatCounters = fun _ => 0 := by
  obtain ⟨b, hb⟩ := prepare_ram env w
  unfold setup
  rw [arm_counters, calm_setupDevices.counters_eq, hb]

end Beats

/-- どの実行でも、機器の心拍には、一回ごとに `ping` の行が一つか、`hello` の行が八つ要る。 -/
theorem beats_paid (env : Env) (h : Hardware) (p : Port) (ops : List Op) :
    8 * beats p (run env ops (booted env h)).board.log ≤
      8 * ops.countP (Op.names .ping p) + ops.countP (Op.hears p) := by
  have hne : ∀ e : Event, e.Preparing → e ≠ .heartbeat p := by
    rintro e he rfl
    exact he
  have hbooted : beats p (booted env h).board.log = 0 := beats_eq ((trail_booted env h).mono hne)
  have hcounters : ((booted env h).board.ram.heartbeatCounters p).toNat = 0 := by
    rw [booted_board, setup_counters]
    rfl
  have hcovered : Credit.Covered (step env) (fun w => 8 * beats p w.board.log)
      (fun w => (w.board.ram.heartbeatCounters p).toNat) fun o => 8 * (o.names .ping p).toNat + (o.hears p).toNat :=
    fun o w => step_beats (step_inv env o w)
  have hspent := hcovered.spent_le (congrArg (8 * ·) hbooted) hcounters ops
  exact hspent.trans_eq (Credit.sum_grants 8 _ _ ops)

end Wagman.V4.Safemode
