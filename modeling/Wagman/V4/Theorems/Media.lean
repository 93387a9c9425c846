import Wagman.V4.Lemmas.Setup

/-!
# 起動する媒体の選択

ポート 0 と 1 の機器が起動するたびに選ぶ媒体は、前の起動の後に強制された媒体か、失敗と起動の回数から決まる媒体で
ある。また、選択ピンがそれぞれの機器だけのものであるための条件を示す。
-/

namespace Wagman.V4

open Machine

/-- 選択ピン `s` を持つ機器のポート。 -/
def portOf (s : Fin 2) : Port := ⟨s.val, by omega⟩

/-- 前の起動より後で最後に強制された媒体。 -/
def forcedMedia (p : Port) : Log → Option Media
  | [] => none
  | ⟨_, .media q m⟩ :: l => if q = p then some m else forcedMedia p l
  | ⟨_, .start q _⟩ :: l => if q = p then none else forcedMedia p l
  | _ :: l => forcedMedia p l

/-- 最後の起動で選んだ媒体。 -/
def lastStart (p : Port) : Log → Option Media
  | [] => none
  | ⟨_, .start q m⟩ :: l => if q = p then some m else lastStart p l
  | _ :: l => lastStart p l

/-- 失敗と起動の回数から決まる媒体。 -/
def policyMedia (p : Port) (m : Nat → UInt8) : Media :=
  if Record.getBootFailures m p < 30 then
    if Record.getBootFailures m p % 4 = 3 then (setupDevice p {}).secondaryMedia else (setupDevice p {}).primaryMedia
  else
    if Record.getBootAttempts m p % 2 = 1 then (setupDevice p {}).secondaryMedia else (setupDevice p {}).primaryMedia

def chosenMedia (p : Port) (h : Hardware) (l : Log) : Media :=
  (forcedMedia p l).getD (policyMedia p (replay h l).eeprom)

/-- 記録の先頭の事象が起動かリレーを入れる操作なら、媒体の選択が正しい。 -/
def ChoiceOk (s : Fin 2) (h : Hardware) : Log → Prop
  | ⟨_, .start q m⟩ :: l => q = portOf s → m = chosenMedia (portOf s) h l
  | ⟨_, .relay q true⟩ :: l => q = portOf s →
      ∃ m, lastStart (portOf s) l = some m ∧ (replay h l).pin (bootSelectorPin s) = m.level
  | _ => True

/-- 媒体の選択に関わる事象。 -/
def Event.Chooses (p : Port) : Event → Prop
  | .media q _ => q = p
  | .start q _ => q = p
  | .relay q mode => q = p ∧ mode = true
  | _ => False

section Plain

variable {p : Port} {x : Entry Event} (hx : ¬ x.event.Chooses p) (l : Log)

include hx

theorem forcedMedia_cons : forcedMedia p (x :: l) = forcedMedia p l := by
  obtain ⟨t, e⟩ := x
  cases e with
  | media q m => exact if_neg hx
  | start q m => exact if_neg hx
  | _ => rfl

theorem lastStart_cons : lastStart p (x :: l) = lastStart p l := by
  obtain ⟨t, e⟩ := x
  cases e with
  | start q m => exact if_neg hx
  | _ => rfl

end Plain

theorem choiceOk_cons {s : Fin 2} {x : Entry Event} (hx : ¬ x.event.Chooses (portOf s)) (h : Hardware)
    (l : Log) :
    ChoiceOk s h (x :: l) := by
  obtain ⟨t, e⟩ := x
  cases e with
  | start q m => exact fun hq => absurd hq hx
  | relay q mode =>
      cases mode with
      | true => exact fun hq => absurd ⟨hq, rfl⟩ hx
      | false => trivial
  | _ => trivial

theorem not_chooses_of_not_about {p : Port} {e : Event} (h : ¬ e.About p) : ¬ e.Chooses p := by
  cases e with
  | media q m => exact h
  | start q m => exact h
  | relay q mode => exact fun hc => h hc.1
  | _ => exact id

theorem Footprint.not_chooses {F : Footprint} (hn : ¬ F.on) (hf : ¬ F.force) {e : Event}
    (h : F.Allows e) :
    ¬ e.Chooses F.port := by
  cases e with
  | media q m => exact absurd h.2 hf
  | start q m => exact absurd h.2 hn
  | relay q mode => exact fun hc => hn (h.2 hc.2)
  | _ => exact id

section Select

variable {s : Fin 2} {w : World}

theorem getNextBootMedia_manage {p : Port} (hc : (dev w p).config = (setupDevice p {}).config) :
    Device.getNextBootMedia p (Device.manage p w) = (dev w p).forced.getD (policyMedia p w.hw.eeprom) := by
  have hd : dev (Device.manage p w) p =
      { dev w p with managed := decide (Record.getBootFailures w.hw.eeprom p < 30) } := by simp [Device.manage]
  have he : (Device.manage p w).hw = w.hw := rfl
  simp only [Device.config, Prod.mk.injEq] at hc
  obtain ⟨-, hprim, hsec, -⟩ := hc
  simp only [Device.getNextBootMedia, hd, he, Device.forced, policyMedia, hprim, hsec]
  cases (dev w p).shouldForceBootMedia with
  | true => simp
  | false => by_cases hf : Record.getBootFailures w.hw.eeprom p < 30 <;> simp [hf]

theorem bootSelector_portOf (s : Fin 2) : (setupDevice (portOf s) {}).bootSelector = s.val := by
  revert s; decide

/-- `start` の最初の部分は、決めた媒体を記録して選択ピンに出す。 -/
theorem selectMedia_eq (env : Env) (hc : (dev w (portOf s)).config = (setupDevice (portOf s) {}).config)
    {m : Media}
    (hm : m = (dev w (portOf s)).forced.getD (policyMedia (portOf s) w.hw.eeprom)) :
    Device.selectMedia env (portOf s) w = digitalWrite env (bootSelectorPin s) m.level
      ((setDev (portOf s) { dev w (portOf s) with
        managed := decide (Record.getBootFailures w.hw.eeprom (portOf s) < 30)
        shouldForceBootMedia := false } w).mark (.start (portOf s) m)) := by
  have hset :
      setDev (portOf s) { dev (Device.manage (portOf s) w) (portOf s) with shouldForceBootMedia := false }
      (Device.manage (portOf s) w) = setDev (portOf s) { dev w (portOf s) with
        managed := decide (Record.getBootFailures w.hw.eeprom (portOf s) < 30),
        shouldForceBootMedia := false } w := by
    simp [setDev, Device.manage, Machine.setRam, dev]
  have hsel : (dev w (portOf s)).bootSelector = s.val :=
    (congrArg Prod.fst hc).trans (bootSelector_portOf s)
  simp only [Device.selectMedia, hset, getNextBootMedia_manage hc, ← hm, setBootMedia, dev_setDev_self, hsel]
  exact dif_pos s.isLt

end Select

/-- 媒体の選択についての不変条件。 -/
structure MediaOk (s : Fin 2) (h : Hardware) (w : World) : Prop where
  replayed : w.hw = replay h w.log
  config : (dev w (portOf s)).config = (setupDevice (portOf s) {}).config
  forced : (dev w (portOf s)).forced = forcedMedia (portOf s) w.log
  always : Always (ChoiceOk s h) w.log

namespace MediaOk

variable {env : Env} {s : Fin 2} {h : Hardware} {w w' : World}

theorem of_trail (hw : MediaOk s h w) (hp : Trail (fun e => ¬ e.Chooses (portOf s)) w w')
    (hc : (dev w' (portOf s)).config = (dev w (portOf s)).config)
    (hf : (dev w' (portOf s)).forced = (dev w (portOf s)).forced) : MediaOk s h w' where
  replayed := hp.replayed hw.replayed
  config := hc.trans hw.config
  forced := by rw [hf, hw.forced, hp.log_eq fun x l hx => forcedMedia_cons hx l]
  always := (hp.always (fun x l hx _ => choiceOk_cons hx h l) (fun _ hk => hk)
    (hw.always _ (List.suffix_refl _)) hw.always).2

theorem of_frame (hw : MediaOk s h w) (hf : Frame (portOf s) w w') : MediaOk s h w' :=
  hw.of_trail (hf.trail.mono fun _ he => not_chooses_of_not_about he) (by rw [hf.dev]) (by rw [hf.dev])

theorem of_acts {F : Footprint} (hw : MediaOk s h w) (ha : Acts F w w') (hp : F.port = portOf s)
    (hn : ¬ F.on)
    (hf : ¬ F.force) : MediaOk s h w' :=
  hw.of_trail (hp ▸ ha.trail.mono fun _ he => Footprint.not_chooses hn hf he) (hp ▸ ha.config)
    (hp ▸ ha.forced hn hf)

theorem of_still (hw : MediaOk s h w) (hs : Still (fun e => ¬ e.Chooses (portOf s)) w w') :
    MediaOk s h w' :=
  hw.of_trail hs.trail (by simp only [dev, hs.ram]) (by simp only [dev, hs.ram])

/-! ## 媒体を強制する操作 -/

theorem setNextBootMedia (hw : MediaOk s h w) (m : Media) :
    MediaOk s h (Device.setNextBootMedia env (portOf s) m w) := by
  have hset : MediaOk s h ((setDev (portOf s)
      { dev w (portOf s) with shouldForceBootMedia := true, forceBootMedia := m } w).mark (.media (portOf s) m)) := by
    refine ⟨?_, ?_, ?_, ?_⟩
    · exact ((trail_setDev (A := fun _ => True) _ _).mark trivial).replayed hw.replayed
    · rw [← hw.config]
      simp [dev, Device.config]
    · simp [dev, Device.forced, forcedMedia]
    · exact always_cons.mpr ⟨trivial, hw.always⟩
  exact hset.of_still (still_setBootMedia fun _ _ => id)

/-! ## 起動 -/

theorem selectMedia (env : Env) (hw : MediaOk s h w) :
    MediaOk s h (Device.selectMedia env (portOf s) w) ∧
      ∃ m, lastStart (portOf s) (Device.selectMedia env (portOf s) w).log = some m ∧
        (Device.selectMedia env (portOf s) w).hw.pin (bootSelectorPin s) = m.level := by
  obtain ⟨m, hm⟩ : ∃ m, m = (dev w (portOf s)).forced.getD (policyMedia (portOf s) w.hw.eeprom) := ⟨_, rfl⟩
  rw [selectMedia_eq env hw.config hm]
  have hmark : MediaOk s h ((setDev (portOf s) { dev w (portOf s) with
      managed := decide (Record.getBootFailures w.hw.eeprom (portOf s) < 30)
      shouldForceBootMedia := false } w).mark (.start (portOf s) m)) := by
    refine ⟨?_, ?_, ?_, ?_⟩
    · exact ((trail_setDev (A := fun _ => True) _ _).mark trivial).replayed hw.replayed
    · rw [← hw.config]
      simp [dev, Device.config]
    · simp [dev, Device.forced, forcedMedia]
    · refine always_cons.mpr ⟨fun _ => ?_, hw.always⟩
      rw [hm, hw.forced, hw.replayed]
      rfl
  refine ⟨hmark.of_still (still_digitalWrite id), m, ?_, ?_⟩
  · exact if_pos rfl
  · simp [digitalWrite, Effect.apply, Hardware.digitalWrite]

/-- リレーを入れる操作は、選択ピンが最後に選んだ媒体を示しているときに行われる。 -/
theorem driveOn (env : Env) (hw : MediaOk s h w) {m : Media} (hl : lastStart (portOf s) w.log = some m)
    (hp : w.hw.pin (bootSelectorPin s) = m.level) (t v : UInt8) :
    MediaOk s h (Device.driveRelay env (portOf s) t true v w) := by
  -- `setRelay` の呼び出しの直前まで
  have hpre : Still (fun e => ¬ e.Chooses (portOf s) ∧ ∀ b, e ≠ .pin (bootSelectorPin s) b) w
      (delay env 10 (Record.setRelayState env (portOf s) t w)) :=
    (still_write ⟨id, by simp⟩).trans (still_delay 10)
  have h₁ : MediaOk s h (delay env 10 (Record.setRelayState env (portOf s) t w)) :=
    hw.of_still (hpre.mono fun _ he => he.1)
  have hl₁ :
      lastStart (portOf s) (delay env 10 (Record.setRelayState env (portOf s) t w)).log = some m := by
    rw [← hl]
    exact hpre.trail.log_eq fun x l hx => lastStart_cons hx.1 l
  have hp₁ :
      (delay env 10 (Record.setRelayState env (portOf s) t w)).hw.pin (bootSelectorPin s) = m.level := by
    rw [← hp]
    exact trail_pin hpre.trail fun b hb => hb.2 b rfl
  have heq :
      Device.driveRelay env (portOf s) t true v w = delay env 10 (Record.setRelayState env (portOf s) v
      (delay env 500 (setLatchedRelay env (relayClk (portOf s)) (relayD (portOf s)) true
        ((delay env 10 (Record.setRelayState env (portOf s) t w)).mark (.relay (portOf s) true))))) := rfl
  rw [heq]
  generalize delay env 10 (Record.setRelayState env (portOf s) t w) = w₁ at h₁ hl₁ hp₁
  have h₂ : MediaOk s h (w₁.mark (.relay (portOf s) true)) := by
    refine ⟨h₁.replayed, h₁.config, h₁.forced, always_cons.mpr ⟨fun _ => ⟨m, hl₁, ?_⟩, h₁.always⟩⟩
    rw [← h₁.replayed]
    exact hp₁
  have hpost : Still (fun e => ¬ e.Chooses (portOf s)) (w₁.mark (.relay (portOf s) true))
      (delay env 500 (setLatchedRelay env (relayClk (portOf s)) (relayD (portOf s)) true
        (w₁.mark (.relay (portOf s) true)))) :=
    (still_setLatchedRelay (fun _ => id) (fun _ => id) true).trans (still_delay 500)
  exact h₂.of_still (hpost.trans ((still_write id).trans (still_delay 10)))

theorem powerUp (hw : MediaOk s h w) : MediaOk s h (Device.powerUp env (portOf s) w) := by
  obtain ⟨h₁, m, hl, hp⟩ := hw.selectMedia env
  -- 起動の記録は、選択ピンにも選択の履歴にも触れない
  have hrec : Still (fun e => ∃ a v, e = .eeprom a v) (Device.selectMedia env (portOf s) w)
      (Device.recordBoot env (portOf s) (Device.selectMedia env (portOf s) w)) :=
    still_recordBoot fun _ _ _ => ⟨_, _, rfl⟩
  have hno : ∀ e : Event, (∃ a v, e = .eeprom a v) → ¬ e.Chooses (portOf s) := by
    rintro e ⟨a, v, rfl⟩
    exact id
  have h₂ := h₁.of_still (hrec.mono hno)
  have hl₂ := (hrec.trail.log_eq fun x l hx => lastStart_cons (hno _ hx) l).trans hl
  have hp₂ := (trail_pin hrec.trail (k := bootSelectorPin s) (by simp)).trans hp
  have h₃ := h₂.driveOn env hl₂ hp₂ relayTurningOn relayOn
  have hs : Acts (.relay (portOf s)) _ (Device.changeState (portOf s) .started
    (Device.driveRelay env (portOf s) relayTurningOn true relayOn
      (Device.recordBoot env (portOf s) (Device.selectMedia env (portOf s) w)))) := Acts.changeState .started
  exact h₃.of_acts hs rfl id id

theorem start (hw : MediaOk s h w) : MediaOk s h (Device.start env (portOf s) w).2 := by
  unfold Device.start
  split
  · exact hw
  · exact hw.powerUp

/-! ## 実行を通した選択 -/

theorem updateState (hw : MediaOk s h w) : MediaOk s h (Device.updateState env (portOf s) w) := by
  by_cases hd : Device.SwitchDue (portOf s) w
  · rw [Device.updateState_of_due env hd]
    simp only [Device.updateStartedUnmanaged, hd.2.2, if_true]
    have hread : MediaOk s h (ioRead env w) := hw.of_still still_ioRead
    exact (hread.setNextBootMedia _).of_acts (Device.acts_stop env _ _) rfl id id
  · exact hw.of_acts (Device.acts_updateState_of_not_due env hd) rfl id id

theorem step {o : Op} (hs : StepOn env (portOf s) o w w') (hw : MediaOk s h w) : MediaOk s h w' := by
  cases hs with
  | frame hf => exact hw.of_frame hf
  | update => exact (hw.of_acts (Device.acts_sense env w _) rfl id id).updateState
  | next _ _ h₁ h₂ => exact (hw.of_frame h₁).start.of_frame h₂
  | ping _ _ _ h₁ h₂ =>
      exact ((hw.of_frame h₁).of_acts (Device.acts_onHeartbeat env _ _) rfl id id).of_frame h₂
  | stop t _ _ h₁ =>
      have ha := (Device.acts_setStopTimeout w (portOf s) t).trans (Device.acts_stop env _ _)
      exact (hw.of_acts ha rfl id id).of_frame h₁
  | enable _ _ h₁ => exact (hw.of_acts (Device.acts_enable env w _) rfl id id).of_frame h₁
  | media m _ _ _ h₁ => exact (hw.setNextBootMedia m).of_frame h₁

theorem booted (env : Env) (h : Hardware) (s : Fin 2) : MediaOk s h (V4.booted env h) := by
  refine booted_induct (p := portOf s) (fun w w' hf hw => hw.of_frame hf) h ?_ ?_
  · intro w hd htrail
    have hp : Trail Event.Preparing (powerOn h) (Device.init env (portOf s) w) :=
      htrail.trans (Device.trail_init fun _ => trivial)
    have hno : ∀ e : Event, e.Preparing → ¬ e.Chooses (portOf s) := by
      intro e he
      cases e with
      | eeprom a v => exact id
      | pin k b => exact id
      | state q t => exact id
      | _ => exact he.elim
    have hlog : forcedMedia (portOf s) (Device.init env (portOf s) w).log = none :=
      hp.log_eq fun x l hx => forcedMedia_cons (hno _ hx) l
    refine ⟨hp.replayed rfl, ?_, ?_, ?_⟩
    · rw [Device.dev_init, hd]
      rfl
    · rw [hlog, Device.dev_init]
      rfl
    · refine (hp.always (K := ChoiceOk s h) (fun x l hx _ => choiceOk_cons (hno _ hx) h l) (fun _ hk => hk) ?_ ?_).2
      · trivial
      · intro l hl
        rw [List.suffix_nil.mp hl]
        trivial
  · intro w _ _ hw
    exact hw.powerUp

end MediaOk

/-- 起動のたびに選ぶ媒体。拒まれた `start` は何も変えない。 -/
theorem boot_media_policy (env : Env) (h : Hardware) (s : Fin 2) (ops : List Op) (w : World)
    (hrun : run env ops (booted env h) = some w) :
    (∀ t m l, ⟨t, .start (portOf s) m⟩ :: l <:+ w.log → m = chosenMedia (portOf s) h l) ∧
    (∀ t l, ⟨t, .relay (portOf s) true⟩ :: l <:+ w.log → ∃ m, lastStart (portOf s) l = some m ∧
      (replay h l).pin (bootSelectorPin s) = m.level) ∧
    (∀ v, (dev v (portOf s)).state = .stopping → (Device.start env (portOf s) v).2 = v) := by
  have hw : MediaOk s h w := 
    run_invariant_on (fun _ _ _ hs hw => MediaOk.step hs hw) hrun (MediaOk.booted env h s)
  refine ⟨fun t m l hl => hw.always _ hl rfl, fun t l hl => hw.always _ hl rfl, fun v hv => ?_⟩
  rw [Device.start_of_stopping env hv]

/-- ポート 1 に SD を強制してから起動を要求した実行。 -/
theorem boot_media_policy_forced : ∃ w,
    run Env.ideal [.request true 0 ⟨0xc00e, 2, some 0⟩, .request true 0 ⟨0xc007, 2, none⟩, .startNext]
      (booted Env.ideal Hardware.ready) = some w ∧ lastStart 1 w.log = some .sd ∧
      ∀ t m l, ⟨t, .start 1 m⟩ :: l <:+ w.log → m = chosenMedia 1 Hardware.ready l := by
  have hb :
      ((run Env.ideal [.request true 0 ⟨0xc00e, 2, some 0⟩, .request true 0 ⟨0xc007, 2, none⟩, .startNext]
      (booted Env.ideal Hardware.ready)).any fun w => decide (lastStart 1 w.log = some .sd)) = true := by
    decide +kernel
  obtain ⟨w, hw, hs⟩ := (Option.any_eq_true _ _).mp hb
  exact ⟨w, hw, of_decide_eq_true hs, (boot_media_policy Env.ideal Hardware.ready 1 _ w hw).1⟩

end Wagman.V4
