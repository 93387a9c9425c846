import Wagman.V4.Lemmas.Step

/-!
# 一つのポートから見た実行

ポート `p` に関わらない部分をまとめ、実行の一歩を、`devices[p]` の操作かどうかで場合分けする。
ポートごとの不変条件は、この場合分けと、起動についての帰納法から示す。
-/

namespace Wagman.V4

open Machine

/-- ポート `p` に関わる事象。媒体の選択ピンは機器の間で共有されうるので含めない。 -/
def Event.About (p : Port) : Event → Prop
  | .eeprom a _ => ∃ o < 128, a = Record.deviceRegion p + o
  | .pin k _ => k = relayClk p ∨ k = relayD p
  | .relay q _ => q = p
  | .state q _ => q = p
  | .heartbeat q => q = p
  | .media q _ => q = p
  | .start q _ => q = p
  | .killed q => q = p
  | _ => False

/-- ポート `p` に関わる事象を起こさず、`devices[p]` も変えない。 -/
structure Frame (p : Port) (w w' : World) : Prop where
  trail : Trail (fun e => ¬ e.About p) w w'
  dev : dev w' p = dev w p

theorem le_deviceRegion (p : Port) : 256 ≤ Record.deviceRegion p := Nat.le_add_right _ _

theorem relayD_injective : Function.Injective relayD := by decide

theorem led_ne_relayD {k : Nat} (h : k ∈ ledPins) (p : Port) : k ≠ relayD p := by
  have : ∀ k ∈ ledPins, ∀ p, k ≠ relayD p := by decide
  exact this k h p

theorem Footprint.not_about {F : Footprint} {p : Port} (hp : p ≠ F.port) {e : Event} (he : F.Allows e) :
    ¬ e.About p := by
  cases e with
  | eeprom a v =>
      rintro ⟨o, ho, ha⟩
      obtain ⟨o', ho', ha'⟩ := he
      exact hp (deviceRegion_add_inj ho (F.off_lt o' ho') (ha.symm.trans ha')).1
  | pin k b =>
      rintro (rfl | rfl) <;> rcases he with hk | hk | ⟨s, _, hk⟩
      · exact hp (relayClk_injective hk)
      · exact relayD_ne_relayClk _ _ hk.symm
      · exact bootSelectorPin_ne_relayClk _ _ hk.symm
      · exact relayD_ne_relayClk _ _ hk
      · exact hp (relayD_injective hk)
      · exact bootSelectorPin_ne_relayD _ _ hk.symm
  | relay q m => exact fun h => hp (h.symm.trans he.1)
  | state q s => exact fun h => hp (h.symm.trans he)
  | heartbeat q => exact fun h => hp (h.symm.trans he)
  | media q m => exact fun h => hp (h.symm.trans he.1)
  | start q m => exact fun h => hp (h.symm.trans he.1)
  | killed q => exact fun h => hp (h.symm.trans he)
  | next q r => exact he.elim
  | resp id sub v => exact he.elim
  | respBytes id sub v => exact he.elim

theorem Event.Quiet.not_about {e : Event} (he : e.Quiet) (p : Port) : ¬ e.About p := by
  cases e with
  | pin k b =>
      rintro (hk | hk)
      · exact led_ne_relayClk he p hk
      · exact led_ne_relayD he p hk
  | resp id sub v => exact fun h => h
  | respBytes id sub v => exact fun h => h
  | _ => exact he.elim

namespace Frame

variable {p : Port} {w w' w'' : World}

theorem refl (w : World) : Frame p w w := ⟨Trail.refl w, rfl⟩

theorem trans (h₁ : Frame p w w') (h₂ : Frame p w' w'') : Frame p w w'' :=
  ⟨h₁.trail.trans h₂.trail, h₂.dev.trans h₁.dev⟩

theorem ofStill {A : Event → Prop} (h : Still A w w') (hA : ∀ e, A e → ¬ e.About p) : Frame p w w' :=
  ⟨h.trail.mono hA, by simp only [V4.dev, h.ram]⟩

theorem ofIdle (h : Idle w w') : Frame p w w' := ofStill h fun _ he => Event.Quiet.not_about he p

theorem ofTick (h : Tick w w') : Frame p w w' :=
  ⟨h.trail.mono fun _ he => Event.Quiet.not_about he p, by simp only [V4.dev, h.devices]⟩

theorem ofActs {F : Footprint} (h : Acts F w w') (hp : p ≠ F.port) : Frame p w w' :=
  ⟨h.trail.mono fun _ he => Footprint.not_about hp he, h.other p hp⟩

theorem setRam {r : Ram} (h : r.devices = w.ram.devices) : Frame p w (w.setRam r) :=
  ⟨(Trail.refl w).setRam r, by simp only [V4.dev, setRam_ram, h]⟩

/-! ## 装置への作用 -/

theorem byte_eq (h : Frame p w w') {o : Nat} (ho : o < 128) :
    w'.hw.eeprom (Record.deviceRegion p + o) = w.hw.eeprom (Record.deviceRegion p + o) :=
  trail_eeprom h.trail fun _ hn => hn ⟨o, ho, rfl⟩

theorem word_eq (h : Frame p w w') {o : Nat} (ho : o + 4 ≤ 128) :
    Bytes.get w'.hw.eeprom (Record.deviceRegion p + o) 4 = Bytes.get w.hw.eeprom (Record.deviceRegion p + o) 4 :=
  trail_word h.trail fun b _ h₁ h₂ hn => hn ⟨b - Record.deviceRegion p, by omega, by omega⟩

theorem failures_eq (h : Frame p w w') :
    Record.getBootFailures w'.hw.eeprom p = Record.getBootFailures w.hw.eeprom p :=
  congrArg UInt32.ofNat (h.word_eq (by simp))

theorem enabled_eq (h : Frame p w w') :
    Record.getDeviceEnabled w'.hw.eeprom p = Record.getDeviceEnabled w.hw.eeprom p := by
  simp only [Record.getDeviceEnabled, h.byte_eq (o := Record.portEnabled) (by simp)]

end Frame

/-! ## リレーに関わる事象 -/

/-- ポート `p` のリレーを動かすか、その状態を書き換える事象。 -/
def Event.MovesRelay (p : Port) : Event → Prop
  | .eeprom a _ => a = Record.deviceRegion p + Record.portRelayJournal
  | .pin k _ => k = relayClk p
  | .relay q _ => q = p
  | _ => False

theorem not_movesRelay_of_not_about {p : Port} {e : Event} (h : ¬ e.About p) : ¬ e.MovesRelay p := by
  cases e with
  | eeprom a v => exact fun ha => h ⟨_, by simp, ha⟩
  | pin k b => exact fun hk => h (Or.inl hk)
  | relay q m => exact h
  | _ => exact id

theorem still_setDeviceEnabled (env : Env) (p : Port) (b : Bool) (w : World) :
    Still (fun e => ¬ e.MovesRelay p) w (Record.setDeviceEnabled env p b w) := by
  refine still_write ?_
  intro ha
  simp only [Event.MovesRelay, Record.portEnabled, Record.portRelayJournal] at ha
  omega

/-! ## 実行の一歩 -/

/-- ポート `p` から見た実行の一歩。`devices[p]` の操作の前後は、ポート `p` に関わらない。 -/
inductive StepOn (env : Env) (p : Port) : Op → World → World → Prop
  | frame {o w w'} : Frame p w w' → StepOn env p o w w'
  | update {w} : StepOn env p (.update p) w (Device.update env p w)
  | next {w w₁ w'} : w.ram.deviceWantsStart.toNat = p.val ∨ (dev w p).state = .stopped →
      w.ram.shouldResetSystem = false → Frame p w w₁ → Frame p (Device.start env p w₁).2 w' →
      StepOn env p .startNext w w'
  | ping {a port r w w₁ w'} : Req.ofId r.id = some .ping → (a = true ∨ port = r.subId - 1) → r.Targets p →
      Frame p w w₁ → Frame p (Device.onHeartbeat env p w₁) w' → StepOn env p (.request a port r) w w'
  | stop {port r w w'} (t : UInt32) : (Req.ofId r.id = some .stop ∧ r.value.isSome) → r.Targets p →
      Frame p (Device.stop env p (Device.setStopTimeout p t w)).2 w' → StepOn env p (.request true port r) w w'
  | enable {port r w w'} : Req.ofId r.id = some .deviceEnable → r.Targets p →
      Frame p (Device.enable env p w) w' → StepOn env p (.request true port r) w w'
  | media {port r w w'} (m : Media) : Req.ofId r.id = some .setMediaSelect → r.Targets p → p = 0 ∨ p = 1 →
      Frame p (Device.setNextBootMedia env p m w) w' → StepOn env p (.request true port r) w w'

/-! ## 要求の宛先 -/

/-- 管理者からの、`C` を満たす要求。 -/
def Op.Admin (C : Request → Prop) : Op → Prop
  | .request true _ r => C r
  | _ => False

instance (C : Request → Prop) [DecidablePred C] : DecidablePred (Op.Admin C)
  | .request true _ r => inferInstanceAs (Decidable (C r))
  | .request false _ _ | .idle _ | .pinHB _ | .startNext | .update _ | .resetAll | .status | .reset | .leds =>
      isFalse id

instance (r : Request) (p : Port) : Decidable (r.Targets p) := inferInstanceAs (Decidable (_ = _))

/-- `devices[p]` の `enable()` を呼ぶ要求。 -/
abbrev Op.Enables (p : Port) : Op → Prop :=
  Op.Admin fun r => Req.ofId r.id = some .deviceEnable ∧ r.Targets p

/-- `devices[p]` の `stop()` を呼ぶ要求。 -/
abbrev Op.Stops (p : Port) : Op → Prop :=
  Op.Admin fun r => (Req.ofId r.id = some .stop ∧ r.value.isSome) ∧ r.Targets p

/-- `deviceWantsStart` を `p` にする要求。番号は下位の一バイトだけが使われる。 -/
abbrev Op.Starts (p : Port) : Op → Prop :=
  Op.Admin fun r => Req.ofId r.id = some .start ∧ (r.subId - 1) % 256 = (p.val : Int)

/-! ## `startNextDevice` -/

/-- `startNextDevice` が `devices[i]` の `start()` を呼ぶ直前の状態。 -/
def beginStart (i : Port) (requested : Bool) (w : World) : World :=
  (w.setRam { w.ram with startTimer := timerNow w }).mark (.next i requested)

/-- `startNextDevice` が次に `start()` を呼ぶ機器。 -/
def nextDevice (w : World) : Option Port :=
  if h : w.ram.deviceWantsStart.toNat < 5 then some ⟨w.ram.deviceWantsStart.toNat, h⟩
  else if w.ram.startTimer.exceeds w.now 60000 then (List.finRange 5).find? (fun i => Device.canStart i w)
  else none

theorem startNextDevice_inv (env : Env) (w : World) :
    (startNextDevice env w = w) ∨
    (∃ i : Port, nextDevice w = some i ∧ w.ram.deviceWantsStart.toNat = i.val ∧
      startNextDevice env w = ((Device.start env i (beginStart i true w)).2.setRam
        { (Device.start env i (beginStart i true w)).2.ram with deviceWantsStart := 255 })) ∨
    (∃ i : Port, nextDevice w = some i ∧ w.ram.startTimer.exceeds w.now 60000 = true ∧
      Device.canStart i w = true ∧ startNextDevice env w = (Device.start env i (beginStart i false w)).2) := by
  unfold startNextDevice nextDevice
  split
  · rename_i h
    exact Or.inr (Or.inl ⟨⟨_, h⟩, rfl, rfl, rfl⟩)
  · split
    · rename_i he
      split
      · rename_i i hi
        have hc := List.find?_some hi
        exact Or.inr (Or.inr ⟨i, hi, he, hc, rfl⟩)
      · exact Or.inl rfl
    · exact Or.inl rfl

theorem frame_beginStart (p i : Port) (requested : Bool) (w : World) :
    Frame p w (beginStart i requested w) :=
  ⟨((Trail.refl w).setRam _).mark id, rfl⟩

theorem canStart_state {i : Port} {w : World} (h : Device.canStart i w = true) :
    (dev w i).state = .stopped := by
  simp only [Device.canStart, Bool.and_eq_true, beq_iff_eq] at h
  exact h.1

theorem frame_clearMagic (env : Env) (p : Port) (w : World) : Frame p w (Record.clearMagic env w) := by
  have h : Still (fun e => ¬ e.About p) w (Record.clearMagic env w) := by
    refine still_put (fun b v _ hb => ?_) 0
    rintro ⟨o, _, ha⟩
    have := le_deviceRegion p
    simp only [Record.magicAddr] at hb
    omega
  exact Frame.ofStill h fun _ h => h

theorem frame_commandReset (env : Env) (p : Port) (w : World) : Frame p w (commandReset env w) :=
  ⟨((Trail.refl w).setRam _).emit _ id, rfl⟩

/-- すべてのリレーを切るのでない一歩は、ポート `p` から見れば場合分けのどれかである。 -/
theorem Step.on_of {env : Env} {o : Op} {w w' : World} (h : Step env o w w')
    (hall : w.ram.shouldResetAll = false ∨ w' ≠ doResetAll env w) (p : Port) : StepOn env p o w w' := by
  cases h with
  | tick ht => exact .frame (Frame.ofTick ht)
  | update i =>
      by_cases hi : p = i
      · subst hi; exact .update
      · exact .frame (Frame.ofActs (Device.acts_update env w i) hi)
  | next hs =>
      have hother : ∀ i b, p ≠ i → Frame p w (Device.start env i (beginStart i b w)).2 := fun i b hi =>
        (frame_beginStart p i b w).trans (Frame.ofActs (Device.acts_start env _ i) hi)
      rcases startNextDevice_inv env w with h | ⟨i, -, hw, h⟩ | ⟨i, -, -, hc, h⟩
      · rw [h]; exact .frame (Frame.refl w)
      · rw [h]
        by_cases hi : p = i
        · subst hi
          exact .next (Or.inl hw) hs (frame_beginStart p p true w) (Frame.setRam rfl)
        · exact .frame ((hother i true hi).trans (Frame.setRam rfl))
      · rw [h]
        by_cases hi : p = i
        · subst hi
          exact .next (Or.inr (canStart_state hc)) hs (frame_beginStart p p false w) (Frame.refl _)
        · exact .frame (hother i false hi)
  | ping i hr ha ht h₁ h₂ =>
      by_cases hi : p = i
      · subst hi; exact .ping hr ha ht (Frame.ofIdle h₁) (Frame.ofIdle h₂)
      · exact .frame (((Frame.ofIdle h₁).trans (Frame.ofActs (Device.acts_onHeartbeat env _ i) hi)).trans
          (Frame.ofIdle h₂))
  | start i hr ht h₁ =>
      have hset : Frame p w (w.setRam { w.ram with deviceWantsStart := UInt8.ofNat i.val }) :=
        Frame.setRam rfl
      exact .frame (hset.trans (Frame.ofIdle h₁))
  | stop i t hr ht h₁ =>
      by_cases hi : p = i
      · subst hi; exact .stop t hr ht (Frame.ofIdle h₁)
      · have hacts := (Device.acts_setStopTimeout w i t).trans (Device.acts_stop env _ i)
        exact .frame ((Frame.ofActs hacts hi).trans (Frame.ofIdle h₁))
  | enable i hr ht h₁ =>
      by_cases hi : p = i
      · subst hi; exact .enable hr ht (Frame.ofIdle h₁)
      · exact .frame ((Frame.ofActs (Device.acts_enable env w i) hi).trans (Frame.ofIdle h₁))
  | media i m hr ht h01 h₁ =>
      by_cases hi : p = i
      · subst hi; exact .media m hr ht h01 (Frame.ofIdle h₁)
      · exact .frame ((Frame.ofActs (Device.acts_setNextBootMedia env w i m) hi).trans (Frame.ofIdle h₁))
  | eereset hr h₁ => exact .frame ((frame_clearMagic env p w).trans (Frame.ofIdle h₁))
  | reset hr => exact .frame (frame_commandReset env p w)
  | resetAll h =>
      rcases hall with hall | hne
      · rw [hall] at h
        cases h
      · exact absurd rfl hne

theorem Step.on {env : Env} {o : Op} {w w' : World} (h : Step env o w w')
    (hall : w.ram.shouldResetAll = false) (p : Port) : StepOn env p o w w' := h.on_of (Or.inl hall) p

/-- `deviceWantsStart` を `p` にするのは、`p` を起動する要求だけである。 -/
theorem Step.wants_ne {env : Env} {o : Op} {w w' : World} (h : Step env o w w')
    (hall : w.ram.shouldResetAll = false) {p : Port} (ho : ¬ o.Starts p)
    (hw : w.ram.deviceWantsStart.toNat ≠ p.val) : w'.ram.deviceWantsStart.toNat ≠ p.val := by
  cases h with
  | tick ht => rw [ht.wants]; exact hw
  | update i => rw [(Device.acts_update env w i).wants_eq]; exact hw
  | next hs =>
      rcases startNextDevice_inv env w with h | ⟨i, -, -, h⟩ | ⟨i, -, -, -, h⟩
      · rw [h]; exact hw
      · rw [h]
        intro hp
        have hlt := p.isLt
        simp only [setRam_ram, UInt8.reduceToNat] at hp
        omega
      · rw [h, (Device.acts_start env _ i).wants_eq]; exact hw
  | ping i hr ha ht h₁ h₂ => rw [h₂.ram, (Device.acts_onHeartbeat env _ i).wants_eq, h₁.ram]; exact hw
  | start i hr ht h₁ =>
      rw [h₁.ram]
      intro hp
      refine ho ⟨hr, ?_⟩
      have hlt := i.isLt
      simp only [setRam_ram, UInt8.toNat_ofNat'] at hp
      omega
  | stop i t hr ht h₁ => rw [h₁.ram, (Device.acts_stop env _ i).wants_eq]; exact hw
  | enable i hr ht h₁ => rw [h₁.ram, (Device.acts_enable env w i).wants_eq]; exact hw
  | media i m hr ht h01 h₁ => rw [h₁.ram, (Device.acts_setNextBootMedia env w i m).wants_eq]; exact hw
  | eereset hr h₁ => rw [h₁.ram]; simpa [Record.clearMagic] using hw
  | reset hr => exact hw
  | resetAll hs => rw [hall] at hs; cases hs

/-- `setupDevices` が定めた欄は、どの一歩でも変わらない。 -/
theorem StepOn.config_eq {env : Env} {p : Port} {o : Op} {w w' : World} (h : StepOn env p o w w') :
    (dev w' p).config = (dev w p).config := by
  cases h with
  | frame hf => rw [hf.dev]
  | update => exact (Device.acts_update env w p).config
  | next _ _ h₁ h₂ => rw [h₂.dev, ← h₁.dev]; exact (Device.acts_start env _ p).config
  | ping _ _ _ h₁ h₂ => rw [h₂.dev, ← h₁.dev]; exact (Device.acts_onHeartbeat env _ p).config
  | stop t _ _ h₁ =>
      rw [h₁.dev]
      exact ((Device.acts_setStopTimeout w p t).trans (Device.acts_stop env _ p)).config
  | enable _ _ h₁ => rw [h₁.dev]; exact (Device.acts_enable env w p).config
  | media m _ _ _ h₁ => rw [h₁.dev]; exact (Device.acts_setNextBootMedia env w p m).config

theorem StepOn.trail {env : Env} {p : Port} {o : Op} {w w' : World} (h : StepOn env p o w w') :
    Trail (fun _ => True) w w' := by
  have hacts : ∀ {F : Footprint} {v v' : World}, Acts F v v' → Trail (fun _ => True) v v' := fun ha =>
    ha.trail.mono fun _ _ => trivial
  have hframe : ∀ {v v' : World}, Frame p v v' → Trail (fun _ => True) v v' := fun hf =>
    hf.trail.mono fun _ _ => trivial
  cases h with
  | frame hf => exact hframe hf
  | update => exact hacts (Device.acts_update env w p)
  | next _ _ h₁ h₂ => exact ((hframe h₁).trans (hacts (Device.acts_start env _ p))).trans (hframe h₂)
  | ping _ _ _ h₁ h₂ => exact ((hframe h₁).trans (hacts (Device.acts_onHeartbeat env _ p))).trans (hframe h₂)
  | stop t _ _ h₁ =>
      exact (hacts ((Device.acts_setStopTimeout w p t).trans (Device.acts_stop env _ p))).trans (hframe h₁)
  | enable _ _ h₁ => exact (hacts (Device.acts_enable env w p)).trans (hframe h₁)
  | media m _ _ _ h₁ => exact (hacts (Device.acts_setNextBootMedia env w p m)).trans (hframe h₁)

end Wagman.V4
