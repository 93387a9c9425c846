import Wagman.V3.Lemmas.Recovery
import Wagman.V3.Theorems.Enabled

/-!
# 中断したリレーの切り替えの回復

`setupDevices` は、切り替えの途中で止まったリレーを切ろうとする。リレーが実際に切られるのは、機器が有効なときに限る。
`Device::init` が `DISABLED` にした機器の `kill()` は、何もせずに戻るからである。電源の喪失で始まった回復は、それ自体が
何度中断されても、記録を `RELAY_OFF` にしてから有効の印を消すまでの間を除けば、最後に機器を無効にする。
-/

namespace Wagman.V3

open Machine

/-! ## リレーを切る呼び出し -/

/-- `w` から `w'` までの間に `Wagman::setRelay(i, false)` が実行された。 -/
def SwitchesOff (i : Port) (w w' : World) : Prop :=
  ∃ new, w'.log = new ++ w.log ∧ ∃ x ∈ new, x.event = .relay i false

section SwitchesOff

variable {env : Env} {i : Port} {w w' v v' : World} {A B : Event → Prop}

theorem SwitchesOff.extend (h : SwitchesOff i v v') (h₁ : Trail A w v) (h₂ : Trail B v' w') : SwitchesOff i w w' := by
  obtain ⟨new, hl, x, hx, he⟩ := h
  obtain ⟨n₁, hl₁, -, -⟩ := h₁.log
  obtain ⟨n₂, hl₂, -, -⟩ := h₂.log
  exact ⟨n₂ ++ new ++ n₁, by simp [hl₂, hl, hl₁], x, by simp [hx], he⟩

theorem not_switchesOff (h : Trail (fun e => e ≠ .relay i false) w w') : ¬ SwitchesOff i w w' := by
  rintro ⟨new, hl, x, hx, he⟩
  exact (h.of_log hl).2 x hx he

theorem setRelay_log (env : Env) (i : Port) (on : Bool) (w : World) :
    ∃ new, (setRelay env i on w).log = new ++ ⟨w.now, .relay i on⟩ :: w.log := by
  unfold setRelay
  split
  · exact ⟨[_, _, _, _], rfl⟩
  · exact ⟨[_], rfl⟩

theorem switchesOff_powerDown : SwitchesOff i w (Device.powerDown env i w) := by
  have hset : SwitchesOff i (delay env 10 (Record.setRelayState env i relayTurningOff w))
      (setRelay env i false (delay env 10 (Record.setRelayState env i relayTurningOff w))) := by
    obtain ⟨new, hl⟩ := setRelay_log env i false (delay env 10 (Record.setRelayState env i relayTurningOff w))
    exact ⟨new ++ [_], by rw [hl, List.append_assoc]; rfl, _,
      List.mem_append_right _ (List.mem_singleton_self _), rfl⟩
  have hbefore : Still (fun _ => True) w (delay env 10 (Record.setRelayState env i relayTurningOff w)) :=
    (still_write trivial).trans (still_delay 10)
  have hafter : ∀ u : World, Trail (fun _ => True) u
      (Device.changeState i .stopped (delay env 10 (Record.setRelayState env i relayOff (delay env 500 u)))) :=
    fun u =>
    ((still_delay 500).trans ((still_write trivial).trans (still_delay 10))).trail.trans
      (((Trail.refl _).setRam _).mark trivial)
  exact hset.extend hbefore.trail ((hafter _).setRam _)

theorem journal_powerDown : Record.getRelayState (Device.powerDown env i w).hw.eeprom i = relayOff := by
  have hbyte : (Device.powerDown env i w).hw.eeprom (journalAddr i) = relayOff := Bytes.store_self _ _ _
  exact hbyte

end SwitchesOff

/-! ## 切れる条件 -/

section Recover

variable {env : Env} {i : Port} {v : World}

theorem kill_of_ne (h : (dev v i).state ≠ .disabled) : (Device.kill env i v).2 = Device.powerDown env i v := by
  simp [Device.kill, h]

theorem kill_of_disabled (h : (dev v i).state = .disabled) : (Device.kill env i v).2 = v := by
  simp [Device.kill, h]

/-- 有効な機器の回復は、リレーを切る操作を含む。 -/
theorem recoverRelay_of_awake (env : Env) (ht : Turning v.hw.eeprom i) (hs : (dev v i).state ≠ .disabled) :
    ∃ u, Trail (fun _ => True) v u ∧ (recoverRelay env i v = Device.powerDown env i u ∨
      recoverRelay env i v = Device.changeState i .disabled (Device.powerDown env i u)) := by
  have hbegin : Still (fun _ => True) v (beginRecovery env i v) := still_ioRead.trans (still_write trivial)
  have hclear : Still (fun _ => True) v (Record.setDeviceEnabled env i false (beginRecovery env i v)) :=
    hbegin.trans (still_write trivial)
  rw [recoverRelay_of_turning ht]
  split
  · by_cases hi : i = 0
    · subst hi
      rw [disable_zero, kill_of_ne (by rw [dev_still hbegin]; exact hs)]
      exact ⟨_, hbegin.trail, Or.inl rfl⟩
    · rw [disable_of_ne_zero hi, kill_of_ne (by rw [dev_still hclear]; exact hs)]
      exact ⟨_, hclear.trail, Or.inr rfl⟩
  · rw [kill_of_ne (by rw [dev_still hbegin]; exact hs)]
    exact ⟨_, hbegin.trail, Or.inl rfl⟩

theorem recoverRelay_of_disabled (hs : (dev v i).state = .disabled) :
    Trail (fun e => e ≠ .relay i false) v (recoverRelay env i v) := by
  have hbegin : Still (fun e => e ≠ .relay i false) v (beginRecovery env i v) :=
    still_ioRead.trans (still_write nofun)
  by_cases ht : Turning v.hw.eeprom i
  · rw [recoverRelay_of_turning ht]
    split
    · by_cases hi : i = 0
      · subst hi
        rw [disable_zero, kill_of_disabled (by rw [dev_still hbegin]; exact hs)]
        exact hbegin.trail
      · have hclear : Still (fun e => e ≠ .relay i false) v
            (Record.setDeviceEnabled env i false (beginRecovery env i v)) := hbegin.trans (still_write nofun)
        rw [disable_of_ne_zero hi, kill_of_disabled (by rw [dev_still hclear]; exact hs)]
        exact (hclear.trail.setRam _).mark nofun
    · rw [kill_of_disabled (by rw [dev_still hbegin]; exact hs)]
      exact hbegin.trail
  · rw [recoverRelay_of_not_turning ht]
    exact still_ioRead.trail

end Recover

/-- 前の実行がどこで途切れて残したどの装置 `h` から起動しても、またリセットの原因が何であっても、切り替えの途中と記された
ポート `i` のリレーを `setupDevices` が切って `RELAY_OFF` と記すのは、`setupDevices` の初めに `i` が有効であるとき、
またそのときに限る。 -/
theorem recovery_switches_off_iff (env : Env) (h : Hardware) (i : Port)
    (hturning : Turning (prepare env (powerOn h)).hw.eeprom i) :
    (Record.getRelayState (setupDevices env (prepare env (powerOn h))).hw.eeprom i = relayOff ∧
      SwitchesOff i (prepare env (powerOn h)) (setupDevices env (prepare env (powerOn h)))) ↔
    Record.getDeviceEnabled (prepare env (powerOn h)).hw.eeprom i = true := by
  obtain ⟨v, hv, hf⟩ := setupDevices_at env i (prepare env (powerOn h))
  constructor
  · rintro ⟨-, hoff⟩
    by_contra he
    have hs : (dev v i).state = .disabled := by rw [hv.state, initialState, if_neg he]
    refine not_switchesOff ?_ hoff
    refine (hv.trail.mono fun e he hr => ?_).trans ((recoverRelay_of_disabled hs).trans
      (hf.trail.mono fun e he hr => he (by rw [hr]; rfl)))
    obtain ⟨s, hs⟩ := he (by rw [hr]; rfl)
    rw [hr] at hs
    cases hs
  · intro he
    have hs : (dev v i).state ≠ .disabled := by
      rw [hv.state, initialState, if_pos he]
      decide
    obtain ⟨u, hu, hr⟩ := recoverRelay_of_awake env (hv.turning_iff.mpr hturning) hs
    have hjournal : Record.getRelayState (recoverRelay env i v).hw.eeprom i = relayOff := by
      rcases hr with hr | hr
      · rw [hr]; exact journal_powerDown
      · rw [hr]; exact journal_powerDown
    have hoff : SwitchesOff i u (recoverRelay env i v) := by
      rcases hr with hr | hr
      · rw [hr]; exact switchesOff_powerDown
      · rw [hr]
        exact switchesOff_powerDown.extend (Trail.refl (A := fun _ => True) _)
          (((Trail.refl (A := fun _ => True) _).setRam _).mark trivial)
    have hbefore : Trail (fun _ => True) _ u := (hv.trail.mono fun _ _ => trivial).trans hu
    exact ⟨(hf.byte_eq (by simp)).trans hjournal, hoff.extend hbefore hf.trail⟩

/-- 切り替えの途中でポート 1 を止めた装置。ポート 1 は有効で、電源の投入で起動する。 -/
def Hardware.turning (state : UInt8) : Hardware :=
  { Hardware.ready with
    eeprom := Bytes.store 0x41 1 (Bytes.store (journalAddr 1) state Hardware.ready.eeprom) }

theorem recovery_switches_off_iff_enabled :
    Turning (prepare Env.ideal (powerOn (.turning relayTurningOff))).hw.eeprom 1 ∧
    SwitchesOff 1 (prepare Env.ideal (powerOn (.turning relayTurningOff)))
      (setupDevices Env.ideal (prepare Env.ideal (powerOn (.turning relayTurningOff)))) := by
  have ht : Turning (prepare Env.ideal (powerOn (.turning relayTurningOff))).hw.eeprom 1 := by decide +kernel
  exact ⟨ht, ((recovery_switches_off_iff Env.ideal _ 1 ht).mpr (by decide +kernel)).2⟩

/-- ポート 1 の機器を起動してから、`disable 1` の命令を受ける実行。 -/
def startThenDisable : List Op :=
  [.line (ascii ['s', 't', 'a', 'r', 't', ' ', '1', '\n']) [], .startNext,
    .line (ascii ['d', 'i', 's', 'a', 'b', 'l', 'e', ' ', '1', '\n']) []]

/-- `disable 1` が有効の印を消して `RELAY_TURNING_OFF` と記したところで途切れると、次の `setupDevices` はリレーを切らない。 -/
theorem recovery_skips_disabled : ∃ l h,
    l <:+ (run Env.ideal startThenDisable (booted Env.ideal Hardware.ready)).log ∧ h = replay Hardware.ready l ∧
    h.pin (powerPin 1) = true ∧ Turning (prepare Env.ideal (powerOn h)).hw.eeprom 1 ∧
    ¬ SwitchesOff 1 (prepare Env.ideal (powerOn h)) (setupDevices Env.ideal (prepare Env.ideal (powerOn h))) := by
  refine ⟨_, _, List.drop_suffix 7 _, rfl, by decide +kernel, by decide +kernel, ?_⟩
  rintro ⟨new, hl, x, hx, he⟩
  have hnone : ∀ x ∈ (setupDevices Env.ideal (prepare Env.ideal (powerOn (replay Hardware.ready
      ((run Env.ideal startThenDisable (booted Env.ideal Hardware.ready)).log.drop 7))))).log,
    x.event ≠ .relay 1 false := by
    decide +kernel
  exact hnone x (by rw [hl]; simp [hx]) he

/-! ## 回復の中断 -/

/-- 有効な機器の記録を `RELAY_OFF` にしてから、有効の印を消すまでの間で途切れた。`l` はそれまでに起きた事象である。 -/
def Gap (i : Port) (w : World) (l : Log) : Prop :=
  w.hw.eeprom (enabledAddr i) ≠ 0 ∧ (∃ x ∈ l, x.event = .eeprom (journalAddr i) relayOff) ∧
    ∀ x ∈ l, x.event ≠ .eeprom (enabledAddr i) 0

/-- 電源の喪失で始まり、ポート `i` の記録が `RELAY_TURNING_ON` である起動と、その `setupDevices` の途中で電源を失って
繰り返される起動。状態は `setupDevices` の直前で、`cuts` は途切れた `setupDevices` の初めの状態と、それまでに起きた事象である。
リセットの原因は、起動の前に番地 `0x41` に書かれる。 -/
inductive Retries (i : Port) : List (World × Log) → World → Prop
  | found {env h} : powerLost (h.eeprom 0x41) = true →
      Record.getRelayState (prepare env (powerOn h)).hw.eeprom i = relayTurningOn →
      Retries i [] (prepare env (powerOn h))
  | again {env env' cuts w l h} : Retries i cuts w → Cut w (setupDevices env w) l →
      powerLost (h.eeprom 0x41) = true → (∀ a, a ≠ 0x41 → h.eeprom a = (replay w.hw l).eeprom a) →
      Retries i ((w, l) :: cuts) (prepare env' (powerOn h))

section Retries

variable {env : Env} {i : Port} {w v : World} {l : Log}

/-- ポート `i` の有効の印にも、リレーの記録にも書かない事象。 -/
def Event.Spares (i : Port) (e : Event) : Prop :=
  ∀ v, e ≠ .eeprom (journalAddr i) v ∧ e ≠ .eeprom (enabledAddr i) v

theorem Event.Enters.spares {e : Event} (h : e.Enters i) : e.Spares i := by
  intro v
  constructor
  · rintro rfl
    exact enters_eeprom (by simp) v h
  · rintro rfl
    exact enters_eeprom (by simp) v h

theorem spares_of_not_about {e : Event} (h : ¬ e.About i) : e.Spares i :=
  Event.Enters.spares fun ha => absurd ha h

theorem replay_eeprom {a : Nat} (h : ∀ x ∈ l, ∀ v, x.event ≠ .eeprom a v) (s : Hardware) :
    (replay s l).eeprom a = s.eeprom a := by
  induction l with
  | nil => rfl
  | cons x l ih =>
      have hl := ih fun y hy => h y (by simp [hy])
      have hx := h x (by simp)
      obtain ⟨t, e⟩ := x
      cases e with
      | eeprom b v =>
          have hne : a ≠ b := by rintro rfl; exact hx v rfl
          simpa [Effect.apply, Bytes.store_of_ne hne] using hl
      | _ => exact hl

theorem journalAddr_ne_enabledAddr (i : Port) : journalAddr i ≠ enabledAddr i := by
  simp [journalAddr, enabledAddr]

theorem spares_setupDevices (h : ¬ Turning w.hw.eeprom i) : Trail (Event.Spares i) w (setupDevices env w) := by
  obtain ⟨v, hv, hf⟩ := setupDevices_at env i w
  rw [recoverRelay_of_not_turning fun ht => h (hv.turning_iff.mp ht)] at hf
  exact ((hv.trail.mono fun _ he => he.spares).trans still_ioRead.trail).trans
    (hf.trail.mono fun _ he => spares_of_not_about he)

theorem recovers_of_journal {a : Nat} (h : ∀ v u, Event.eeprom (journalAddr i) v ≠ .eeprom a u) :
    Recovers (fun e => ∀ v, e ≠ .eeprom a v) i where
  relay := by simp
  state := by simp
  pin := by simp
  journal := h

/-- 電源の喪失からの回復は、記録、有効の印の順に書き、その後は有効の印に書かない。 -/
theorem setupDevices_of_lost (env : Env) (hi : i ≠ 0) (hlost : powerLost w.ram.bootflags = true)
    (h : Turning w.hw.eeprom i) :
    ∃ u, Trail (Event.Spares i) w u ∧
      Trail (fun e => ∀ v, e ≠ .eeprom (enabledAddr i) v)
        (Record.setDeviceEnabled env i false (Record.setRelayState env i relayOff u)) (setupDevices env w) ∧
      (dev (setupDevices env w) i).state = .disabled := by
  obtain ⟨v, hv, hf⟩ := setupDevices_at env i w
  rw [recoverRelay_of_turning (hv.turning_iff.mpr h), if_pos (by rw [hv.bootflags]; exact hlost),
    disable_of_ne_zero hi] at hf
  refine ⟨ioRead env v, (hv.trail.mono fun _ he => he.spares).trans still_ioRead.trail, ?_,
    by rw [hf.dev]; simp [Device.enter]⟩
  have hA : Recovers (fun e => ∀ v, e ≠ .eeprom (enabledAddr i) v) i :=
    recovers_of_journal fun _ _ he => journalAddr_ne_enabledAddr i (Event.eeprom.inj he).1
  exact ((hA.kill.setRam _).mark (by simp)).trans (hf.trail.mono fun _ he v => (spares_of_not_about he v).2)

section Replay

variable {n : Log}

theorem replay_of_spares (hn : ∀ x ∈ n, x.event.Spares i) :
    (replay w.hw n).eeprom (enabledAddr i) = w.hw.eeprom (enabledAddr i) ∧
      (replay w.hw n).eeprom (journalAddr i) = w.hw.eeprom (journalAddr i) ∧ ¬ Gap i w n := by
  refine ⟨replay_eeprom (fun x hx v => (hn x hx v).2) _, replay_eeprom (fun x hx v => (hn x hx v).1) _, ?_⟩
  rintro ⟨-, ⟨x, hx, he⟩, -⟩
  exact (hn x hx _).1 he

/-- 記録だけを書いたところ。 -/
theorem replay_journal (t : Nat) (hn : ∀ x ∈ n, x.event.Spares i) :
    (replay w.hw (⟨t, .eeprom (journalAddr i) relayOff⟩ :: n)).eeprom (enabledAddr i) =
        w.hw.eeprom (enabledAddr i) ∧
      (replay w.hw (⟨t, .eeprom (journalAddr i) relayOff⟩ :: n)).eeprom (journalAddr i) = relayOff ∧
      (Gap i w (⟨t, .eeprom (journalAddr i) relayOff⟩ :: n) ↔ w.hw.eeprom (enabledAddr i) ≠ 0) := by
  refine ⟨?_, Bytes.store_self _ _ _, fun hg => hg.1, fun he => ⟨he, ⟨_, List.mem_cons_self .., rfl⟩, ?_⟩⟩
  · exact (Bytes.store_of_ne (journalAddr_ne_enabledAddr i).symm _ _).trans (replay_of_spares hn).1
  · intro x hx
    rcases List.mem_cons.mp hx with rfl | hx
    · exact fun h => journalAddr_ne_enabledAddr i (Event.eeprom.inj h).1
    · exact (hn x hx _).2

theorem replay_enabled (l : Log) (t : Nat) (hl : ∀ x ∈ l, ∀ v, x.event ≠ .eeprom (enabledAddr i) v) :
    (replay w.hw (l ++ ⟨t, .eeprom (enabledAddr i) 0⟩ :: n)).eeprom (enabledAddr i) = 0 ∧
      ¬ Gap i w (l ++ ⟨t, .eeprom (enabledAddr i) 0⟩ :: n) := by
  refine ⟨?_, fun hg => hg.2.2 ⟨t, .eeprom (enabledAddr i) 0⟩ (by simp) rfl⟩
  rw [replay_append, replay_eeprom hl]
  exact Bytes.store_self _ _ _

end Replay

/-- `setupDevices` が途切れたとき、ポート `i` の有効の印が消えているか、有効の印と記録が元のままか、記録だけが `RELAY_OFF` に
なっている。 -/
theorem cut_setupDevices (hi : i ≠ 0) (hlost : powerLost w.ram.bootflags = true)
    (hcut : Cut w (setupDevices env w) l) :
    (Turning w.hw.eeprom i ∧ (replay w.hw l).eeprom (enabledAddr i) = 0 ∧ ¬ Gap i w l) ∨
    ((replay w.hw l).eeprom (enabledAddr i) = w.hw.eeprom (enabledAddr i) ∧
      (replay w.hw l).eeprom (journalAddr i) = w.hw.eeprom (journalAddr i) ∧ ¬ Gap i w l) ∨
    (Turning w.hw.eeprom i ∧ (replay w.hw l).eeprom (enabledAddr i) = w.hw.eeprom (enabledAddr i) ∧
      (replay w.hw l).eeprom (journalAddr i) = relayOff ∧ (Gap i w l ↔ w.hw.eeprom (enabledAddr i) ≠ 0)) := by
  by_cases ht : Turning w.hw.eeprom i
  · obtain ⟨u, hu, hrest, -⟩ := setupDevices_of_lost env hi hlost ht
    have hjournal : Trail (fun _ => True) u (Record.setRelayState env i relayOff u) := (still_write trivial).trail
    have henabled : Trail (fun _ => True) (Record.setRelayState env i relayOff u)
        (Record.setDeviceEnabled env i false (Record.setRelayState env i relayOff u)) := (still_write trivial).trail
    have hafter := henabled.trans (hrest.mono (B := fun _ => True) fun _ _ => trivial)
    rcases (cut_trans_iff hu (hjournal.trans hafter)).mp hcut with hc | ⟨n, l₂, hn, hc, rfl⟩
    · exact Or.inr (Or.inl (replay_of_spares (hc.forall hu)))
    have hns : ∀ x ∈ n, x.event.Spares i := Cut.forall ⟨n, hn, List.suffix_refl n⟩ hu
    rcases (cut_trans_iff hjournal hafter).mp hc with hc | ⟨n₂, l₃, hn₂, hc₃, rfl⟩
    · rcases (cut_emit_iff _ _).mp hc with rfl | rfl
      · exact Or.inr (Or.inl (replay_of_spares hns))
      · exact Or.inr (Or.inr ⟨ht, replay_journal _ hns⟩)
    obtain rfl : n₂ = [⟨u.now, .eeprom (journalAddr i) relayOff⟩] := List.append_cancel_right (hn₂.symm.trans rfl)
    rcases (cut_trans_iff henabled hrest).mp hc₃ with hc | ⟨n₃, l₄, hn₃, hc₄, rfl⟩
    · rcases (cut_emit_iff _ _).mp hc with rfl | rfl
      · exact Or.inr (Or.inr ⟨ht, replay_journal _ hns⟩)
      · exact Or.inl ⟨ht, replay_enabled [] _ (by simp)⟩
    · obtain rfl : n₃ = [⟨_, .eeprom (enabledAddr i) 0⟩] := List.append_cancel_right (hn₃.symm.trans rfl)
      simp only [List.append_assoc, List.singleton_append]
      exact Or.inl ⟨ht, replay_enabled _ _ (hc₄.forall hrest)⟩
  · exact Or.inr (Or.inl (replay_of_spares (hcut.forall (spares_setupDevices ht))))

theorem turning_congr {m m' : Nat → UInt8} (h : m (journalAddr i) = m' (journalAddr i)) :
    Turning m i ↔ Turning m' i := by
  have hstate : Record.getRelayState m i = Record.getRelayState m' i := h
  simp only [Turning, hstate]

theorem initialized_congr {m m' : Nat → UInt8} (h : ∀ a < 4, m a = m' a) :
    Record.initialized m = Record.initialized m' := by
  have hget : Bytes.get m Record.magicAddr 4 = Bytes.get m' Record.magicAddr 4 :=
    Bytes.get_congr fun a _ ha => h a (by simp at ha; omega)
  rw [Record.initialized, Record.initialized, hget]

theorem initialized_prepare (env : Env) (w : World) : Record.initialized (prepare env w).hw.eeprom = true := by
  obtain ⟨u, -, -, hu, ht⟩ := prepare_inv env w
  rw [← hu]
  refine initialized_congr fun a ha => trail_eeprom ht ?_
  rintro v (⟨h, -⟩ | ⟨j, h | h⟩)
  · omega
  · simp [Record.deviceRegion] at h
    omega
  · simp [Record.deviceRegion] at h
    omega

theorem prepare_byte {o : Nat} (env : Env) (h : Record.initialized w.hw.eeprom = true)
    (ho : o = Record.portEnabled ∨ o = Record.portRelayJournal) :
    (prepare env w).hw.eeprom (Record.deviceRegion i + o) = w.hw.eeprom (Record.deviceRegion i + o) := by
  rcases ho with rfl | rfl
  · exact prepare_record env h (by simp) (by simp) (by simp)
  · exact prepare_record env h (by simp) (by simp) (by simp)

theorem header_setupDevices {a : Nat} (ha : a < 256) (hcut : Cut w (setupDevices env w) l) :
    (replay w.hw l).eeprom a = w.hw.eeprom a := by
  refine replay_eeprom (fun x hx v he => ?_) _
  have hregion : ∀ (i : Port) (o : Nat) (v v' : UInt8),
      Event.eeprom (Record.deviceRegion i + o) v ≠ .eeprom a v' := by
    intro i o v v' he
    have haddr := (Event.eeprom.inj he).1
    simp only [Record.deviceRegion, Record.portRegionsStart] at haddr
    omega
  have ht : Trail (fun e => ∀ v, e ≠ .eeprom a v) w (setupDevices env w) :=
    trail_setupDevices (fun i => recovers_of_journal (hregion i _)) (fun i => hregion i _)
  exact hcut.forall ht x hx v he

/-- 途切れた起動を繰り返す間に保たれること。 -/
structure Retrying (i : Port) (cuts : List (World × Log)) (w : World) : Prop where
  initialized : Record.initialized w.hw.eeprom = true
  lost : powerLost w.ram.bootflags = true
  recoverable : (∀ c ∈ cuts, ¬ Gap i c.1 c.2) → w.hw.eeprom (enabledAddr i) = 0 ∨ Turning w.hw.eeprom i
  forgotten : (∃ c ∈ cuts, Gap i c.1 c.2) → w.hw.eeprom (enabledAddr i) ≠ 0 ∧ ¬ Turning w.hw.eeprom i

theorem Retries.retrying {cuts : List (World × Log)} (hi : i ≠ 0) (h : Retries i cuts w) : Retrying i cuts w := by
  induction h with
  | @found env h hlost hon =>
      exact ⟨initialized_prepare env _, by rw [prepare_bootflags]; exact hlost, fun _ => Or.inr (Or.inl hon), by simp⟩
  | @again env env' cuts w l h _ hcut hlost heq ih =>
      have hinit : Record.initialized (powerOn h).hw.eeprom = true := by
        rw [← ih.initialized]
        refine initialized_congr fun a ha => ?_
        exact (heq a (by omega)).trans (header_setupDevices (by omega) hcut)
      have hflag : ∀ o, o = Record.portEnabled ∨ o = Record.portRelayJournal →
          (prepare env' (powerOn h)).hw.eeprom (Record.deviceRegion i + o) =
            (replay w.hw l).eeprom (Record.deviceRegion i + o) := by
        intro o ho
        refine (prepare_byte env' hinit ho).trans (heq _ ?_)
        simp only [Record.deviceRegion, Record.portRegionsStart]
        omega
      have henabled := hflag _ (Or.inl rfl)
      have hjournal := hflag _ (Or.inr rfl)
      refine ⟨initialized_prepare env' _, by rw [prepare_bootflags]; exact hlost, fun hno => ?_, fun hgap => ?_⟩
      · have hgap := hno (w, l) (by simp)
        have ih' := ih.recoverable fun c hc => hno c (by simp [hc])
        rcases cut_setupDevices hi ih.lost hcut with ⟨-, he, -⟩ | ⟨he, hj, -⟩ | ⟨-, he, -, hg⟩
        · exact Or.inl (henabled.trans he)
        · exact ih'.imp (fun h0 => henabled.trans (he.trans h0)) (turning_congr (hjournal.trans hj)).mpr
        · exact Or.inl (henabled.trans (he.trans (not_not.mp fun h0 => hgap (hg.mpr h0))))
      · have hlast : Gap i w l ∨ ∃ c ∈ cuts, Gap i c.1 c.2 := by simpa using hgap
        rcases cut_setupDevices hi ih.lost hcut with ⟨ht, -, hg⟩ | ⟨he, hj, hg⟩ | ⟨ht, he, hj, hg⟩
        · exact absurd ht (ih.forgotten (hlast.resolve_left hg)).2
        · obtain ⟨h0, hn⟩ := ih.forgotten (hlast.resolve_left hg)
          exact ⟨fun hz => h0 (he.symm.trans (henabled.symm.trans hz)),
            fun ht => hn ((turning_congr (hjournal.trans hj)).mp ht)⟩
        · have hnow : Gap i w l := hlast.resolve_right fun hc => absurd ht (ih.forgotten hc).2
          refine ⟨fun hz => hg.mp hnow (he.symm.trans (henabled.symm.trans hz)), fun ht => ?_⟩
          have hoff : Record.getRelayState (prepare env' (powerOn h)).hw.eeprom i = relayOff := hjournal.trans hj
          simp only [Turning, hoff] at ht
          revert ht
          decide

/-- `setupDevices` が最後まで進んだとき、機器が無効になるのは、途切れた `setupDevices` のどれも、記録を `RELAY_OFF` にしてから
有効の印を消すまでの間で途切れていないとき、またそのときに限る。 -/
theorem recovery_survives_iff (hi : i ≠ 0) {cuts : List (World × Log)} (h : Retries i cuts w) (env : Env) :
    ((setupDevices env w).hw.eeprom (enabledAddr i) = 0 ∧ (dev (setupDevices env w) i).state = .disabled) ↔
      ∀ c ∈ cuts, ¬ Gap i c.1 c.2 := by
  have hr := h.retrying hi
  constructor
  · rintro ⟨hz, -⟩ c hc hgap
    obtain ⟨h0, hn⟩ := hr.forgotten ⟨c, hc, hgap⟩
    exact h0 ((trail_eeprom (spares_setupDevices hn) fun v hs => (hs v).2 rfl).symm.trans hz)
  · intro hno
    by_cases ht : Turning w.hw.eeprom i
    · obtain ⟨u, -, hrest, hstate⟩ := setupDevices_of_lost env hi hr.lost ht
      exact ⟨(trail_eeprom hrest fun v hs => hs v rfl).trans (Bytes.store_self _ _ _), hstate⟩
    · -- 回復が要らないなら、有効の印はすでに消えている
      have hz := (hr.recoverable hno).resolve_right ht
      obtain ⟨v, hv, hf⟩ := setupDevices_at env i w
      refine ⟨(trail_eeprom (spares_setupDevices ht) fun v hs => (hs v).2 rfl).trans hz, ?_⟩
      have hstill : Still (fun _ => True) v (ioRead env v) := still_ioRead
      have henabled : Record.getDeviceEnabled w.hw.eeprom i = false := by
        have hz' : w.hw.eeprom (Record.deviceRegion i + Record.portEnabled) = 0 := hz
        rw [Record.getDeviceEnabled, if_neg hi, hz']
        rfl
      rw [hf.dev, recoverRelay_of_not_turning fun h => ht (hv.turning_iff.mp h), dev_still hstill, hv.state, initialState,
        henabled]
      rfl

end Retries

theorem cut_drop (env : Env) (w : World) (k : Nat) : Cut w (setupDevices env w)
    (((setupDevices env w).log.take ((setupDevices env w).log.length - w.log.length)).drop k) := by
  have htrail : Trail (fun _ => True) w (setupDevices env w) := trail_setupDevices
    (fun _ => ⟨fun _ => trivial, fun _ => trivial, fun _ _ => trivial, fun _ => trivial⟩) fun _ _ => trivial
  obtain ⟨new, hn, -, -⟩ := htrail.log
  have htake : (setupDevices env w).log.take ((setupDevices env w).log.length - w.log.length) = new := by
    simp [hn]
  exact ⟨new, hn, htake ▸ List.drop_suffix k new⟩

/-- 記録を書く前に一度途切れても、次の起動がポート 1 を無効にする。 -/
theorem recovery_survives_iff_retry : ∃ w cuts, cuts ≠ [] ∧ Retries 1 cuts w ∧
    (setupDevices Env.ideal w).hw.eeprom (enabledAddr 1) = 0 ∧
      (dev (setupDevices Env.ideal w) 1).state = .disabled := by
  have hfound : Retries 1 [] (prepare Env.ideal (powerOn (.turning relayTurningOn))) :=
    .found (by decide +kernel) (by decide +kernel)
  have hagain : Retries 1 _
      (prepare Env.ideal (powerOn (prepare Env.ideal (powerOn (.turning relayTurningOn))).hw)) :=
    .again hfound (cut_drop Env.ideal (prepare Env.ideal (powerOn (.turning relayTurningOn))) 13) (by decide +kernel)
      (fun a _ => by rw [List.drop_of_length_le (by decide +kernel)]; rfl)
  refine ⟨_, _, List.cons_ne_nil _ _, hagain, (recovery_survives_iff (by decide) hagain Env.ideal).mpr ?_⟩
  rintro c hc ⟨-, ⟨x, hx, -⟩, -⟩
  rw [List.mem_singleton.mp hc, List.drop_of_length_le (by decide +kernel)] at hx
  cases hx

/-- 記録を `RELAY_OFF` にしたところで電源を失うと、次の起動は機器を無効にせず、自動で起動できる状態に入れる。 -/
theorem recovery_forgotten : ∃ w cuts, Retries 1 cuts w ∧
    (setupDevices Env.ideal w).hw.eeprom (enabledAddr 1) = 1 ∧
      (dev (setupDevices Env.ideal w) 1).state = .stopped := by
  have hfound : Retries 1 [] (prepare Env.ideal (powerOn (.turning relayTurningOn))) :=
    .found (by decide +kernel) (by decide +kernel)
  have hagain : Retries 1 _ (prepare Env.ideal (powerOn _)) := .again hfound
    (cut_drop Env.ideal (prepare Env.ideal (powerOn (.turning relayTurningOn))) 7)
    (by decide +kernel) (fun _ _ => rfl)
  exact ⟨_, _, hagain, by decide +kernel, by decide +kernel⟩

end Wagman.V3
