import Wagman.V4.Theorems.NextMedia
import Wagman.V4.Theorems.Sequencer

/-!
# 起動の回数とリレーの投入

起動の回数と起動の記録は、受け付けられた `start` ごとに一つずつ増える。その `start` がリレーを切から入に変えるのは、
リレーが切れているときだけである。二つの回数が一致する実行を、要求と機器の状態についての、各歩の条件で示す。
-/

namespace Wagman.V4

open Machine

/-! ## 記録から数える回数 -/

/-- 番地 `a` への書き込み。 -/
def Event.writesAt (a : Nat) : Event → Bool
  | .eeprom b _ => b == a
  | _ => false

/-- `bootAttempts(p)` の最下位のバイトの書き込みの回数。一回の増加で一度書かれる。 -/
def increments (p : Port) (h : Hardware) (log : Log) : Nat :=
  tally (fun _ e => (e.writesAt (Record.deviceRegion p + Record.portBootAttempts)).toNat) h log

/-- 起動の記録の `start` か `count` の書き込みの回数。一つの項目を加えるたびに、どちらかが一度書かれる。 -/
def bootEntries (p : Port) (h : Hardware) (log : Log) : Nat :=
  tally (fun _ e => (e.writesAt (Record.BootLog.address p) || e.writesAt (Record.BootLog.address p + 1)).toNat) h log

/-- ポート `p` のリレーが切から入に変わった回数。 -/
def turnOns (p : Port) (h : Hardware) (log : Log) : Nat :=
  tally (fun s e => (!s.latch p && (Effect.apply e s).latch p).toNat) h log

/-- リレーが入っているときに受け付けられた `start` の回数。 -/
def liveStarts (p : Port) (h : Hardware) (log : Log) : Nat :=
  tally (fun s e => ((e.started p).isSome && s.latch p).toNat) h log

/-- 起動の回数と起動の記録に関わらない事象。 -/
def Event.Unbooked (p : Port) : Event → Prop
  | .eeprom a _ => ∀ o, (7 ≤ o ∧ o < 11) ∨ o = 64 ∨ o = 65 → a ≠ Record.deviceRegion p + o
  | .start q _ => q ≠ p
  | _ => True

/-! ## 受け付けられた `start` -/

section PowerUp

variable (env : Env) (p : Port) (h : Hardware) (w : World)

theorem increments_incrementBootAttempts : increments p h (Record.incrementBootAttempts env p w).log =
    increments p h w.log + 1 := by
  have hput : ∀ a n, increments p h (EEPROM.put env (Record.deviceRegion p + Record.portBootAttempts) 4 n a).log =
      increments p h a.log + 1 := by
    intro a n
    -- 最下位のバイトを書いた後は、上位のバイトだけを書く
    have hrest : Still (fun e => e.writesAt (Record.deviceRegion p + Record.portBootAttempts) = false)
        (EEPROM.write env (Record.deviceRegion p + Record.portBootAttempts) (UInt8.ofNat n) a)
        (EEPROM.put env (Record.deviceRegion p + Record.portBootAttempts) 4 n a) :=
      still_put (fun b v h₁ h₂ => by simp only [Event.writesAt, beq_eq_false_iff_ne]; omega) _
    have heq : increments p h
        (EEPROM.write env (Record.deviceRegion p + Record.portBootAttempts) (UInt8.ofNat n) a).log =
        (Event.writesAt (Record.deviceRegion p + Record.portBootAttempts)
          (.eeprom (Record.deviceRegion p + Record.portBootAttempts) (UInt8.ofNat n))).toNat +
        increments p h a.log := rfl
    have hsame := hrest.trail.tally_eq (f := fun _ e =>
      (e.writesAt (Record.deviceRegion p + Record.portBootAttempts)).toNat) (fun _ _ he => by rw [he]; rfl) h
    rw [increments, hsame, ← increments, heq, Nat.add_comm]
    simp [Event.writesAt]
  exact hput _ _

theorem bootEntries_addEntry (t : UInt32) : bootEntries p h (Record.BootLog.addEntry env p t w).log =
    bootEntries p h w.log + 1 := by
  have hput : ∀ i n, bootEntries p h (EEPROM.put env (Record.BootLog.address p + 2 + 4 * i) 4 n w).log =
      bootEntries p h w.log := by
    intro i n
    have hs : Still (fun e => e.writesAt (Record.BootLog.address p) = false ∧
        e.writesAt (Record.BootLog.address p + 1) = false) w
        (EEPROM.put env (Record.BootLog.address p + 2 + 4 * i) 4 n w) :=
      still_put (fun b v h₁ h₂ => by simp only [Event.writesAt, beq_eq_false_iff_ne]; omega) n
    exact hs.trail.tally_eq (fun e _ he => by simp [he.1, he.2]) h
  have hwrite : ∀ (v : World) a b, a = Record.BootLog.address p ∨ a = Record.BootLog.address p + 1 →
      bootEntries p h (EEPROM.write env a b v).log = bootEntries p h v.log + 1 := by
    intro v a b ha
    have heq : bootEntries p h (EEPROM.write env a b v).log =
        ((Event.eeprom a b).writesAt (Record.BootLog.address p) ||
          (Event.eeprom a b).writesAt (Record.BootLog.address p + 1)).toNat + bootEntries p h v.log := rfl
    rw [heq, Nat.add_comm]
    rcases ha with rfl | rfl <;> simp [Event.writesAt]
  simp only [Record.BootLog.addEntry]
  split
  · exact (hwrite _ _ _ (Or.inl rfl)).trans (by rw [hput])
  · exact (hwrite _ _ _ (Or.inr rfl)).trans (by rw [hput])

/-- どの装置の状態でも、ポート `p` のラッチを変えない事象。 -/
def Event.KeepsLatch (p : Port) (e : Event) : Prop := ∀ s : Hardware, (Effect.apply e s).latch p = s.latch p

theorem keepsLatch_pin {k : Nat} {b : Bool} (hk : k ≠ relayClk p ∨ b = false) : (Event.pin k b).KeepsLatch p := by
  intro s
  refine if_neg fun hc => ?_
  rcases hk with hk | hk
  · exact hk hc.1
  · rw [hk] at hc
    exact Bool.false_ne_true hc.2.2

theorem Event.Preparing.keepsLatch {e : Event} (he : e.Preparing) : e.KeepsLatch p := by
  cases e with
  | pin k b =>
      refine keepsLatch_pin p (Or.inl ?_)
      rcases he with rfl | hk
      · exact ncAutoDisable_ne_relayClk p
      · exact led_ne_relayClk hk p
  | _ => exact fun _ => rfl

theorem turnOns_eq {w w' : World} (ht : Trail (Event.KeepsLatch p) w w') : turnOns p h w'.log = turnOns p h w.log :=
  ht.tally_eq (fun e t he => by rw [he]; cases t.latch p <;> rfl) h

/-- リレーを動かすと、切れているものを入れるときにだけ、切から入に変わる。 -/
theorem turnOns_driveRelay (t s : UInt8) (mode : Bool) (hr : w.hw = replay h w.log) :
    turnOns p h (Device.driveRelay env p t mode s w).log = turnOns p h w.log + (!w.hw.latch p && mode).toNat := by
  have hdc := relayD_ne_relayClk p p
  have hd : ∀ b, (Event.pin (relayD p) b).KeepsLatch p := fun b => keepsLatch_pin p (Or.inl hdc)
  have hc : (Event.pin (relayClk p) false).KeepsLatch p := keepsLatch_pin p (Or.inr rfl)
  -- `clk` の立ち上がりの直前
  obtain ⟨v, hv⟩ : ∃ v, v = (w |> Record.setRelayState env p t |> delay env 10 |>.mark (.relay p mode)
      |> digitalWrite env (relayClk p) false |> digitalWrite env (relayD p) mode |> delay env 100) := ⟨_, rfl⟩
  have hpre : Still (Event.KeepsLatch p) w v := by
    rw [hv]
    exact (still_write fun _ => rfl).trans <| (still_delay 10).trans <| (Still.mark (fun _ => rfl) _).trans <|
      (still_digitalWrite hc).trans <| (still_digitalWrite (hd mode)).trans (still_delay 100)
  have hpost : Still (Event.KeepsLatch p) (digitalWrite env (relayClk p) true v)
      (Device.driveRelay env p t mode s w) := by
    rw [hv]
    exact (still_delay 100).trans <| (still_digitalWrite hc).trans <| (still_digitalWrite (hd false)).trans <|
      (still_delay 100).trans <| (still_delay 500).trans <| (still_write fun _ => rfl).trans (still_delay 10)
  have hlatch : v.hw.latch p = w.hw.latch p :=
    hpre.trail.hw_induct (P := fun s => s.latch p = w.hw.latch p) (fun e s he hs => (he s).trans hs) rfl
  have hrise : (Effect.apply (Event.pin (relayClk p) true) v.hw).latch p = mode := by
    rw [hv]
    simp [digitalWrite, delay, Effect.apply, Hardware.digitalWrite, hdc, Ne.symm hdc]
  have hstep : turnOns p h (digitalWrite env (relayClk p) true v).log =
      (!v.hw.latch p && (Effect.apply (Event.pin (relayClk p) true) v.hw).latch p).toNat + turnOns p h v.log := by
    rw [hpre.trail.replayed hr]
    rfl
  rw [turnOns_eq p h hpost.trail, hstep, turnOns_eq p h hpre.trail, hlatch, hrise, Nat.add_comm]

theorem recordBoot_eq : ∃ t, Device.recordBoot env p w =
    Record.BootLog.addEntry env p t (ioRead env (Record.incrementBootAttempts env p w)) := ⟨_, rfl⟩

variable {env p} in
theorem trail_incrementBootAttempts {A : Event → Prop} {w : World}
    (hA : ∀ o v, 7 ≤ o → o < 11 → A (.eeprom (Record.deviceRegion p + o) v)) :
    Trail A w (Record.incrementBootAttempts env p w) := by
  refine (still_put (fun b v h₁ h₂ => ?_) _).trail
  obtain ⟨o, rfl⟩ := Nat.exists_eq_add_of_le (Nat.le_trans (Nat.le_add_right _ _) h₁)
  simp only [Record.portBootAttempts] at h₁ h₂
  exact hA o v (by omega) (by omega)

variable {env p} in
theorem trail_readAddEntry {A : Event → Prop} {w : World}
    (hA : ∀ o v, 64 ≤ o → o < 98 → A (.eeprom (Record.deviceRegion p + o) v)) (t : UInt32) :
    Trail A w (Record.BootLog.addEntry env p t (ioRead env w)) := by
  have haddr : Record.BootLog.address p = Record.deviceRegion p + 64 := rfl
  refine (still_ioRead.trans (still_addEntry (fun b v h₁ h₂ => ?_) t)).trail
  rw [haddr] at h₁ h₂
  obtain ⟨o, rfl⟩ := Nat.exists_eq_add_of_le (Nat.le_trans (Nat.le_add_right _ _) h₁)
  exact hA o v (by omega) (by omega)

variable {env p} in
theorem trail_drive {A : Event → Prop} {w : World} (hr : A (.relay p true)) (hk : ∀ k b, A (.pin k b))
    (hj : ∀ v, A (.eeprom (Record.deviceRegion p + 38) v)) (hs : A (.state p .started)) :
    Trail A w (Device.changeState p .started (Device.driveRelay env p relayTurningOn true relayOn w)) :=
  (still_driveRelay hr (fun b => hk _ b) (fun b => hk _ b) hj).trail.trans (trail_changeState hs)

theorem increments_powerUp : increments p h (Device.powerUp env p w).log = increments p h w.log + 1 := by
  obtain ⟨t, ht⟩ := recordBoot_eq env p (Device.selectMedia env p w)
  have hsame : ∀ {v v' : World},
      Trail (fun e => e.writesAt (Record.deviceRegion p + Record.portBootAttempts) = false) v v' →
      increments p h v'.log = increments p h v.log := fun htr =>
    htr.tally_eq (fun _ _ he => by rw [he]; rfl) h
  have hne : ∀ o v, o ≠ 7 →
      (Event.eeprom (Record.deviceRegion p + o) v).writesAt (Record.deviceRegion p + Record.portBootAttempts) =
        false := by
    intro o v ho
    simp only [Event.writesAt, Record.portBootAttempts, beq_eq_false_iff_ne]
    omega
  simp only [Device.powerUp, ht]
  rw [hsame (trail_drive rfl (fun _ _ => rfl) (fun v => hne 38 v (by decide)) rfl),
    hsame (trail_readAddEntry (fun o v h₁ _ => hne o v (by omega)) t), increments_incrementBootAttempts,
    hsame (trail_selectMedia (fun _ => rfl) fun _ _ => rfl)]

theorem bootEntries_powerUp : bootEntries p h (Device.powerUp env p w).log = bootEntries p h w.log + 1 := by
  obtain ⟨t, ht⟩ := recordBoot_eq env p (Device.selectMedia env p w)
  have hsame : ∀ {v v' : World}, Trail (fun e => e.writesAt (Record.BootLog.address p) = false ∧
      e.writesAt (Record.BootLog.address p + 1) = false) v v' →
      bootEntries p h v'.log = bootEntries p h v.log := fun htr =>
    htr.tally_eq (fun _ _ he => by simp [he.1, he.2]) h
  have hne : ∀ o v, o < 64 →
      (Event.eeprom (Record.deviceRegion p + o) v).writesAt (Record.BootLog.address p) = false ∧
      (Event.eeprom (Record.deviceRegion p + o) v).writesAt (Record.BootLog.address p + 1) = false := by
    intro o v ho
    have haddr : Record.BootLog.address p = Record.deviceRegion p + 64 := rfl
    simp only [Event.writesAt, haddr, beq_eq_false_iff_ne]
    omega
  simp only [Device.powerUp, ht]
  rw [hsame (trail_drive ⟨rfl, rfl⟩ (fun _ _ => ⟨rfl, rfl⟩) (fun v => hne 38 v (by decide)) ⟨rfl, rfl⟩),
    bootEntries_addEntry, hsame still_ioRead.trail,
    hsame (trail_incrementBootAttempts fun o v _ h₂ => hne o v (by omega)),
    hsame (trail_selectMedia (fun _ => ⟨rfl, rfl⟩) fun _ _ => ⟨rfl, rfl⟩)]

theorem attempts_powerUp : Record.getBootAttempts (Device.powerUp env p w).hw.eeprom p =
    Record.getBootAttempts w.hw.eeprom p + 1 := by
  obtain ⟨t, ht⟩ := recordBoot_eq env p (Device.selectMedia env p w)
  have hsame : ∀ {v v' : World},
      Trail (fun e => ∀ o u, 7 ≤ o → o < 11 → e ≠ .eeprom (Record.deviceRegion p + o) u) v v' →
      Record.getBootAttempts v'.hw.eeprom p = Record.getBootAttempts v.hw.eeprom p := by
    intro v v' htr
    refine congrArg UInt32.ofNat (trail_word htr fun b u h₁ h₂ he => ?_)
    obtain ⟨o, rfl⟩ := Nat.exists_eq_add_of_le (Nat.le_trans (Nat.le_add_right _ _) h₁)
    simp only [Record.portBootAttempts] at h₁ h₂
    exact he o u (by omega) (by omega) rfl
  have hinc : ∀ v : World, Record.getBootAttempts (Record.incrementBootAttempts env p v).hw.eeprom p =
      Record.getBootAttempts v.hw.eeprom p + 1 := by
    intro v
    unfold Record.incrementBootAttempts Record.setBootAttempts
    rw [put_eeprom]
    exact word_put_self _ _ _
  have hne : ∀ o u, ¬ (7 ≤ o ∧ o < 11) → ∀ o' u', 7 ≤ o' → o' < 11 →
      Event.eeprom (Record.deviceRegion p + o) u ≠ .eeprom (Record.deviceRegion p + o') u' := by
    intro o u ho o' u' h₁ h₂ he
    simp only [Event.eeprom.injEq] at he
    omega
  simp only [Device.powerUp, ht]
  rw [hsame (trail_drive (by simp) (by simp) (fun v => hne 38 v (by omega)) (by simp)),
    hsame (trail_readAddEntry (fun o v h₁ _ => hne o v (by omega)) t), hinc,
    hsame (trail_selectMedia (by simp) (by simp))]

theorem turnOns_powerUp (hr : w.hw = replay h w.log) :
    turnOns p h (Device.powerUp env p w).log = turnOns p h w.log + (!w.hw.latch p).toNat := by
  have hsel : Trail (Event.KeepsLatch p) w (Device.selectMedia env p w) :=
    trail_selectMedia (fun _ _ => rfl) fun s b => keepsLatch_pin p (Or.inl (bootSelectorPin_ne_relayClk s p))
  have hrec : Still (Event.KeepsLatch p) (Device.selectMedia env p w)
      (Device.recordBoot env p (Device.selectMedia env p w)) := still_recordBoot fun _ _ _ _ => rfl
  have hpre := hsel.trans hrec.trail
  have hlatch : (Device.recordBoot env p (Device.selectMedia env p w)).hw.latch p = w.hw.latch p :=
    hpre.hw_induct (P := fun s => s.latch p = w.hw.latch p) (fun e s he hs => (he s).trans hs) rfl
  have hlast : Trail (Event.KeepsLatch p)
      (Device.driveRelay env p relayTurningOn true relayOn (Device.recordBoot env p (Device.selectMedia env p w)))
      (Device.powerUp env p w) := trail_changeState fun _ => rfl
  rw [turnOns_eq p h hlast, turnOns_driveRelay env p h _ _ _ _ (hpre.replayed hr), turnOns_eq p h hpre, hlatch,
    Bool.and_true]

theorem liveStarts_powerUp (hr : w.hw = replay h w.log) :
    liveStarts p h (Device.powerUp env p w).log = liveStarts p h w.log + (w.hw.latch p).toNat := by
  have hsame : ∀ {v v' : World}, Trail (fun e => e.started p = none) v v' →
      liveStarts p h v'.log = liveStarts p h v.log := fun htr => htr.tally_eq (fun _ _ he => by rw [he]; rfl) h
  have hpin : ∀ (v : World) (k : Nat) (m : Media), v.hw = w.hw → v.log = w.log →
      liveStarts p h (setBootMedia env k m (v.mark (.start p m))).log =
        liveStarts p h w.log + (w.hw.latch p).toNat := by
    intro v k m hhw hlog
    have heq : liveStarts p h (v.mark (.start p m)).log =
        (((Event.start p m).started p).isSome && (replay h v.log).latch p).toNat + liveStarts p h v.log := rfl
    rw [hsame (still_setBootMedia fun _ _ => rfl).trail, heq, hlog, ← hr, Nat.add_comm]
    simp [Event.started]
  rw [hsame (trail_afterSelect (fun _ _ => rfl) (fun _ _ => rfl) rfl rfl)]
  exact hpin _ _ _ rfl rfl

end PowerUp

/-- 帳簿。受け付けられた `start` の回数と、ほかの回数が釣り合っている。 -/
structure Booked (p : Port) (h : Hardware) (a w : World) : Prop where
  replayed : w.hw = replay h w.log
  attempts : Record.getBootAttempts w.hw.eeprom p =
    Record.getBootAttempts a.hw.eeprom p + UInt32.ofNat (starts p w.log).length
  increments : increments p h w.log = increments p h a.log + (starts p w.log).length
  entries : bootEntries p h w.log = bootEntries p h a.log + (starts p w.log).length
  turnOns : turnOns p h w.log + liveStarts p h w.log = (starts p w.log).length

namespace Booked

variable {env : Env} {p : Port} {h : Hardware} {a w w' : World}

theorem of_unbooked (hw : Booked p h a w) (ht : Trail (Event.Unbooked p) w w')
    (hon : V4.turnOns p h w'.log = V4.turnOns p h w.log) : Booked p h a w' := by
  have hs : starts p w'.log = starts p w.log := by
    refine starts_eq (ht.mono fun e he => ?_)
    cases e with
    | start q m => exact if_neg he
    | _ => rfl
  have hatt : Record.getBootAttempts w'.hw.eeprom p = Record.getBootAttempts w.hw.eeprom p := by
    refine congrArg UInt32.ofNat (trail_word ht fun b v h₁ h₂ he => ?_)
    simp only [Record.portBootAttempts] at h₁ h₂
    exact he (b - Record.deviceRegion p) (by omega) (by omega)
  refine ⟨ht.replayed hw.replayed, by rw [hatt, hs, hw.attempts], ?_, ?_, ?_⟩
  · rw [hs, ← hw.increments]
    refine ht.tally_eq (fun e t he => ?_) h
    cases e with
    | eeprom b v => simpa [Event.writesAt] using he 7 (by omega)
    | _ => rfl
  · rw [hs, ← hw.entries]
    refine ht.tally_eq (fun e t he => ?_) h
    cases e with
    | eeprom b v =>
        have h₁ : b ≠ Record.BootLog.address p := he 64 (by omega)
        have h₂ : b ≠ Record.BootLog.address p + 1 := he 65 (by omega)
        simp [Event.writesAt, h₁, h₂]
    | _ => rfl
  · rw [hs, ← hw.turnOns]
    have hlive : liveStarts p h w'.log = liveStarts p h w.log := by
      refine ht.tally_eq (fun e t he => ?_) h
      cases e with
      | start q m => simp [Event.started, show q ≠ p from he]
      | _ => rfl
    rw [hon, hlive]

theorem of_trail (hw : Booked p h a w) (ht : Trail (fun e => e.Unbooked p ∧ e.KeepsLatch p) w w') : Booked p h a w' :=
  hw.of_unbooked (ht.mono fun _ he => he.1) (turnOns_eq p h (ht.mono fun _ he => he.2))

theorem of_frame (hw : Booked p h a w) (hf : Frame p w w') : Booked p h a w' := by
  refine hw.of_trail (hf.trail.mono fun e he => ?_)
  cases e with
  | eeprom b v => exact ⟨fun o ho hb => he ⟨o, by omega, hb⟩, fun _ => rfl⟩
  | pin k b => exact ⟨trivial, keepsLatch_pin p (Or.inl fun hk => he (Or.inl hk))⟩
  | start q m => exact ⟨he, fun _ => rfl⟩
  | _ => exact ⟨trivial, fun _ => rfl⟩

theorem changeState (hw : Booked p h a w) (s : State) : Booked p h a (Device.changeState p s w) :=
  hw.of_trail (trail_changeState ⟨trivial, fun _ => rfl⟩)

theorem setDeviceEnabled (hw : Booked p h a w) (b : Bool) : Booked p h a (Record.setDeviceEnabled env p b w) := by
  refine hw.of_trail (still_write ⟨fun o ho hb => ?_, fun _ => rfl⟩).trail
  simp only [Record.portEnabled] at hb
  omega

theorem enable (hw : Booked p h a w) : Booked p h a (Device.enable env p w) :=
  (hw.setDeviceEnabled true).changeState .stopped

theorem powerUp (hw : Booked p h a w) : Booked p h a (Device.powerUp env p w) := by
  have hs := starts_powerUp env p w
  have hlen : (starts p (Device.powerUp env p w).log).length = (starts p w.log).length + 1 := by
    rw [hs, List.length_cons]
  refine ⟨(Device.acts_powerUp env w p).trail.replayed hw.replayed, ?_, ?_, ?_, ?_⟩
  · rw [hlen, attempts_powerUp, hw.attempts, UInt32.ofNat_add, UInt32.add_assoc]
    rfl
  · rw [hlen, increments_powerUp, hw.increments, Nat.add_assoc]
  · rw [hlen, bootEntries_powerUp, hw.entries, Nat.add_assoc]
  · have hsum := hw.turnOns
    rw [hlen, turnOns_powerUp env p h w hw.replayed, liveStarts_powerUp env p h w hw.replayed]
    cases w.hw.latch p <;> simp <;> omega

/-- リレーを切る操作は、リレーを切から入に変えない。 -/
theorem powerDown (hw : Booked p h a w) : Booked p h a (Device.powerDown env p w) := by
  have hd : Booked p h a (Device.driveRelay env p relayTurningOff false relayOff w) := by
    refine hw.of_unbooked
      (still_driveRelay trivial (fun _ => trivial) (fun _ => trivial) fun v o ho hb => ?_).trail ?_
    · simp only [Record.portRelayJournal] at hb
      omega
    · rw [turnOns_driveRelay env p h w _ _ _ hw.replayed, Bool.and_false]
      rfl
  have hs := hd.changeState .stopped
  exact hs.of_trail (((Trail.refl _).setRam _).mark ⟨trivial, fun _ => rfl⟩)

theorem prim (hw : Booked p h a w) (hs : Prim env p (Frame p) w w') : Booked p h a w' := by
  cases hs with
  | frame hf => exact hw.of_frame hf
  | tweak d _ => exact hw.of_trail (trail_setDev p d)
  | beat => exact hw.of_trail ((trail_setDev p _).mark ⟨trivial, fun _ => rfl⟩)
  | refuse _ _ => exact (hw.setDeviceEnabled false).changeState .disabled
  | halt _ => exact hw.changeState .stopping
  | revive _ _ => exact hw.enable
  | off _ => exact hw.powerDown
  | on _ => exact hw.powerUp
  | fail _ =>
      refine hw.of_trail (still_put (fun b v h₁ h₂ => ⟨fun o ho hb => ?_, fun _ => rfl⟩) _).trail
      simp only [Record.portBootFailures] at h₁ h₂
      omega
  | media m =>
      exact hw.of_trail (trail_setNextBootMedia ⟨trivial, fun _ => rfl⟩ fun s _ =>
        ⟨trivial, keepsLatch_pin p (Or.inl (bootSelectorPin_ne_relayClk s p))⟩)

theorem step {o : Op} (hs : StepOn env p o w w') (hw : Booked p h a w) : Booked p h a w' :=
  hs.induct (P := Booked p h a) (fun _ _ hp h => h.prim hp)
    (fun _ h => h.enable) (fun _ _ _ _ h => h.changeState .started) hw

theorem starts_armed (env : Env) (h : Hardware) (p : Port) : starts p (V4.armed env h).log = [] := by
  have hs : starts p (V4.armed env h).log = starts p (powerOn h).log := by
    refine starts_eq ((trail_armed env h).mono fun e he => ?_)
    cases e with
    | start q m => exact he.elim
    | _ => rfl
  rw [hs]
  rfl

theorem armed (env : Env) (h : Hardware) (p : Port) : Booked p h (V4.armed env h) (V4.armed env h) := by
  have ht := trail_armed env h
  have hon : V4.turnOns p h (V4.armed env h).log = V4.turnOns p h (powerOn h).log := by
    exact turnOns_eq p h (ht.mono fun _ he => he.keepsLatch p)
  have hlive : liveStarts p h (V4.armed env h).log = liveStarts p h (powerOn h).log := by
    refine ht.tally_eq (fun e t he => ?_) h
    cases e with
    | start q m => exact he.elim
    | _ => rfl
  have hnil : (starts p (V4.armed env h).log).length = 0 := by rw [starts_armed]; rfl
  refine ⟨ht.replayed rfl, ?_, by rw [hnil, Nat.add_zero], by rw [hnil, Nat.add_zero], ?_⟩
  · rw [hnil]
    simp
  · rw [hnil, hon, hlive]
    rfl

theorem booted (env : Env) (h : Hardware) (p : Port) : Booked p h (V4.armed env h) (V4.booted env h) := by
  have ha := armed env h p
  by_cases hp : p = 0
  · subst hp
    rw [booted_eq_powerUp]
    exact ha.powerUp
  · exact ha.of_frame (Frame.ofActs (Device.acts_start env _ 0) hp)

end Booked

/-! ## リレーが入っているときの `start` -/

/-- 操作 `o` で、`devices[p]` の `start()` が受け付けられる。 -/
def Launches (p : Port) (o : Op) (w : World) : Prop :=
  match o with
  | .startNext => w.ram.halted = false ∧ w.ram.shouldResetSystem = false ∧ nextDevice w = some p ∧
      (dev w p).state ≠ .stopping
  | _ => False

instance (p : Port) (o : Op) (w : World) : Decidable (Launches p o w) :=
  match o with
  | .startNext => inferInstanceAs (Decidable (_ ∧ _ ∧ _ ∧ _))
  | .idle _ | .pinHB _ | .update _ | .request _ _ _ | .resetAll | .status | .reset | .leds => isFalse id

/-- ポート `p` のリレーが入ったままにされている。電源を入れたときか、機器が `STOPPED` にされたときに入っていて、その後に `kill()`
されていない。 -/
def leftOn (p : Port) (h : Hardware) : List (Entry Event) → Bool
  | [] => h.latch p
  | x :: l =>
      if x.event = .killed p then false
      else leftOn p h l || (decide (x.event = .state p .stopped) && (replay h l).latch p)

/-- 回数の合う一歩。`start()` が受け付けられる機器は、`STARTED` でなく、リレーが入ったままにもされていない。 -/
def Accountable (h : Hardware) (p : Port) (o : Op) (w : World) : Prop :=
  Launches p o w → (dev w p).state ≠ .started ∧ leftOn p h w.log = false

instance (h : Hardware) (p : Port) (o : Op) (w : World) : Decidable (Accountable h p o w) :=
  inferInstanceAs (Decidable (_ → _))

theorem startNextDevice_of_none (env : Env) {w : World} (h : nextDevice w = none) : startNextDevice env w = w := by
  unfold nextDevice at h
  unfold startNextDevice
  split at h
  · cases h
  · split at h
    · simp [*]
    · simp [*]

theorem startNextDevice_of_some (env : Env) {i : Port} {w : World} (h : nextDevice w = some i) :
    ∃ b r, startNextDevice env w = ((Device.start env i (beginStart i b w)).2).setRam r := by
  unfold nextDevice at h
  unfold startNextDevice
  split at h
  · rename_i hlt
    cases h
    rw [dif_pos hlt]
    exact ⟨true, _, rfl⟩
  · rename_i hlt
    rw [dif_neg hlt]
    split at h
    · rename_i he
      rw [if_pos he, h]
      exact ⟨false, _, rfl⟩
    · cases h

/-- `startNextDevice` は、選んだ機器が止めている途中でなければ、それを起動する。ほかの機器の `start` は記録されない。 -/
theorem startNextDevice_launch (env : Env) (p : Port) {w : World} (hh : w.ram.halted = false)
    (hr : w.ram.shouldResetSystem = false) :
    (Launches p .startNext w ∧ ∃ b, (startNextDevice env w).log = (Device.powerUp env p (beginStart p b w)).log) ∨
      Trail (fun e => e.started p = none) w (startNextDevice env w) := by
  cases hn : nextDevice w with
  | none =>
      rw [startNextDevice_of_none env hn]
      exact Or.inr (Trail.refl w)
  | some i =>
      obtain ⟨b, r, heq⟩ := startNextDevice_of_some env hn
      rw [heq]
      have hbegin : Trail (fun e => e.started p = none) w (beginStart i b w) := ((Trail.refl w).setRam _).mark rfl
      by_cases hp : i = p
      · subst hp
        by_cases hs : (dev w i).state = .stopping
        · have hst : (dev (beginStart i b w) i).state = .stopping := hs
          rw [Device.start_of_stopping env hst]
          exact Or.inr (hbegin.setRam r)
        · have hst : (dev (beginStart i b w) i).state ≠ .stopping := hs
          rw [Device.start_of_ne env hst]
          exact Or.inl ⟨⟨hh, hr, hn, hs⟩, b, rfl⟩
      · have hstart : Trail (fun e => e.started p = none) (beginStart i b w)
            (Device.start env i (beginStart i b w)).2 := by
          refine (Device.acts_start env (beginStart i b w) i).trail.mono fun e he => ?_
          cases e with
          | start q m => exact if_neg fun hq => hp (he.1.symm.trans hq)
          | _ => rfl
        exact Or.inr ((hbegin.trans hstart).setRam r)

theorem step_launch {env : Env} {p : Port} {o : Op} {w w' : World} (hstep : step env o w = some w')
    (hall : w.ram.shouldResetAll = false) :
    (Launches p o w ∧ ∃ b, w'.log = (Device.powerUp env p (beginStart p b w)).log) ∨
      Trail (fun e => e.started p = none) w w' := by
  by_cases ho : o = .startNext
  · subst ho
    cases hh : w.ram.halted with
    | true =>
        have heq : w' = w := by simpa [step, hh] using hstep.symm
        rw [heq]
        exact Or.inr (Trail.refl w)
    | false =>
        cases hr : w.ram.shouldResetSystem with
        | true =>
            have heq : w' = w := by simpa [step, hh, hr] using hstep.symm
            rw [heq]
            exact Or.inr (Trail.refl w)
        | false =>
            have heq : w' = startNextDevice env w := by simpa [step, hh, hr] using hstep.symm
            rw [heq]
            exact startNextDevice_launch env p hh hr
  · refine Or.inr (((step_inv hstep).not_powersUp (fun h => absurd h ho) hall).mono fun e he => ?_)
    cases e with
    | start q m => exact absurd trivial he
    | _ => rfl

theorem liveStarts_step {env : Env} {p : Port} {h : Hardware} {o : Op} {w w' : World}
    (hstep : step env o w = some w') (hall : w.ram.shouldResetAll = false) (hr : w.hw = replay h w.log)
    (hoff : Launches p o w → w.hw.latch p = false) (h₀ : liveStarts p h w.log = 0) : liveStarts p h w'.log = 0 := by
  rcases step_launch (p := p) hstep hall with ⟨hl, b, hlog⟩ | ht
  · have hbegin : liveStarts p h (beginStart p b w).log = liveStarts p h w.log :=
      (Trail.mark (A := fun e => e.started p = none) rfl ((Trail.refl w).setRam _)).tally_eq
        (fun _ _ he => by rw [he]; rfl) h
    have hrb : (beginStart p b w).hw = replay h (beginStart p b w).log := hr
    have hlatch : (beginStart p b w).hw.latch p = false := hoff hl
    rw [hlog, liveStarts_powerUp env p h _ hrb, hbegin, h₀, hlatch]
    rfl
  · have hsame : liveStarts p h w'.log = liveStarts p h w.log := ht.tally_eq (fun _ _ he => by rw [he]; rfl) h
    rw [hsame, h₀]

theorem liveStarts_booted (env : Env) {h : Hardware} {p : Port} (hoff : p = 0 → h.latch 0 = false) :
    liveStarts p h (booted env h).log = 0 := by
  have ha := Booked.armed env h p
  have hzero : liveStarts p h (armed env h).log = 0 := by
    have hsum := ha.turnOns
    rw [Booked.starts_armed] at hsum
    exact (Nat.add_eq_zero_iff.mp hsum).2
  by_cases hp : p = 0
  · subst hp
    have hlatch : (armed env h).hw.latch 0 = h.latch 0 :=
      (trail_armed env h).hw_induct (P := fun s => s.latch 0 = h.latch 0)
        (fun e s he hs => (he.keepsLatch 0 s).trans hs) rfl
    rw [booted_eq_powerUp, liveStarts_powerUp env 0 h _ ha.replayed, hzero, hlatch, hoff rfl]
    rfl
  · have hf : Frame p (armed env h) (booted env h) := Frame.ofActs (Device.acts_start env _ 0) hp
    have hsame : liveStarts p h (booted env h).log = liveStarts p h (armed env h).log := by
      refine hf.trail.tally_eq (fun e t he => ?_) h
      cases e with
      | start q m => simp [Event.started, show q ≠ p from he]
      | _ => rfl
    rw [hsame, hzero]

/-! ## 止まっている機器のリレー -/

/-- リレーが入ったままにされていない機器は、止まっているか無効な間は、リレーが切れている。 -/
def Grounded (h : Hardware) (p : Port) (w : World) : Prop :=
  leftOn p h w.log = false → (dev w p).state = .stopped ∨ (dev w p).state = .disabled → w.hw.latch p = false

/-- ラッチを変えず、`kill()` でもない事象。 -/
def Event.Passive (p : Port) (e : Event) : Prop := e.KeepsLatch p ∧ e ≠ .killed p

theorem passive_eeprom (p : Port) (a : Nat) (v : UInt8) : Event.Passive p (.eeprom a v) := ⟨fun _ => rfl, nofun⟩

theorem passive_state (p : Port) (s : State) : Event.Passive p (.state p s) := ⟨fun _ => rfl, nofun⟩

theorem passive_heartbeat (p : Port) : Event.Passive p (.heartbeat p) := ⟨fun _ => rfl, nofun⟩

theorem passive_media (p : Port) (m : Media) : Event.Passive p (.media p m) := ⟨fun _ => rfl, nofun⟩

theorem passive_selector (p : Port) (s : Fin 2) (b : Bool) : Event.Passive p (.pin (bootSelectorPin s) b) :=
  ⟨keepsLatch_pin p (Or.inl (bootSelectorPin_ne_relayClk s p)), nofun⟩

theorem leftOn_of_not_killed {p : Port} {h : Hardware} {x : Entry Event} {l : List (Entry Event)}
    (hx : x.event ≠ .killed p) :
    leftOn p h (x :: l) = (leftOn p h l || (decide (x.event = .state p .stopped) && (replay h l).latch p)) :=
  if_neg hx

theorem latch_powerDown (env : Env) (p : Port) (w : World) : (Device.powerDown env p w).hw.latch p = false := by
  have hstop : Trail (Event.KeepsLatch p) (Device.driveRelay env p relayTurningOff false relayOff w)
      (Device.powerDown env p w) := ((trail_changeState fun _ => rfl).setRam _).mark fun _ => rfl
  exact hstop.hw_induct (P := fun s => s.latch p = false) (fun e s he hs => (he s).trans hs)
    (driveRelay_latch_self ..)

namespace Grounded

variable {env : Env} {h : Hardware} {p : Port} {a w w' : World}

theorem latch_of_trail (ht : Trail (Event.Passive p) w w') : w'.hw.latch p = w.hw.latch p :=
  ht.hw_induct (P := fun s => s.latch p = w.hw.latch p) (fun _ s he hs => (he.1 s).trans hs) rfl

/-- `kill()` のほかに、入ったままのリレーを切る事象はない。 -/
theorem leftOn_of_trail (ht : Trail (Event.Passive p) w w') (hc : leftOn p h w'.log = false) :
    leftOn p h w.log = false := by
  cases hleft : leftOn p h w.log with
  | false => rfl
  | true =>
      have hleft' : leftOn p h w'.log = true :=
        ht.log_induct (P := fun l => leftOn p h l = true)
          (fun x l hx hl => by rw [leftOn_of_not_killed hx.2, hl, Bool.true_or]) hleft
      exact hleft'.symm.trans hc

theorem of_trail (hw : Grounded h p w) (ht : Trail (Event.Passive p) w w') (hs : (dev w' p).state = (dev w p).state) :
    Grounded h p w' := by
  intro hc hst
  rw [hs] at hst
  rw [latch_of_trail ht]
  exact hw (leftOn_of_trail ht hc) hst

theorem of_frame (hw : Grounded h p w) (hf : Frame p w w') : Grounded h p w' := by
  refine hw.of_trail (hf.trail.mono fun e he => ?_) (by rw [hf.dev])
  cases e with
  | pin k b => exact ⟨keepsLatch_pin p (Or.inl fun hk => he (Or.inl hk)), nofun⟩
  | killed q => exact ⟨fun _ => rfl, fun hq => he (Event.killed.inj hq)⟩
  | _ => exact ⟨fun _ => rfl, nofun⟩

theorem of_powered (hs : (dev w p).state = .started ∨ (dev w p).state = .stopping) : Grounded h p w := by
  intro _ hst
  rcases hs with hs | hs <;> rcases hst with hst | hst <;> rw [hs] at hst <;> cases hst

theorem changeState_started : Grounded h p (Device.changeState p .started w) :=
  of_powered (Or.inl (by simp [dev, Device.enter]))

theorem changeState_stopping : Grounded h p (Device.changeState p .stopping w) :=
  of_powered (Or.inr (by simp [dev, Device.enter]))

/-- `STOPPED` にしたときにリレーが入っていれば、入ったままにされる。 -/
theorem changeState_stopped (hr : w.hw = replay h w.log) : Grounded h p (Device.changeState p .stopped w) := by
  intro hc _
  rw [Device.changeState_log, leftOn_of_not_killed (by simp), Bool.or_eq_false_iff, ← hr] at hc
  have hlatch : w.hw.latch p = false := by simpa using hc.2
  exact hlatch

theorem enable (hr : w.hw = replay h w.log) : Grounded h p (Device.enable env p w) :=
  changeState_stopped ((still_write (A := fun _ => True) trivial).trail.replayed hr)

theorem prim (hr : w.hw = replay h w.log) (hw : Grounded h p w) (hs : Prim env p (Frame p) w w') :
    Grounded h p w' := by
  cases hs with
  | frame hf => exact hw.of_frame hf
  | tweak d hd => exact hw.of_trail (trail_setDev p d) (by simpa using Device.steady_state hd)
  | beat => exact hw.of_trail ((trail_setDev p _).mark (passive_heartbeat p)) (by simp)
  | refuse _ hd =>
      have hwrite : Trail (Event.Passive p) w (Record.setDeviceEnabled env p false w) :=
        (still_write (passive_eeprom p _ _)).trail
      refine hw.of_trail (hwrite.trans (trail_changeState (passive_state p .disabled))) ?_
      rw [hd]
      simp [dev, Device.enter]
  | halt _ => exact changeState_stopping
  | revive _ _ => exact enable hr
  | off _ => exact fun _ _ => latch_powerDown env p w
  | on _ => exact changeState_started
  | fail hst => exact of_powered (Or.inl (by simpa only [dev, incrementBootFailures_ram] using hst))
  | media m => exact hw.of_trail (trail_setNextBootMedia (passive_media p m) (passive_selector p)) (by simp)

theorem step {o : Op} (hs : StepOn env p o w w') (hb : Booked p h a w) (hw : Grounded h p w) :
    Booked p h a w' ∧ Grounded h p w' :=
  hs.induct (P := fun v => Booked p h a v ∧ Grounded h p v)
    (fun _ _ hp hv => ⟨hv.1.prim hp, hv.2.prim hv.1.replayed hp⟩)
    (fun _ hv => ⟨hv.1.enable, enable hv.1.replayed⟩)
    (fun _ _ _ _ hv => ⟨hv.1.changeState .started, changeState_started⟩) ⟨hb, hw⟩

theorem booted (env : Env) (h : Hardware) (p : Port) : Grounded h p (V4.booted env h) := by
  refine booted_induct (p := p) (P := Grounded h p) (fun _ _ hf hw => hw.of_frame hf) h ?_
    (fun _ _ _ _ => changeState_started)
  intro w _ htrail
  have ht : Trail (Event.Passive p) (powerOn h) (Device.init env p w) := by
    refine (htrail.trans (Device.trail_init fun _ => trivial)).mono fun e he => ⟨he.keepsLatch p, ?_⟩
    rintro rfl
    exact he
  intro hc _
  rw [latch_of_trail ht]
  exact leftOn_of_trail ht hc

/-- 回数の合う一歩で `start()` が受け付けられるとき、リレーは切れている。 -/
theorem latch_of_launches {o : Op} (hw : Grounded h p w) (hC : Accountable h p o w) (hl : Launches p o w) :
    w.hw.latch p = false := by
  obtain ⟨hst, hc⟩ := hC hl
  refine hw hc ?_
  have hne : (dev w p).state ≠ .stopping := by
    cases o with
    | startNext => exact hl.2.2.2
    | _ => exact hl.elim
  cases hs : (dev w p).state with
  | disabled => exact Or.inr rfl
  | stopped => exact Or.inl rfl
  | started => exact absurd hs hst
  | stopping => exact absurd hs hne

end Grounded

/-! ## 実行を通した回数 -/

section Run

variable {env : Env} {h : Hardware} {p : Port} {ops : List Op} {w : World}

theorem booked_run (hrun : run env ops (booted env h) = some w) : Booked p h (armed env h) w :=
  run_invariant_on (p := p) (fun _ _ _ hs hw => hw.step hs) hrun (Booked.booted env h p)

/-- 回数の合う歩だけからなる実行では、`start()` は、リレーが入っているときには受け付けられない。 -/
theorem liveStarts_run (hrun : run env ops (booted env h) = some w) (hoff : p = 0 → h.latch 0 = false)
    (hC : Run.Meets (step env) (Accountable h p) ops (booted env h)) : liveStarts p h w.log = 0 := by
  have hinv := run_induct_from
    (P := fun w => Booked p h (armed env h) w ∧ Grounded h p w ∧ liveStarts p h w.log = 0) ?_ hrun
    (booted_globals env h).1 hC ⟨Booked.booted env h p, Grounded.booted env h p, liveStarts_booted env hoff⟩
  · exact hinv.2.2.2
  · rintro o w w' hc hall hs ⟨hb, hg, h₀⟩
    have hon := (step_inv hs).on hall p
    obtain ⟨hb', hg'⟩ := hg.step hon hb
    exact ⟨hb', hg', liveStarts_step hs hall hb.replayed (hg.latch_of_launches hc) h₀⟩

end Run

/-- 起動の回数と起動の記録は、どの実行でも、受け付けられた `start` の回数だけ増える。電源を入れたときにポート 0 のリレーが切れていて、
回数の合う歩だけからなる実行では、それはリレーの切から入への変化の回数と等しく、どの `start` もリレーを切から入に変える。
ポート 0 の最初の `start` は `setup` の最後に呼ばれる。 -/
theorem boot_accounting (env : Env) (h : Hardware) (p : Port) (ops : List Op) (w : World)
    (hrun : run env ops (booted env h) = some w) :
    Record.getBootAttempts w.hw.eeprom p =
      Record.getBootAttempts (armed env h).hw.eeprom p + UInt32.ofNat (starts p w.log).length ∧
    increments p h w.log = increments p h (armed env h).log + (starts p w.log).length ∧
    bootEntries p h w.log = bootEntries p h (armed env h).log + (starts p w.log).length ∧
    ((p = 0 → h.latch 0 = false) → Run.Meets (step env) (Accountable h p) ops (booted env h) →
      (starts p w.log).length = turnOns p h w.log ∧
      ∀ t m l, ⟨t, .start p m⟩ :: l <:+ w.log → (replay h l).latch p = false) := by
  have hw : Booked p h (armed env h) w := booked_run hrun
  refine ⟨hw.attempts, hw.increments, hw.entries, fun hoff hC => ?_⟩
  have hzero := liveStarts_run hrun hoff hC
  have hsum := hw.turnOns
  refine ⟨by omega, fun t m l hl => ?_⟩
  have hlive := tally_eq_zero.mp hzero ⟨t, .start p m⟩ l hl
  simpa [Event.started] using hlive

/-- ポート 1 の起動を要求した実行では、一回の起動でリレーが一度入る。 -/
theorem boot_accounting_start : ∃ w, run Env.ideal [.request true 0 ⟨0xc007, 2, none⟩, .startNext]
    (booted Env.ideal Hardware.ready) = some w ∧ (starts 1 w.log).length = 1 ∧
      (starts 1 w.log).length = turnOns 1 Hardware.ready w.log := by
  have hb : ((run Env.ideal [.request true 0 ⟨0xc007, 2, none⟩, .startNext]
      (booted Env.ideal Hardware.ready)).any fun w => decide ((starts 1 w.log).length = 1)) = true := by
    decide +kernel
  obtain ⟨w, hw, hs⟩ := (Option.any_eq_true _ _).mp hb
  have hC : Run.Meets (step Env.ideal) (Accountable Hardware.ready 1) [.request true 0 ⟨0xc007, 2, none⟩, .startNext]
      (booted Env.ideal Hardware.ready) := by decide +kernel
  exact ⟨w, hw, of_decide_eq_true hs, ((boot_accounting Env.ideal Hardware.ready 1 _ w hw).2.2.2 (by decide) hC).1⟩

/-- `setup` がポート 0 を起動した直後の `startNextDevice` は、リレーの入ったポート 0 をもう一度起動し、起動の回数は
二つ増えるが、リレーは一度しか入らない。 -/
theorem boot_counted_twice : ∃ w, run Env.ideal [.startNext] (booted Env.ideal Hardware.ready) = some w ∧
    Record.getBootAttempts (armed Env.ideal Hardware.ready).hw.eeprom 0 = 0 ∧
    Record.getBootAttempts w.hw.eeprom 0 = 2 ∧ (starts 0 w.log).length = 2 ∧ turnOns 0 Hardware.ready w.log = 1 := by
  have hb : ((run Env.ideal [.startNext] (booted Env.ideal Hardware.ready)).any fun w =>
      decide (Record.getBootAttempts (armed Env.ideal Hardware.ready).hw.eeprom 0 = 0 ∧
        Record.getBootAttempts w.hw.eeprom 0 = 2 ∧ (starts 0 w.log).length = 2 ∧
        turnOns 0 Hardware.ready w.log = 1)) = true := by
    decide +kernel
  obtain ⟨w, hw, hs⟩ := (Option.any_eq_true _ _).mp hb
  exact ⟨w, hw, of_decide_eq_true hs⟩

end Wagman.V4
