import Wagman.V3.Lemmas.Recovery

/-!
# 起動の回数と記録

電源を入れるのは `powerUp` だけで、そのたびに、リレーを入れる前に、起動の回数と起動の記録が一つずつ増える。ほかの操作は
どちらも変えない。
-/

namespace Wagman.V3

open Machine

variable {env : Env} {p i : Port} {w w' : World}

/-- `p` のリレーを入れた回数。 -/
def starts (p : Port) (l : Log) : Nat := l.countP fun x => x.event = .relay p true

/-! ## 数を変えない操作 -/

/-- `p` のリレーを入れず、起動の回数と、起動の記録の数に書かない事象。 -/
def Event.Uncounted (p : Port) (e : Event) : Prop :=
  e ≠ .relay p true ∧ ∀ o v, o = 7 ∨ o = 8 ∨ o = 65 → e ≠ .eeprom (Record.deviceRegion p + o) v

theorem uncounted_of_not_about {e : Event} (he : ¬ e.About p) : e.Uncounted p := by
  refine ⟨?_, ?_⟩
  · rintro rfl
    exact he rfl
  · rintro o v ho rfl
    exact he ⟨o, by omega, rfl⟩

theorem uncounted_eeprom {o : Nat} (ho : o < 128) (h₁ : o ≠ 7) (h₂ : o ≠ 8) (h₃ : o ≠ 65) (v : UInt8) :
    Event.Uncounted p (.eeprom (Record.deviceRegion i + o) v) := by
  refine ⟨nofun, fun o' v' ho' heq => ?_⟩
  injection heq with haddr
  obtain ⟨-, rfl⟩ := deviceRegion_add_inj ho (by omega) haddr
  omega

theorem uncounted_pin (k : Nat) (b : Bool) : Event.Uncounted p (.pin k b) := ⟨nofun, fun _ _ _ => nofun⟩

theorem uncounted_state (s : State) : Event.Uncounted p (.state i s) := ⟨nofun, fun _ _ _ => nofun⟩

theorem uncounted_journal (v : UInt8) :
    Event.Uncounted p (.eeprom (Record.deviceRegion i + Record.portRelayJournal) v) :=
  uncounted_eeprom (by simp) (by simp) (by simp) (by simp) v

theorem uncounted_relay {on : Bool} (h : on = false) : Event.Uncounted p (.relay i on) := by
  refine ⟨?_, fun _ _ _ => nofun⟩
  subst h
  simp

/-! ## 数 -/

/-- 起動の記録の数。 -/
def bootEntries (m : Nat → UInt8) (p : Port) : Nat := (Record.BootLog.getCount m p).toNat

/-- `a` 回と `n` 個から始めて、電源を入れるたびに一つずつ数えている。記録には 8 個までしか残らない。 -/
structure Counted (a : UInt16) (n : Nat) (p : Port) (w : World) : Prop where
  attempts : Record.getBootAttempts w.hw.eeprom p = a + UInt16.ofNat (starts p w.log)
  entries : n ≤ 8 → bootEntries w.hw.eeprom p = min 8 (n + starts p w.log)

theorem attempts_congr {m m' : Nat → UInt8}
    (h : ∀ o, o = 7 ∨ o = 8 → m' (Record.deviceRegion p + o) = m (Record.deviceRegion p + o)) :
    Record.getBootAttempts m' p = Record.getBootAttempts m p := by
  simp only [Record.getBootAttempts, Record.portBootAttempts]
  congr 1
  refine Bytes.get_congr fun b h₁ h₂ => ?_
  obtain ⟨o, rfl⟩ := Nat.exists_eq_add_of_le (Nat.le_trans (Nat.le_add_right _ _) h₁)
  exact h o (by omega)

theorem entries_congr {m m' : Nat → UInt8} (h : m' (Record.deviceRegion p + 65) = m (Record.deviceRegion p + 65)) :
    bootEntries m' p = bootEntries m p := congrArg UInt8.toNat h

theorem starts_cons {x : Entry Event} {l : Log} (hx : x.event ≠ .relay p true) : starts p (x :: l) = starts p l :=
  List.countP_cons_of_neg (by simpa using hx)

theorem starts_cons_self (t : Nat) (l : Log) : starts p (⟨t, .relay p true⟩ :: l) = starts p l + 1 :=
  List.countP_cons_of_pos (by simp)

/-- 起動の回数と記録の数に書かない。 -/
def Event.Unrecorded (p : Port) (e : Event) : Prop :=
  ∀ o v, o = 7 ∨ o = 8 ∨ o = 65 → e ≠ .eeprom (Record.deviceRegion p + o) v

theorem unrecorded_eq (ht : Trail (Event.Unrecorded p) w w') :
    Record.getBootAttempts w'.hw.eeprom p = Record.getBootAttempts w.hw.eeprom p ∧
      bootEntries w'.hw.eeprom p = bootEntries w.hw.eeprom p :=
  ⟨attempts_congr fun o ho => trail_eeprom ht fun v hv => hv o v (by omega) rfl,
    entries_congr (trail_eeprom ht fun v hv => hv 65 v (by omega) rfl)⟩

theorem starts_eq (ht : Trail (fun e => e ≠ .relay p true) w w') : starts p w'.log = starts p w.log :=
  ht.log_eq fun _ _ hx => starts_cons hx

/-- `recordBoot` は、起動の回数を一つ増やし、起動の記録に一つ加える。 -/
theorem attempts_recordBoot (env : Env) (p : Port) (w : World) :
    Record.getBootAttempts (Device.recordBoot env p w).hw.eeprom p = Record.getBootAttempts w.hw.eeprom p + 1 := by
  have hput : ∀ (a n : Nat) (v : World),
      (EEPROM.put env a 2 n v).hw.eeprom = Bytes.put Bytes.store a 2 n v.hw.eeprom := fun a n v =>
    Bytes.read_put (fun w : World => w.hw.eeprom) (fun _ _ _ => rfl) a 2 n v
  have hself : ∀ n : UInt16, UInt16.ofNat (n.toNat % 256 ^ 2) = n := by
    intro n
    have hlt : n.toNat < 256 ^ 2 := n.toNat_lt
    rw [Nat.mod_eq_of_lt hlt, UInt16.ofNat_toNat]
  have hincrement : Record.getBootAttempts (Record.incrementBootAttempts env p w).hw.eeprom p =
      Record.getBootAttempts w.hw.eeprom p + 1 := by
    rw [Record.incrementBootAttempts, Record.setBootAttempts, hput]
    exact (congrArg UInt16.ofNat (Bytes.get_put_self _ 2 _ _)).trans (hself _)
  have hentry : ∀ (t : UInt32) (v : World), Record.getBootAttempts (Record.BootLog.addEntry env p t v).hw.eeprom p =
      Record.getBootAttempts v.hw.eeprom p := by
    intro t v
    have haddr : Record.BootLog.address p = Record.deviceRegion p + 64 := rfl
    have hstill : Still (fun e => ∃ a b, Record.deviceRegion p + 64 ≤ a ∧ e = .eeprom a b) v
        (Record.BootLog.addEntry env p t v) := still_addEntry (fun a b h₁ _ => ⟨a, b, haddr ▸ h₁, rfl⟩) t
    refine attempts_congr fun o ho => trail_eeprom hstill.trail ?_
    rintro b ⟨a, b', ha, he⟩
    injection he with heq
    omega
  rw [← hincrement]
  exact hentry _ _

theorem entries_addEntry (env : Env) (p : Port) (t : UInt32) (w : World) :
    Record.BootLog.getCount (Record.BootLog.addEntry env p t w).hw.eeprom p =
      if (Record.BootLog.getCount w.hw.eeprom p).toNat = Record.BootLog.capacity then
        Record.BootLog.getCount w.hw.eeprom p
      else Record.BootLog.getCount w.hw.eeprom p + 1 := by
  have hkeep : ∀ (a n : Nat) (v : World), Record.BootLog.address p + 2 ≤ a →
      (EEPROM.put env a 4 n v).hw.eeprom (Record.BootLog.address p + 1) =
        v.hw.eeprom (Record.BootLog.address p + 1) := by
    intro a n v ha
    have hstill : Still (fun e => ∃ b c, a ≤ b ∧ e = Event.eeprom b c) v (EEPROM.put env a 4 n v) :=
      still_put (fun b c h₁ _ => ⟨b, c, h₁, rfl⟩) n
    refine trail_eeprom hstill.trail ?_
    rintro b ⟨b', c, hb, he⟩
    injection he with heq
    omega
  by_cases hfull : (Record.BootLog.getCount w.hw.eeprom p).toNat = Record.BootLog.capacity
  · simp only [Record.BootLog.addEntry, if_pos hfull]
    exact Eq.trans (Bytes.store_of_ne (by omega) _ _) (hkeep _ _ _ (by omega))
  · simp only [Record.BootLog.addEntry, if_neg hfull]
    exact Bytes.store_self _ _ _

theorem entries_recordBoot (env : Env) (p : Port) (w : World) (h : bootEntries w.hw.eeprom p ≤ 8) :
    bootEntries (Device.recordBoot env p w).hw.eeprom p = min 8 (bootEntries w.hw.eeprom p + 1) := by
  have hincrement : bootEntries (Record.incrementBootAttempts env p w).hw.eeprom p = bootEntries w.hw.eeprom p := by
    refine entries_congr (trail_eeprom (A := fun e => ∃ a b, a < Record.deviceRegion p + 64 ∧ e = .eeprom a b)
      (still_put (fun a b _ h₂ => ⟨a, b, ?_, rfl⟩) _).trail ?_)
    · rintro b ⟨a, b', ha, he⟩
      injection he with heq
      omega
    · simp only [Record.portBootAttempts] at h₂
      omega
  have hadd : ∀ (t : UInt32) (v : World), bootEntries v.hw.eeprom p ≤ 8 →
      bootEntries (Record.BootLog.addEntry env p t v).hw.eeprom p = min 8 (bootEntries v.hw.eeprom p + 1) := by
    intro t v hv
    simp only [bootEntries] at hv ⊢
    rw [entries_addEntry, Record.BootLog.capacity]
    split
    · rename_i hfull
      rw [hfull]
      rfl
    · simp only [UInt8.toNat_add, UInt8.reduceToNat]
      omega
  rw [← hincrement] at h ⊢
  exact hadd _ _ h

/-! ## 操作が保つこと -/

namespace Counted

variable {a : UInt16} {n : Nat}

theorem of_trail (ht : Trail (Event.Uncounted p) w w') (hw : Counted a n p w) : Counted a n p w' := by
  obtain ⟨hattempts, hentries⟩ := unrecorded_eq (ht.mono fun _ he => he.2)
  have hstarts := starts_eq (ht.mono fun _ he => he.1)
  refine ⟨?_, fun hn => ?_⟩
  · rw [hattempts, hstarts, hw.attempts]
  · rw [hentries, hstarts, hw.entries hn]

theorem frame (hf : Frame p w w') (hw : Counted a n p w) : Counted a n p w' :=
  hw.of_trail (hf.trail.mono fun _ he => uncounted_of_not_about he)

theorem changeState (s : State) (hw : Counted a n p w) : Counted a n p (Device.changeState p s w) :=
  hw.of_trail ((trail_setDev p _).mark (uncounted_state s))

/-- リレーを入れる切り替えは、リレーを入れた回数だけを一つ増やす。 -/
theorem starts_driveRelay (t s : UInt8) (w : World) :
    starts p (Device.driveRelay env p t true s w).log = starts p w.log + 1 := by
  let begun := delay env 10 (Record.setRelayState env p t w)
  have hbefore : Trail (fun e => e ≠ .relay p true) w begun := ((still_write nofun).trans (still_delay 10)).trail
  have hafter : Trail (fun e => e ≠ .relay p true) (begun.mark (.relay p true))
      (Device.driveRelay env p t true s w) :=
    (trail_setRelay (fun _ _ => nofun) true).trans
      (((still_delay 500).trans ((still_write nofun).trans (still_delay 10))).trail)
  rw [starts_eq hafter, mark_log, starts_cons_self, starts_eq hbefore]

theorem powerUp (hw : Counted a n p w) : Counted a n p (Device.powerUp env p w) := by
  have hselect : Trail (Event.Uncounted p) w (Device.selectMedia env p w) :=
    ((trail_setDev p _).trans (trail_setDev p _)).trans (still_setBootMedia uncounted_pin).trail
  have hw' := hw.of_trail hselect
  have hstarts : starts p (Device.recordBoot env p (Device.selectMedia env p w)).log =
      starts p (Device.selectMedia env p w).log :=
    starts_eq (still_recordBoot fun _ _ _ => nofun).trail
  have hdrive : ∀ v : World, Still (Event.Unrecorded p) v (Device.driveRelay env p relayTurningOn true relayOn v) :=
    fun v => still_driveRelay (fun _ _ _ => nofun) (fun _ _ _ _ _ => nofun) fun b => (uncounted_journal b).2
  obtain ⟨hattempts, hentries⟩ :=
    unrecorded_eq (hdrive (Device.recordBoot env p (Device.selectMedia env p w))).trail
  refine Counted.changeState .started ⟨?_, fun hn => ?_⟩
  · rw [hattempts, starts_driveRelay, hstarts, attempts_recordBoot, hw'.attempts, UInt16.ofNat_add,
      UInt16.add_assoc]
    rfl
  · have hle : bootEntries (Device.selectMedia env p w).hw.eeprom p ≤ 8 := by
      rw [hw'.entries hn]
      exact Nat.min_le_left _ _
    rw [hentries, starts_driveRelay, hstarts, entries_recordBoot env p _ hle, hw'.entries hn]
    omega

theorem powerDown (hw : Counted a n p w) : Counted a n p (Device.powerDown env p w) := by
  have hdrive : Still (Event.Uncounted p) w (Device.driveRelay env p relayTurningOff false relayOff w) :=
    still_driveRelay (uncounted_relay rfl) uncounted_pin uncounted_journal
  exact ((hw.of_trail hdrive.trail).changeState .stopped).of_trail ((Trail.refl _).setRam _)

theorem kill (hw : Counted a n p w) : Counted a n p (Device.kill env p w).2 := by
  unfold Device.kill
  split
  · exact hw
  · exact hw.powerDown

theorem disable (hw : Counted a n p w) : Counted a n p (Device.disable env p w) := by
  by_cases hp : p = 0
  · subst hp
    rw [disable_zero]
    exact hw.kill
  · have hclear : Still (Event.Uncounted p) w (Record.setDeviceEnabled env p false w) :=
      still_write (uncounted_eeprom (by simp) (by simp) (by simp) (by simp) _)
    rw [disable_of_ne_zero hp]
    exact (hw.of_trail hclear.trail).kill.changeState .disabled

theorem act (ha : Act env i w w') (hw : Counted a n p w) : Counted a n p w' := by
  by_cases hi : p = i
  · subst hi
    cases ha with
    | quiet hq => exact hw.frame (hq.frame p)
    | tweak d _ => exact hw.of_trail (trail_setDev p d)
    | beat => exact hw.of_trail ((trail_setDev p _).mark ⟨nofun, fun _ _ _ => nofun⟩)
    | media m => exact hw.of_trail ((trail_setDev p _).trans (still_setBootMedia uncounted_pin).trail)
    | wake _ => exact hw.changeState .started
    | halt _ => exact hw.changeState .stopping
    | on _ => exact hw.powerUp
    | off _ => exact hw.powerDown
    | enable =>
        have hmark : Counted a n p (w.mark (.enable p)) :=
          hw.of_trail ((Trail.refl w).mark ⟨nofun, fun _ _ _ => nofun⟩)
        have hset : Still (Event.Uncounted p) (w.mark (.enable p))
            (Record.setDeviceEnabled env p true (w.mark (.enable p))) :=
          still_write (uncounted_eeprom (by simp) (by simp) (by simp) (by simp) _)
        exact (hmark.of_trail hset.trail).changeState .stopped
    | disable => exact hw.disable
  · exact hw.frame (ha.prim.frame hi)

theorem incrementBootFailures (hw : Counted a n p w) : Counted a n p (Record.incrementBootFailures env i w) := by
  refine hw.of_trail (still_put (fun b v h₁ h₂ => ?_) _).trail
  obtain ⟨o, rfl⟩ := Nat.exists_eq_add_of_le (Nat.le_trans (Nat.le_add_right _ _) h₁)
  simp only [Record.portBootFailures] at h₁ h₂
  exact uncounted_eeprom (by omega) (by omega) (by omega) (by omega) v

theorem recoverRelay (hw : Counted a n p w) : Counted a n p (recoverRelay env p w) := by
  by_cases ht : Turning w.hw.eeprom p
  · have hwrite : Still (Event.Uncounted p) w (beginRecovery env p w) :=
      still_ioRead.trans (still_write (uncounted_journal _))
    have hbegin := hw.of_trail hwrite.trail
    rw [recoverRelay_of_turning ht]
    split
    · exact hbegin.disable
    · exact hbegin.kill
  · rw [recoverRelay_of_not_turning ht]
    exact hw.of_trail still_ioRead.trail

end Counted

/-! ## 起動と実行 -/

theorem counted_booted (env : Env) {h : Hardware} (hi : Record.initialized h.eeprom = true) (p : Port) :
    Counted (Record.getBootAttempts h.eeprom p) (bootEntries h.eeprom p) p (booted env h) := by
  have hprepare : Counted (Record.getBootAttempts h.eeprom p) (bootEntries h.eeprom p) p
      (prepare env (powerOn h)) := by
    have hstarts : starts p (prepare env (powerOn h)).log = 0 := by
      refine starts_eq (w := powerOn h) ((trail_prepare env (powerOn h)).mono ?_)
      rintro e he rfl
      exact he
    refine ⟨?_, fun hn => ?_⟩
    · rw [hstarts, attempts_congr fun o ho => prepare_record env hi (by omega) (by simp; omega) (by simp; omega)]
      exact (UInt16.add_zero _).symm
    · rw [hstarts, entries_congr (prepare_record env hi (by omega) (by simp) (by simp))]
      exact (Nat.min_eq_right hn).symm
  obtain ⟨v, hv, hf⟩ := setupDevices_at env p (prepare env (powerOn h))
  have hinit : Counted (Record.getBootAttempts h.eeprom p) (bootEntries h.eeprom p) p v := by
    refine hprepare.of_trail (hv.trail.mono fun e he => ?_)
    by_cases ha : e.About p
    · obtain ⟨s, rfl⟩ := he ha
      exact uncounted_state s
    · exact uncounted_of_not_about ha
  exact (hinit.recoverRelay.frame hf).frame (quiet_arm.frame p)

/-- 初期化された記録から起動したどの実行でも、起動の回数は、リレーを入れた回数だけ増えて桁あふれし、起動の記録は、8 個になるまで
リレーを入れるたびに一つ増える。 -/
theorem boots_counted (env : Env) (h : Hardware) (hi : Record.initialized h.eeprom = true) (ops : List Op) (p : Port) :
    Counted (Record.getBootAttempts h.eeprom p) (bootEntries h.eeprom p) p (run env ops (booted env h)) :=
  act_run (fun _ _ _ ha hw => hw.act ha) (fun _ _ hw => hw.incrementBootFailures) ops (counted_booted env hi p)

/-- ポート 1 の機器を二度起動する実行。 -/
def startTwice : List Op :=
  [.line (ascii ['s', 't', 'a', 'r', 't', ' ', '1']) [], .startNext,
    .line (ascii ['s', 't', 'o', 'p', ' ', '1', ' ', '0']) [], .idle 1, .update 1,
    .line (ascii ['s', 't', 'a', 'r', 't', ' ', '1']) [], .startNext]

theorem boots_counted_twice : ∃ w, w = run Env.ideal startTwice (booted Env.ideal Hardware.ready) ∧
    starts 1 w.log = 2 ∧ Record.getBootAttempts w.hw.eeprom 1 = 2 ∧ bootEntries w.hw.eeprom 1 = 2 := by
  have htwice : starts 1 (run Env.ideal startTwice (booted Env.ideal Hardware.ready)).log = 2 := by decide +kernel
  obtain ⟨hattempts, hentries⟩ := boots_counted Env.ideal Hardware.ready (by decide) startTwice 1
  rw [htwice] at hattempts hentries
  exact ⟨_, rfl, htwice, hattempts, hentries (by decide)⟩

end Wagman.V3
