import Wagman.V3.Lemmas.Recovery

/-!
# リレーの記録の正しさ

`driveRelay` は、切り替えの前に途中であることを、後に結果を EEPROM に記す。どこで途切れても、記録は、その起動の間の最後の
切り替えの結果か、切り替えの途中であることを表す。
-/

namespace Wagman.V3

open Machine

variable {env : Env} {h : Hardware} {p i : Port} {w w' : World} {l : Log}

/-! ## 記録と切り替え -/

/-- `p` のリレーを切り替える向き。 -/
def Event.switch (p : Port) : Event → Option Bool
  | .relay q on => if q = p then some on else none
  | _ => none

/-- 起動してから最後に `p` のリレーを切り替えた向き。 -/
def lastRelay (p : Port) (l : Log) : Option Bool := l.findSome? (·.event.switch p)

/-- 切り替えを終えたときの記録。 -/
def settled (on : Bool) : UInt8 := if on then relayOn else relayOff

/-- 記録は、最後の切り替えの結果か、切り替えの途中であることを表す。 -/
def Truthful (h : Hardware) (p : Port) (l : Log) : Prop :=
  ∀ on ∈ lastRelay p l,
    Record.getRelayState (replay h l).eeprom p = settled on ∨ Turning (replay h l).eeprom p

/-- 記録は、切り替えの途中であることを表さず、切り替えていれば、最後の結果を表す。 -/
def AtRest (m : Nat → UInt8) (p : Port) (l : Log) : Prop :=
  ¬ Turning m p ∧ ∀ on ∈ lastRelay p l, Record.getRelayState m p = settled on

/-- `p` のリレーにも、その記録にも関わらない事象。 -/
def Event.Apart (p : Port) (e : Event) : Prop := e.switch p = none ∧ ∀ v, e ≠ .eeprom (journalAddr p) v

theorem apart_of_not_about {e : Event} (he : ¬ e.About p) : e.Apart p := by
  refine ⟨?_, ?_⟩
  · cases e with
    | relay q on => exact if_neg he
    | _ => rfl
  · rintro v rfl
    exact he ⟨_, by simp, rfl⟩

theorem apart_eeprom {o : Nat} (ho : o < 128) (hne : o ≠ 38) (v : UInt8) :
    Event.Apart p (.eeprom (Record.deviceRegion i + o) v) := by
  refine ⟨rfl, fun v' heq => hne ?_⟩
  injection heq with haddr
  exact (deviceRegion_add_inj ho (by simp) haddr).2

theorem apart_pin (k : Nat) (b : Bool) : Event.Apart p (.pin k b) := ⟨rfl, nofun⟩

theorem apart_state (s : State) : Event.Apart p (.state i s) := ⟨rfl, nofun⟩

theorem lastRelay_cons {x : Entry Event} (hx : x.event.switch p = none) : lastRelay p (x :: l) = lastRelay p l := by
  rw [lastRelay, List.findSome?_cons, hx]
  rfl

theorem lastRelay_of_none (hl : ∀ x ∈ l, x.event.switch p = none) : lastRelay p l = none :=
  List.findSome?_eq_none_iff.mpr hl

theorem Truthful.cons {x : Entry Event} (hx : x.event.Apart p) (hl : Truthful h p l) : Truthful h p (x :: l) := by
  have hbyte : (replay h (x :: l)).eeprom (journalAddr p) = (replay h l).eeprom (journalAddr p) := by
    obtain ⟨t, e⟩ := x
    rw [replay_cons]
    cases e with
    | eeprom a v =>
        refine Bytes.store_of_ne (fun ha => ?_) _ _
        subst ha
        exact hx.2 v rfl
    | _ => rfl
  intro on hon
  rw [lastRelay_cons hx.1] at hon
  refine (hl on hon).imp (fun hs => ?_) (fun ht => ?_)
  · exact Eq.trans hbyte hs
  · simp only [Turning, Record.getRelayState] at ht ⊢
    rwa [← journalAddr, hbyte]

/-! ## 操作が保つこと -/

/-- 記録は、どの時点でも `Truthful` であり、今は切り替えの途中でない。 -/
structure Journaled (h : Hardware) (p : Port) (w : World) : Prop where
  replayed : w.hw = replay h w.log
  truthful : Always (Truthful h p) w.log
  rest : AtRest w.hw.eeprom p w.log

namespace Journaled

theorem of_trail (ht : Trail (Event.Apart p) w w') (hw : Journaled h p w) : Journaled h p w' := by
  have hbyte : w'.hw.eeprom (journalAddr p) = w.hw.eeprom (journalAddr p) := trail_eeprom ht fun v hv => hv.2 v rfl
  have hlast : lastRelay p w'.log = lastRelay p w.log := ht.log_eq fun x l hx => lastRelay_cons hx.1
  refine ⟨ht.replayed hw.replayed, ?_, ?_, ?_⟩
  · exact (ht.always (fun _ _ hx hl => hl.cons hx) (fun _ hl => hl) (hw.truthful _ (List.suffix_refl _)) hw.truthful).2
  · have hrest := hw.rest.1
    simp only [Turning, Record.getRelayState] at hrest ⊢
    rwa [← journalAddr, hbyte]
  · rw [hlast]
    exact fun on hon => Eq.trans hbyte (hw.rest.2 on hon)

/-- リレーの切り替えは、記録を正しく保つ。 -/
theorem driveRelay {t : UInt8} (ht : t = relayTurningOn ∨ t = relayTurningOff) (on : Bool) (hw : Journaled h p w) :
    Journaled h p (Device.driveRelay env p t on (settled on) w) := by
  let begun := Record.setRelayState env p t w
  let driven := delay env 500 (setRelay env p on (delay env 10 begun))
  -- 途中であることを記してから、結果を記すまで
  have hbegun : (replay h begun.log).eeprom (journalAddr p) = t := Bytes.store_self _ _ _
  have hturning : ∀ l : Log, (replay h l).eeprom (journalAddr p) = t → Truthful h p l := by
    intro l hl on _
    refine Or.inr ?_
    simp only [Turning, Record.getRelayState]
    rwa [← journalAddr, hl]
  have hpins : ∀ (k : Nat) (b : Bool) (v : UInt8), Event.pin k b ≠ .eeprom (journalAddr p) v := by
    intro k b v h
    cases h
  have hmark : ∀ v : UInt8, Event.relay p on ≠ .eeprom (journalAddr p) v := by
    intro v h
    cases h
  have hdrive : Trail (fun e => ∀ v, e ≠ .eeprom (journalAddr p) v) begun driven :=
    (((still_delay 10).trans (still_setRelay hmark hpins)).trans (still_delay 500)).trail
  have hduring : (replay h driven.log).eeprom (journalAddr p) = t ∧ Always (Truthful h p) driven.log := by
    refine hdrive.always (K := fun l => (replay h l).eeprom (journalAddr p) = t) ?_ hturning hbegun
      (always_cons.mpr ⟨hturning _ hbegun, hw.truthful⟩)
    rintro ⟨s, e⟩ l he hl
    rw [replay_cons]
    cases e with
    | eeprom a v =>
        refine Eq.trans (Bytes.store_of_ne (fun ha => ?_) _ _) hl
        subst ha
        exact he v rfl
    | _ => exact hl
  have hlast : lastRelay p driven.log = some on := by
    have hrest : Trail (fun e => e.switch p = none) ((delay env 10 begun).mark (.relay p on)) driven :=
      (trail_setRelay (fun _ _ => rfl) on).trans (still_delay 500).trail
    have hlog : lastRelay p driven.log = lastRelay p ((delay env 10 begun).mark (.relay p on)).log :=
      hrest.log_eq fun x l hx => lastRelay_cons hx
    rw [hlog, mark_log, lastRelay, List.findSome?_cons]
    simp [Event.switch]
  -- 結果を記した後
  let done := Record.setRelayState env p (settled on) driven
  have hreplayed : driven.hw = replay h driven.log :=
    (hdrive.mono fun _ _ => trivial : Trail (fun _ => True) begun driven).replayed
      ((still_write (A := fun _ => True) trivial).trail.replayed hw.replayed)
  have hbyte : ∀ s : Hardware,
      Record.getRelayState (Effect.apply (Event.eeprom (journalAddr p) (settled on)) s).eeprom p = settled on :=
    fun s => Bytes.store_self _ _ _
  have hnext : lastRelay p done.log = some on := Eq.trans (lastRelay_cons rfl) hlast
  have hdone : Journaled h p done := by
    refine ⟨(still_write (A := fun _ => True) trivial).trail.replayed hreplayed,
      always_cons.mpr ⟨fun on' hon => Or.inl ?_, hduring.2⟩, ?_, fun on' hon => ?_⟩
    · obtain rfl := Option.some.inj (hnext.symm.trans hon)
      exact hbyte _
    · have hstate : Record.getRelayState done.hw.eeprom p = settled on := hbyte _
      simp only [Turning, hstate]
      cases on with
      | false => decide
      | true => decide
    · obtain rfl := Option.some.inj (hnext.symm.trans hon)
      exact hbyte _
  exact hdone.of_trail (still_delay 10).trail

theorem changeState (s : State) (hw : Journaled h p w) : Journaled h p (Device.changeState p s w) :=
  hw.of_trail ((trail_setDev p _).mark (apart_state s))

theorem powerUp (hw : Journaled h p w) : Journaled h p (Device.powerUp env p w) := by
  have hselect : Trail (Event.Apart p) w (Device.selectMedia env p w) :=
    ((trail_setDev p _).trans (trail_setDev p _)).trans (still_setBootMedia apart_pin).trail
  have hrecord : ∀ v : World, Still (Event.Apart p) v (Device.recordBoot env p v) := fun v =>
    still_recordBoot fun o b ho => apart_eeprom (by omega) (by omega) b
  exact ((hw.of_trail (hselect.trans (hrecord _).trail)).driveRelay (Or.inl rfl) true).changeState .started

theorem powerDown (hw : Journaled h p w) : Journaled h p (Device.powerDown env p w) :=
  ((hw.driveRelay (Or.inr rfl) false).changeState .stopped).of_trail ((Trail.refl _).setRam _)

theorem kill (hw : Journaled h p w) : Journaled h p (Device.kill env p w).2 := by
  unfold Device.kill
  split
  · exact hw
  · exact hw.powerDown

theorem disable (hw : Journaled h p w) : Journaled h p (Device.disable env p w) := by
  by_cases hp : p = 0
  · subst hp
    rw [disable_zero]
    exact hw.kill
  · have hclear : Still (Event.Apart p) w (Record.setDeviceEnabled env p false w) :=
      still_write (apart_eeprom (by simp) (by simp) _)
    rw [disable_of_ne_zero hp]
    exact (hw.of_trail hclear.trail).kill.changeState .disabled

theorem frame (hf : Frame p w w') (hw : Journaled h p w) : Journaled h p w' :=
  hw.of_trail (hf.trail.mono fun _ he => apart_of_not_about he)

theorem act (ha : Act env i w w') (hw : Journaled h p w) : Journaled h p w' := by
  by_cases hi : p = i
  · subst hi
    cases ha with
    | quiet hq => exact hw.frame (hq.frame p)
    | tweak d _ => exact hw.of_trail (trail_setDev p d)
    | beat => exact hw.of_trail ((trail_setDev p _).mark ⟨rfl, nofun⟩)
    | media m => exact hw.of_trail ((trail_setDev p _).trans (still_setBootMedia apart_pin).trail)
    | wake _ => exact hw.changeState .started
    | halt _ => exact hw.changeState .stopping
    | on _ => exact hw.powerUp
    | off _ => exact hw.powerDown
    | enable =>
        have hmark : Journaled h p (w.mark (.enable p)) := hw.of_trail ((Trail.refl w).mark ⟨rfl, nofun⟩)
        have hset : Still (Event.Apart p) (w.mark (.enable p))
            (Record.setDeviceEnabled env p true (w.mark (.enable p))) :=
          still_write (apart_eeprom (by simp) (by simp) _)
        exact (hmark.of_trail hset.trail).changeState .stopped
    | disable => exact hw.disable
  · exact hw.frame (ha.prim.frame hi)

theorem incrementBootFailures (hw : Journaled h p w) : Journaled h p (Record.incrementBootFailures env i w) := by
  refine hw.of_trail (still_put (fun b v h₁ h₂ => ?_) _).trail
  obtain ⟨o, rfl⟩ := Nat.exists_eq_add_of_le (Nat.le_trans (Nat.le_add_right _ _) h₁)
  simp only [Record.portBootFailures] at h₁ h₂
  exact apart_eeprom (by omega) (by omega) v

end Journaled

/-! ## 起動と実行 -/

/-- まだリレーを切り替えていない状態で、回復を終えると、記録は切り替えの途中でない。 -/
theorem journaled_recoverRelay (hr : w.hw = replay h w.log) (hl : ∀ x ∈ w.log, x.event.switch p = none) :
    Journaled h p (recoverRelay env p w) := by
  have hnone : ∀ v : World, (∀ x ∈ v.log, x.event.switch p = none) → v.hw = replay h v.log →
      ¬ Turning v.hw.eeprom p → Journaled h p v := by
    intro v hv hvr ht
    refine ⟨hvr, fun l hs on hon => ?_, ht, fun on hon => ?_⟩
    · rw [lastRelay_of_none fun x hx => hv x (hs.subset hx)] at hon
      cases hon
    · rw [lastRelay_of_none hv] at hon
      cases hon
  by_cases ht : Turning w.hw.eeprom p
  · have hwrite : Still (fun e => e.switch p = none) w (beginRecovery env p w) := still_ioRead.trans (still_write rfl)
    have hbegin : Journaled h p (beginRecovery env p w) := by
      refine hnone _ ?_ (hwrite.trail.replayed hr) ?_
      · exact hwrite.trail.forall_log (Q := fun e => e.switch p = none) (fun _ he => he) hl
      · have hoff : Record.getRelayState (beginRecovery env p w).hw.eeprom p = relayOff := Bytes.store_self _ _ _
        simp only [Turning, hoff]
        decide
    rw [recoverRelay_of_turning ht]
    split
    · exact hbegin.disable
    · exact hbegin.kill
  · rw [recoverRelay_of_not_turning ht]
    exact hnone _ hl hr ht

theorem journaled_booted (env : Env) (h : Hardware) (p : Port) : Journaled h p (booted env h) := by
  obtain ⟨v, hv, hf⟩ := setupDevices_at env p (prepare env (powerOn h))
  have hprepare : Trail (fun e => e.switch p = none) (powerOn h) (prepare env (powerOn h)) := by
    refine (trail_prepare env (powerOn h)).mono fun e he => ?_
    cases e with
    | eeprom a v => rfl
    | pin k b => rfl
    | _ => exact he.elim
  have hinit : Trail (fun e => e.switch p = none) (prepare env (powerOn h)) v := by
    refine hv.trail.mono fun e he => ?_
    cases e with
    | relay q on =>
        refine if_neg fun hq => ?_
        obtain ⟨s, hs⟩ := he hq
        cases hs
    | _ => rfl
  have htrail := hprepare.trans hinit
  have hrecover : Journaled h p (recoverRelay env p v) :=
    journaled_recoverRelay (htrail.replayed rfl)
      (htrail.forall_log (Q := fun e => e.switch p = none) (fun _ he => he) fun _ hx => by cases hx)
  exact (hrecover.frame hf).frame (quiet_arm.frame p)

theorem journaled_run (env : Env) (h : Hardware) (ops : List Op) (p : Port) :
    Journaled h p (run env ops (booted env h)) :=
  act_run (fun _ _ _ ha hw => hw.act ha) (fun _ _ hw => hw.incrementBootFailures) ops (journaled_booted env h p)

/-- どの EEPROM の内容から起動したどの実行でも、どの時点で途切れても、リレーの記録は、起動の後の最後の切り替えの結果か、切り替えの
途中であることを表す。操作の間では、途中であることを表さず、切り替えていれば、最後の結果を表す。 -/
theorem relay_journal_truthful (env : Env) (h : Hardware) (ops : List Op) (p : Port) :
    Always (Truthful h p) (run env ops (booted env h)).log ∧
      AtRest (run env ops (booted env h)).hw.eeprom p (run env ops (booted env h)).log :=
  ⟨(journaled_run env h ops p).truthful, (journaled_run env h ops p).rest⟩

end Wagman.V3
