import Wagman.V2.Lifetime
import Wagman.V2.Lemmas.Induct

/-!
# 電源を入れてよい機器

リレーは、EEPROM で有効とされ、あるとされている機器のものだけが入る。有効の印には 0 だけが書かれるので、電流の異常で無効になった
機器は、何度起動し直しても、電源を入れられない。
-/

namespace Wagman.V2

open Machine

variable {env : Env} {d : Device} {s : Hardware} {w w' : World}

/-! ## 公正な記録 -/

/-- 電源を入れてよい機器。 -/
def Eeprom.Admits (e : Eeprom) : Device → Prop
  | .nc => e.byte .ncEnabled ≠ 0
  | .switch => e.byte .switchEnabled ≠ 0 ∧ e.byte .presentSwitch ≠ 0
  | .gn g => e.byte (.gnEnabled g) ≠ 0 ∧ e.byte (.presentGN g) ≠ 0

/-- EEPROM が `e` のときに起きてよい事象。 -/
def Event.Fair (e : Eeprom) : Event → Prop
  | .relay d on => on = true → e.Admits d
  | .byte c v => ∀ d : Device, c = d.enabled → v = 0
  | _ => True

/-- 記録の最後の事象は、起きてよいときに起きた。 -/
def FairLast (s : Hardware) : Log → Prop
  | [] => True
  | x :: l => x.event.Fair (replay s l).eeprom

theorem Eeprom.Admits.enabled {e : Eeprom} (h : e.Admits d) : e.byte d.enabled ≠ 0 := by
  cases d with
  | nc => exact h
  | switch => exact h.1
  | gn g => exact h.1

theorem Event.Tame.fair {e : Event} (h : e.Tame) (m : Eeprom) : e.Fair m := by
  cases e with
  | relay d on =>
      intro hon
      cases hon.symm.trans h
  | byte c v =>
      rintro d rfl
      cases h.symm.trans (plain_enabled d)
  | _ => trivial

/-- 初めの装置 `s` からの、どの時点でも公正な実行。 -/
structure Honest (s : Hardware) (w : World) : Prop where
  hw : w.hw = replay s w.log
  fair : Always (FairLast s) w.log

theorem Honest.of_trail (h : Honest s w) (ht : Trail Event.Tame w w') : Honest s w' :=
  ⟨ht.replayed h.hw, (ht.always (K := FairLast s) (fun _ _ hx _ => Event.Tame.fair hx _) (fun _ hl => hl)
    (h.fair _ (List.suffix_refl _)) h.fair).2⟩

theorem Honest.emit {e : Event} (h : Honest s w) (he : e.Fair w.hw.eeprom) : Honest s (w.emit env.latency e) := by
  refine ⟨congrArg (Effect.apply e) h.hw, always_cons.mpr ⟨?_, h.fair⟩⟩
  rw [h.hw] at he
  exact he

/-! ## 機器の起動 -/

/-- 機器 `d` の電源を入れてよい、公正な実行の途中。 -/
structure Admitted (s : Hardware) (d : Device) (w : World) : Prop where
  honest : Honest s w
  admits : w.hw.eeprom.Admits d

namespace Admitted

theorem passive (h : Admitted s d w) (hp : Still Event.Passive w w') : Admitted s d w' :=
  ⟨h.honest.of_trail (tame_of_passive hp), by rw [hw_of_passive hp.trail]; exact h.admits⟩

theorem digitalWrite (env : Env) (on : Bool) (h : Admitted s d w) : Admitted s d (digitalWrite env d on w) :=
  ⟨h.honest.emit fun _ => h.admits, h.admits⟩

theorem powerCycle (h : Admitted s d w) : Admitted s d (powerCycle env d w) :=
  ((h.digitalWrite env false).passive (still_delay 2000)).digitalWrite env true

theorem confirmPower {check : World → Bool × World} {boot : World → World}
    (hcheck : ∀ w, Still Event.Passive w (check w).2) (hboot : ∀ w, Still Event.Passive w (boot w))
    (h : Admitted s d w) : Admitted s d (confirmPower env d check boot w).2 := by
  unfold V2.confirmPower twice
  simp only
  split
  · exact h.passive (hcheck w)
  · exact (h.passive (hcheck w)).powerCycle.passive ((hboot _).trans (hcheck _))

theorem retryHeartbeat {boot : World → World} (hboot : ∀ w, Still Event.Passive w (boot w)) (n : Nat) (detected : Bool)
    (h : Admitted s d w) : Admitted s d (retryHeartbeat env d boot n detected w).2 := by
  induction n generalizing detected w with
  | zero => exact h
  | succ n ih =>
      have hcheck : Admitted s d (checkHeartbeatOdroid env d w).2 := h.passive (passive_checkHeartbeatOdroid d)
      simp only [V2.retryHeartbeat]
      split
      · exact ih true hcheck
      · exact ih detected (hcheck.powerCycle.passive (hboot _))

theorem awaitHeartbeat {boot : World → World} (hboot : ∀ w, Still Event.Passive w (boot w)) (h : Admitted s d w) :
    Admitted s d (awaitHeartbeat env d boot w).2 := by
  have hcheck : Admitted s d (checkHeartbeatOdroid env d w).2 := h.passive (passive_checkHeartbeatOdroid d)
  unfold V2.awaitHeartbeat
  simp only
  split
  · exact hcheck
  · exact hcheck.retryHeartbeat hboot _ _

/-- 電流の異常で、電源を切って無効にする。 -/
theorem disable (h : Admitted s d w) : Honest s (updateByte env d.enabled 0 w) :=
  h.honest.emit fun _ _ => rfl

end Admitted

theorem tame_restDevice : Trail Event.Tame w (restDevice env d w) :=
  (((Trail.refl w).setRam _).trans (tame_off d)).elapse _ _

theorem Honest.bootSwitch (h : Honest s w) : Honest s (bootSwitch env w).2 := by
  have hrest : Honest s (restDevice env .switch w) := h.of_trail tame_restDevice
  have hwait : ∀ v : World, Still Event.Passive v (waitSwitch env v) := fun _ => still_delay _
  have htemp : ∀ v : World, Still Event.Passive v (twice (checkTempSwitch env) (delay env 5000) v).2 := fun _ =>
    still_twice (fun _ => still_checkTemp _ _ _) fun _ => still_delay 5000
  have hpower : ∀ v : World, Admitted s .switch v →
      Admitted s .switch (confirmPower env .switch (checkPowerSwitch env) (waitSwitch env) v).2 := fun _ hv =>
    hv.confirmPower (fun _ => still_checkPower _ _) hwait
  simp only [V2.bootSwitch]
  split
  · exact hrest
  · rename_i hguard
    have hallow : Admitted s .switch (restDevice env .switch w) := ⟨hrest, not_or.mp hguard⟩
    have hlit := ((hallow.passive (htemp _)).digitalWrite env true).passive (hwait _)
    have hconfirm := hpower _ hlit
    split
    · exact ((hallow.passive (htemp _)).passive (passive_sendProblem _)).honest
    · split
      · exact ((hconfirm.digitalWrite env false).passive (passive_sendProblem _)).disable
      · exact hconfirm.honest.of_trail ((Trail.refl _).setRam _)

theorem Honest.bootGN (g : GN) (h : Honest s w) : Honest s (bootGN env g w).2 := by
  have hrest : Honest s (restDevice env (.gn g) w) := h.of_trail tame_restDevice
  have hwait : ∀ v : World, Still Event.Passive v (waitGN env g v) := fun _ => still_delay _
  have htemp : ∀ v : World, Still Event.Passive v (twice (checkTempGN env g) (delay env 5000) v).2 := fun _ =>
    still_twice (fun _ => still_checkTemp _ _ _) fun _ => still_delay 5000
  have hpower : ∀ v : World, Admitted s (.gn g) v →
      Admitted s (.gn g) (confirmPower env (.gn g) (checkPowerGN env g) (waitGN env g) v).2 := fun _ hv =>
    hv.confirmPower (fun _ => still_checkPower _ _) hwait
  have hheart : ∀ v : World, Admitted s (.gn g) v →
      Admitted s (.gn g) (awaitHeartbeat env (.gn g) (waitGN env g) v).2 := fun _ hv => hv.awaitHeartbeat hwait
  simp only [V2.bootGN]
  split
  · exact hrest
  · rename_i hguard
    have hallow : Admitted s (.gn g) (restDevice env (.gn g) w) := ⟨hrest, not_or.mp hguard⟩
    have hlit := ((hallow.passive (htemp _)).digitalWrite env true).passive (hwait _)
    have hconfirm := hpower _ hlit
    have halive := hheart _ hconfirm
    split
    · exact ((hallow.passive (htemp _)).passive (passive_sendProblem _)).honest
    · split
      · exact ((hconfirm.digitalWrite env false).passive (passive_sendProblem _)).disable
      · split
        · exact ((halive.digitalWrite env false).passive (passive_sendProblem _)).honest
        · exact halive.honest.of_trail ((Trail.refl _).setRam _)

theorem admits_of_admitNC {debug : Bool} (h : (admitNC env debug w).1 = true) : w.hw.eeprom.Admits .nc := by
  have hsay : (say debug "BNC2" w).hw = w.hw := hw_of_passive (passive_say debug "BNC2").trail
  intro hzero
  have hrefuse : readByte .ncEnabled (say debug "BNC2" w) = 0 := by rw [readByte, hsay, hzero]
  simp [admitNC, hrefuse] at h

theorem Honest.bootNCVoid (h : Honest s w) : Honest s (bootNCVoid env w).2 := by
  have hwait : ∀ v : World, Still Event.Passive v (waitNC env v) := fun _ => still_delay _
  have hpower : ∀ v : World, Admitted s .nc v →
      Admitted s .nc (confirmPower env .nc (checkPowerNC env) (waitNC env) v).2 := fun _ hv =>
    hv.confirmPower (fun _ => still_checkPower _ _) hwait
  have hheart : ∀ v : World, Admitted s .nc v → Admitted s .nc (awaitHeartbeat env .nc (waitNC env) v).2 := fun _ hv =>
    hv.awaitHeartbeat hwait
  have hconfig : ∀ v : World, Admitted s .nc v → Admitted s .nc (configureNC env serialDebugOn v).2 := by
    intro v hv
    have hread : Still Event.Passive (V2.digitalWrite env .nc true (say serialDebugOn "BNC5" v))
        (configureNC env serialDebugOn v).2 := still_ioRead.trans (passive_say serialDebugOn _)
    exact ((hv.passive (passive_say _ _)).digitalWrite env true).passive hread
  have hsay := h.of_trail (tame_of_passive (passive_say serialDebugOn "BNC0"))
  simp only [V2.bootNCVoid, bootNC, reduceCtorEq, if_false]
  split
  · exact hsay.of_trail (tame_of_passive (passive_admitNC _))
  · rename_i hguard
    have hallow : Admitted s .nc (say serialDebugOn "BNC0" w) :=
      ⟨hsay, admits_of_admitNC (Bool.eq_true_of_not_eq_false hguard)⟩
    have hallowed : Admitted s .nc (admitNC env serialDebugOn (say serialDebugOn "BNC0" w)).2 :=
      hallow.passive (passive_admitNC serialDebugOn)
    have hlit := hconfig _ hallowed
    have hconfirm := hpower _ (hlit.passive (passive_say serialDebugOn "BNC7"))
    have halive := hheart _ (hconfirm.passive (passive_say serialDebugOn "BNC8"))
    split
    · exact hlit.honest
    · split
      · exact (hconfirm.digitalWrite env false).disable
      · split
        · exact (halive.digitalWrite env false).honest
        · exact (halive.passive (passive_say serialDebugOn "BNC9")).honest.of_trail ((Trail.refl _).setRam _)

theorem Honest.boot (d : Device) (h : Honest s w) : Honest s (boot env d w).2 := by
  cases d with
  | nc => exact h.bootNCVoid
  | switch => exact h.bootSwitch
  | gn g => exact h.bootGN g

theorem honest_run (env : Env) (e : Eeprom) (ops : List Op) :
    Honest (powerOn e).hw (run env ops (setup env (powerOn e))) := by
  have hon : Honest (powerOn e).hw (powerOn e) := by
    refine ⟨rfl, fun l hl => ?_⟩
    rw [List.suffix_nil.mp hl]
    trivial
  exact run_induct (fun _ _ ht hv => hv.of_trail ht) (fun d _ hv => hv.boot d) ops hon

/-- どの EEPROM の内容から起動したどの実行のどの時点でも、リレーが入るのは、そのときの EEPROM で有効とされ、あるとされている機器の
ものだけであり、有効の印には 0 だけが書かれる。 -/
theorem powered_only_admitted (env : Env) (e : Eeprom) (ops : List Op) :
    Always (FairLast (powerOn e).hw) (run env ops (setup env (powerOn e))).log := (honest_run env e ops).fair

/-! ## 投入の繰り返し -/

/-- 初めに 0 であったか、一度でも書かれた有効の印は、0 である。 -/
theorem enabled_eq_zero {l : Log} (hl : Always (FairLast s) l)
    (h : s.eeprom.byte d.enabled = 0 ∨ ∃ x ∈ l, ∃ v, x.event = .byte d.enabled v) :
    (replay s l).eeprom.byte d.enabled = 0 := by
  induction l with
  | nil => exact h.resolve_right fun ⟨_, hx, _⟩ => (List.not_mem_nil hx).elim
  | cons x l ih =>
      obtain ⟨hx, hl⟩ := always_cons.mp hl
      have hold : (∀ v, x.event ≠ .byte d.enabled v) → (replay s l).eeprom.byte d.enabled = 0 := by
        intro hne
        refine ih hl (h.imp_right ?_)
        rintro ⟨y, hy, v, hv⟩
        rcases List.mem_cons.mp hy with rfl | hy
        · exact absurd hv (hne v)
        · exact ⟨y, hy, v, hv⟩
      obtain ⟨t, e⟩ := x
      cases e with
      | byte c v =>
          by_cases hc : c = d.enabled
          · subst hc
            obtain rfl : v = 0 := hx d rfl
            exact Function.update_self _ _ _
          · refine (Function.update_of_ne (Ne.symm hc) _ _).trans (hold fun v' hv' => ?_)
            cases hv'
            exact hc rfl
      | _ => exact hold fun v hv => by cases hv

/-- 有効の印が 0 である機器のリレーは、入らない。 -/
theorem not_powered_of_zero {l : Log} (hl : Always (FairLast s) l) (hz : s.eeprom.byte d.enabled = 0) :
    ∀ x ∈ l, x.event ≠ .relay d true := by
  intro x hx he
  obtain ⟨l₁, l₂, rfl⟩ := List.append_of_mem hx
  have hsuffix : l₂ <:+ l₁ ++ x :: l₂ := (List.suffix_cons x l₂).trans (List.suffix_append l₁ _)
  have hfair : x.event.Fair (replay s l₂).eeprom := hl _ (List.suffix_append l₁ _)
  rw [he] at hfair
  exact (hfair rfl).enabled (enabled_eq_zero (fun l' hl' => hl l' (hl'.trans hsuffix)) (.inl hz))

/-- 有効の印に書いた後には、その機器のリレーは入らない。 -/
theorem pairwise_of_fair {l : Log} (hl : Always (FairLast s) l) :
    l.Pairwise fun x y => (∃ v, y.event = .byte d.enabled v) → x.event ≠ .relay d true := by
  induction l with
  | nil => exact List.Pairwise.nil
  | cons x l ih =>
      obtain ⟨hx, hl⟩ := always_cons.mp hl
      refine List.pairwise_cons.mpr ⟨fun y hy hw he => ?_, ih hl⟩
      rw [FairLast, he] at hx
      exact (hx rfl).enabled (enabled_eq_zero hl (.inr ⟨y, hy, hw⟩))

theorem Life.fair (b : Life) (e : Eeprom) : Always (FairLast (powerOn e).hw) (b.log e) := fun l hl =>
  (honest_run b.env e b.ops).fair l (hl.trans (List.drop_suffix _ _))

/-- 電流の異常で有効の印に書かれた機器は、その投入の続きでも、後のどの投入でも、どの投入がどこで途切れても、電源を入れられない。 -/
theorem faulted_stays_off (d : Device) (e : Eeprom) (bs : List Life) :
    (record bs e).Pairwise fun x y => (∃ v, y.event = .byte d.enabled v) → x.event ≠ .relay d true := by
  induction bs generalizing e with
  | nil => exact List.Pairwise.nil
  | cons b bs ih =>
      have hcons : record (b :: bs) e = record bs (b.after e) ++ b.log e := by
        rw [record, Lifetime.logs, List.reverse_cons, List.flatten_append, List.flatten_singleton, record]
      rw [hcons]
      refine List.pairwise_append.mpr ⟨ih _, pairwise_of_fair (b.fair e), fun x hx y hy hw => ?_⟩
      have hzero : (b.after e).byte d.enabled = 0 := enabled_eq_zero (b.fair e) (.inr ⟨y, hy, hw⟩)
      obtain ⟨l, hl, hx⟩ := List.mem_flatten.mp hx
      exact Lifetime.logs_induct (I := fun m : Eeprom => m.byte d.enabled = 0) (C := fun _ => True)
        (Q := fun l => ∀ x ∈ l, x.event ≠ .relay d true)
        (fun b m hm _ => ⟨not_powered_of_zero (b.fair m) hm, enabled_eq_zero (b.fair m) (.inl hm)⟩) hzero
        (fun _ _ => trivial) l (List.mem_reverse.mp hl) x hx

/-- `NC` の電流が 4096 ミリアンペアであった投入の後は、異常のない投入でも `NC` の電源は入らない。二回は、初めの投入のものである。 -/
example :
    let overload : Env := { Env.ideal with current _ s := some (0, if s = .device .nc then 1 else 0, 0) }
    let bs : List Life := [⟨overload, [], 0⟩, ⟨Env.ideal, [], 0⟩]
    ((record bs .ready).filter fun x => x.event == .relay .nc true).length = 2 := by
  decide +kernel

end Wagman.V2
