import Wagman.V2.Firmware

/-!
# 検査と起動の作用

検査は装置も記憶も変えない。機器 `d` の起動は、`d` のリレーと `d` の有効の印だけを書き、記憶のうち `d` が動いているかどうかだけを
変える。
-/

namespace Wagman.V2

open Machine

variable {env : Env} {w w' w'' : World}

/-! ## 事象を起こさない操作 -/

section Silent

variable {A : Event → Prop}

theorem still_delay (ms : Nat) : Still A w (delay env ms w) := Still.elapse _ _ w

theorem still_ioRead : Still A w (ioRead env w) := still_delay 0

theorem still_checkEnviron (tempMin tempMax : WordCell) (humidityMin humidityMax : ByteCell) :
    Still A w (checkEnviron env tempMin tempMax humidityMin humidityMax w).2 :=
  still_ioRead.trans still_ioRead

theorem still_checkPower (s : Subject) (milliampMax : WordCell) : Still A w (checkPower env s milliampMax w).2 := by
  unfold checkPower
  split
  · exact still_ioRead
  · exact still_ioRead

theorem still_checkTemp (d : Device) (tempMin tempMax : WordCell) :
    Still A w (checkTemp env d tempMin tempMax w).2 := still_ioRead

theorem still_sampleHeartbeat (d : Device) : Still A w (sampleHeartbeat env d w).2 :=
  (still_ioRead.trans (still_delay 20)).trans still_ioRead

theorem still_twice {check : World → Bool × World} {settle : World → World} (hcheck : ∀ w, Still A w (check w).2)
    (hsettle : ∀ w, Still A w (settle w)) : Still A w (twice check settle w).2 := by
  unfold twice
  simp only
  split
  · exact hcheck w
  · exact (hcheck w).trans ((hsettle _).trans (hcheck _))

end Silent

/-! ## 文字を送るだけの操作 -/

/-- 文字を送る事象。 -/
def Event.Text : Event → Prop
  | .problem _ | .print _ => True
  | _ => False

section Text

theorem text_println (text : String) : Still Event.Text w (println text w) := Still.mark trivial w

theorem text_say (debug : Bool) (text : String) : Still Event.Text w (say debug text w) := by
  unfold say
  split
  · exact text_println text
  · exact Still.refl w

theorem text_sendProblem (text : String) : Still Event.Text w (sendProblem env text w) :=
  (text_println "#").trans <| (still_delay 10).trans <| still_ioRead.trans <|
    (Still.mark trivial _).trans (still_delay 10)

theorem text_admitTempNC (debug : Bool) : Still Event.Text w (admitTempNC env debug w).2 := by
  have hcheck : ∀ w : World, Still Event.Text w (checkTempNC env w).2 := fun _ => still_checkTemp _ _ _
  have hsecond : ∀ w : World, Still Event.Text w (checkTempNC env (delay env 5000 (say debug "BNC4.1" w))).2 :=
    fun w => (text_say debug _).trans ((still_delay 5000).trans (hcheck _))
  unfold admitTempNC
  simp only
  split
  · exact hcheck w
  · split
    · split
      · exact (hcheck w).trans (hsecond _)
      · exact (hcheck w).trans ((hsecond _).trans (text_println _))
    · exact (hcheck w).trans (hsecond _)

theorem text_admitNC (debug : Bool) : Still Event.Text w (admitNC env debug w).2 := by
  have henviron : ∀ w : World, Still Event.Text w (twice (checkEnvironNC env) (delay env 5000) w).2 := fun _ =>
    still_twice (fun _ => still_checkEnviron _ _ _ _) fun _ => still_delay 5000
  have hsay : Still Event.Text w (say debug "BNC3" (say debug "BNC2" w)) :=
    (text_say debug _).trans (text_say debug _)
  unfold admitNC
  simp only
  split
  · exact text_say debug _
  · split
    · exact hsay.trans ((henviron _).trans ((text_say debug _).trans (text_admitTempNC debug)))
    · exact hsay.trans (henviron _)

end Text

/-! ## 装置を変えない事象 -/

/-- 装置を変えず、評価にも対処にも当たらない事象。 -/
def Event.Passive : Event → Prop
  | .heartbeat _ _ | .problem _ | .print _ | .setTime _ => True
  | _ => False

theorem hw_of_passive (h : Trail Event.Passive w w') : w'.hw = w.hw := by
  refine h.hw_induct (P := fun s => s = w.hw) ?_ rfl
  intro e s he hs
  cases e with
  | heartbeat d ok => exact hs
  | problem text => exact hs
  | print text => exact hs
  | setTime t => exact hs
  | _ => exact he.elim

section Passive

theorem Event.Text.passive {e : Event} (h : e.Text) : e.Passive := by
  cases e with
  | problem text => exact trivial
  | print text => exact trivial
  | _ => exact h.elim

theorem passive_println (text : String) : Still Event.Passive w (println text w) :=
  (text_println text).mono fun _ => Event.Text.passive

theorem passive_say (debug : Bool) (text : String) : Still Event.Passive w (say debug text w) :=
  (text_say debug text).mono fun _ => Event.Text.passive

theorem passive_sendProblem (text : String) : Still Event.Passive w (sendProblem env text w) :=
  (text_sendProblem text).mono fun _ => Event.Text.passive

theorem passive_admitNC (debug : Bool) : Still Event.Passive w (admitNC env debug w).2 :=
  (text_admitNC debug).mono fun _ => Event.Text.passive

theorem passive_checkHeartbeatOdroid (d : Device) : Still Event.Passive w (checkHeartbeatOdroid env d w).2 := by
  have hsample : Still Event.Passive w
      (if (sampleHeartbeat env d w).1 then sampleHeartbeat env d w
        else sampleHeartbeat env d (delay env 2 (sampleHeartbeat env d w).2)).2 := by
    split
    · exact still_sampleHeartbeat d
    · exact (still_sampleHeartbeat d).trans ((still_delay 2).trans (still_sampleHeartbeat d))
  exact hsample.trans ((still_delay 2000).trans (Still.mark trivial _))

theorem passive_run (c : Check) : Still Event.Passive w (c.run env w).2 := by
  cases c with
  | environSysMon => exact still_checkEnviron _ _ _ _
  | environNC => exact still_checkEnviron _ _ _ _
  | powerSysMon => exact still_checkPower _ _
  | powerNC => exact still_checkPower _ _
  | powerSwitch => exact still_checkPower _ _
  | powerGN g => exact still_checkPower _ _
  | tempNC => exact still_checkTemp _ _ _
  | tempSwitch => exact still_checkTemp _ _ _
  | tempGN g => exact still_checkTemp _ _ _
  | heartbeatNC => exact passive_checkHeartbeatOdroid _
  | heartbeatGN g => exact passive_checkHeartbeatOdroid _

theorem passive_getTimeNC : Still Event.Passive w (getTimeNC env w) := by
  have hread : Still Event.Passive w (ioRead env (println "*" w)) := (passive_println _).trans still_ioRead
  unfold getTimeNC
  simp only
  split
  · exact hread
  · exact hread.trans (Still.emit _ trivial _)

end Passive

/-! ## 機器の起動 -/

/-- 機器 `d` の有効の印。 -/
def Device.enabled : Device → ByteCell
  | .nc => .ncEnabled
  | .switch => .switchEnabled
  | .gn g => .gnEnabled g

/-- 機器 `d` の起動で起きる事象。 -/
def Event.Boots (d : Device) : Event → Prop
  | .relay q _ => q = d
  | .byte c _ => c = d.enabled
  | e => e.Passive

theorem Event.Passive.boots {e : Event} (h : e.Passive) (d : Device) : e.Boots d := by
  cases e with
  | relay q on => exact h.elim
  | byte c v => exact h.elim
  | _ => exact h

theorem boots_digitalWrite {d : Device} (on : Bool) : Still (Event.Boots d) w (digitalWrite env d on w) := by
  have he : Event.Boots d (.relay d on) := rfl
  exact Still.emit _ he w

theorem boots_updateByte {d : Device} {c : ByteCell} (h : c = d.enabled) (v : UInt8) :
    Still (Event.Boots d) w (updateByte env c v w) := by
  have he : Event.Boots d (.byte c v) := h
  exact Still.emit _ he w

theorem relay_of_passive (h : Still Event.Passive w w') (d : Device) : w'.hw.relay d = w.hw.relay d := by
  rw [hw_of_passive h.trail]

@[simp] theorem relay_digitalWrite (d : Device) (on : Bool) : (digitalWrite env d on w).hw.relay d = on :=
  Function.update_self _ _ _

/-- 電源を入れてからの起動の途中。記憶を変えず、終わりには電源が入ったままである。 -/
structure Powered (d : Device) (w w' : World) : Prop where
  still : Still (Event.Boots d) w w'
  relay : w.hw.relay d = true → w'.hw.relay d = true

namespace Powered

variable {d : Device}

theorem refl (w : World) : Powered d w w := ⟨Still.refl w, id⟩

theorem trans (h₁ : Powered d w w') (h₂ : Powered d w' w'') : Powered d w w'' :=
  ⟨h₁.still.trans h₂.still, fun h => h₂.relay (h₁.relay h)⟩

theorem ofPassive (h : Still Event.Passive w w') : Powered d w w' :=
  ⟨h.mono fun _ he => he.boots d, fun hr => by rwa [relay_of_passive h]⟩

theorem powerCycle : Powered d w (powerCycle env d w) where
  still := (boots_digitalWrite false).trans ((still_delay 2000).trans (boots_digitalWrite true))
  relay _ := relay_digitalWrite d true

theorem confirmPower {check : World → Bool × World} {boot : World → World}
    (hcheck : ∀ w, Still Event.Passive w (check w).2) (hboot : ∀ w, Still Event.Passive w (boot w)) :
    Powered d w (confirmPower env d check boot w).2 := by
  unfold V2.confirmPower twice
  simp only
  split
  · exact ofPassive (hcheck w)
  · exact (ofPassive (hcheck w)).trans (powerCycle.trans (ofPassive ((hboot _).trans (hcheck _))))

theorem retryHeartbeat {boot : World → World} (hboot : ∀ w, Still Event.Passive w (boot w)) (n : Nat)
    (detected : Bool) : Powered d w (retryHeartbeat env d boot n detected w).2 := by
  induction n generalizing detected w with
  | zero => exact refl w
  | succ n ih =>
      have hcheck : Powered d w (checkHeartbeatOdroid env d w).2 := ofPassive (passive_checkHeartbeatOdroid d)
      simp only [V2.retryHeartbeat]
      split
      · exact hcheck.trans (ih true)
      · exact hcheck.trans (powerCycle.trans ((ofPassive (hboot _)).trans (ih detected)))

theorem awaitHeartbeat {boot : World → World} (hboot : ∀ w, Still Event.Passive w (boot w)) :
    Powered d w (awaitHeartbeat env d boot w).2 := by
  unfold V2.awaitHeartbeat
  simp only
  split
  · exact ofPassive (passive_checkHeartbeatOdroid d)
  · exact (ofPassive (passive_checkHeartbeatOdroid d)).trans (retryHeartbeat hboot _ _)

end Powered

/-- 機器 `d` の起動。記憶のうち、`d` が動いているかどうかだけを変える。 -/
structure Boots (d : Device) (w w' : World) : Prop where
  trail : Trail (Event.Boots d) w w'
  ram : ∃ b, w'.ram = { w.ram with running := Function.update w.ram.running d b }

namespace Boots

variable {d : Device}

theorem ofStill (h : Still (Event.Boots d) w w') : Boots d w w' :=
  ⟨h.trail, w.ram.running d, by rw [Function.update_eq_self, h.ram]⟩

theorem ofPassive (h : Still Event.Passive w w') : Boots d w w' := ofStill (h.mono fun _ he => he.boots d)

theorem trans (h₁ : Boots d w w') (h₂ : Boots d w' w'') : Boots d w w'' := by
  obtain ⟨ht₁, b₁, hr₁⟩ := h₁
  obtain ⟨ht₂, b₂, hr₂⟩ := h₂
  exact ⟨ht₁.trans ht₂, b₂, by rw [hr₂, hr₁, Function.update_idem]⟩

theorem setRunning (b : Bool) : Boots d w (setRunning d b w) := ⟨(Trail.refl w).setRam _, b, rfl⟩

theorem restDevice : Boots d w (restDevice env d w) :=
  (setRunning false).trans (ofStill ((boots_digitalWrite false).trans (still_delay 2000)))

end Boots

/-! ## 起動の終わり -/

/-- 機器 `d` の起動の結果。リレーが入っていることも、動いているとされることも、最後まで進んだことに等しい。 -/
structure Finishes (d : Device) (w : World) (r : Bool × World) : Prop where
  boots : Boots d w r.2
  relay : r.2.hw.relay d = r.1
  running : r.2.ram.running d = r.1

/-- 機器 `d` の起動の途中で、まだ動いているとされていない。 -/
structure Pending (d : Device) (w v : World) : Prop where
  boots : Boots d w v
  running : v.ram.running d = false

namespace Pending

variable {d : Device} {v v' : World}

theorem still (h : Pending d w v) (hs : Still (Event.Boots d) v v') : Pending d w v' :=
  ⟨h.boots.trans (Boots.ofStill hs), by rw [hs.ram]; exact h.running⟩

theorem passive (h : Pending d w v) (hs : Still Event.Passive v v') : Pending d w v' :=
  h.still (hs.mono fun _ he => he.boots d)

theorem off (h : Pending d w v) (hr : v.hw.relay d = false) : Finishes d w (false, v) :=
  ⟨h.boots, hr, h.running⟩

theorem refuse (hcheck : Still Event.Passive v v') (text : String) (hr : v.hw.relay d = false)
    (h : Pending d w v) : Finishes d w (false, sendProblem env text v') := by
  have hproblem : Still Event.Passive v (sendProblem env text v') := hcheck.trans (passive_sendProblem text)
  refine (h.passive hproblem).off ?_
  rw [relay_of_passive hproblem, hr]

theorem on (h : Pending d w v) (hr : v.hw.relay d = true) : Finishes d w (true, setRunning d true v) :=
  ⟨h.boots.trans (Boots.setRunning true), hr, Function.update_self _ _ _⟩

theorem restDevice (env : Env) (d : Device) (w : World) : Pending d (restDevice env d w) (restDevice env d w) :=
  ⟨Boots.ofStill (Still.refl _), Function.update_self _ _ _⟩

theorem lit {wait : World → World} (hwait : ∀ w, Still Event.Passive w (wait w)) (h : Pending d w v) :
    Pending d w (wait (digitalWrite env d true v)) ∧ (wait (digitalWrite env d true v)).hw.relay d = true :=
  ⟨(h.still (boots_digitalWrite true)).passive (hwait _), by rw [relay_of_passive (hwait _), relay_digitalWrite]⟩

theorem giveUp (text : String) (h : Pending d w v) : Pending d w (sendProblem env text (digitalWrite env d false v)) ∧
    (sendProblem env text (digitalWrite env d false v)).hw.relay d = false :=
  ⟨(h.still (boots_digitalWrite false)).passive (passive_sendProblem text),
    by rw [relay_of_passive (passive_sendProblem text), relay_digitalWrite]⟩

end Pending

theorem relay_restDevice (env : Env) (d : Device) (w : World) : (restDevice env d w).hw.relay d = false :=
  Function.update_self _ _ _

theorem finishes_bootSwitch : Finishes .switch (restDevice env .switch w) (bootSwitch env w) := by
  have hrest := Pending.restDevice env .switch w
  have hrelay := relay_restDevice env .switch w
  have hwait : ∀ v : World, Still Event.Passive v (waitSwitch env v) := fun _ => still_delay _
  have htemp : ∀ v : World, Still Event.Passive v (twice (checkTempSwitch env) (delay env 5000) v).2 := fun _ =>
    still_twice (fun _ => still_checkTemp _ _ _) fun _ => still_delay 5000
  have hpower : ∀ v : World,
      Powered .switch v (confirmPower env .switch (checkPowerSwitch env) (waitSwitch env) v).2 := fun _ =>
    Powered.confirmPower (fun _ => still_checkPower _ _) hwait
  simp only [bootSwitch]
  split
  · exact hrest.off hrelay
  · have hallowed := hrest.passive (htemp _)
    obtain ⟨hup, hlit⟩ := hallowed.lit hwait
    have hconfirm := hup.still (hpower _).still
    split
    · exact hrest.refuse (htemp _) _ hrelay
    · split
      · obtain ⟨hdown, hoff⟩ := hconfirm.giveUp _
        exact (hdown.still (boots_updateByte rfl 0)).off hoff
      · exact hconfirm.on ((hpower _).relay hlit)

theorem finishes_bootGN (g : GN) : Finishes (.gn g) (restDevice env (.gn g) w) (bootGN env g w) := by
  have hrest := Pending.restDevice env (.gn g) w
  have hrelay := relay_restDevice env (.gn g) w
  have hwait : ∀ v : World, Still Event.Passive v (waitGN env g v) := fun _ => still_delay _
  have htemp : ∀ v : World, Still Event.Passive v (twice (checkTempGN env g) (delay env 5000) v).2 := fun _ =>
    still_twice (fun _ => still_checkTemp _ _ _) fun _ => still_delay 5000
  have hpower : ∀ v : World,
      Powered (.gn g) v (confirmPower env (.gn g) (checkPowerGN env g) (waitGN env g) v).2 := fun _ =>
    Powered.confirmPower (fun _ => still_checkPower _ _) hwait
  have hheart : ∀ v : World, Powered (.gn g) v (awaitHeartbeat env (.gn g) (waitGN env g) v).2 := fun _ =>
    Powered.awaitHeartbeat hwait
  simp only [bootGN]
  split
  · exact hrest.off hrelay
  · have hallowed := hrest.passive (htemp _)
    obtain ⟨hup, hlit⟩ := hallowed.lit hwait
    have hconfirm := hup.still (hpower _).still
    have halive := hconfirm.still (hheart _).still
    split
    · exact hrest.refuse (htemp _) _ hrelay
    · split
      · obtain ⟨hdown, hoff⟩ := hconfirm.giveUp _
        exact (hdown.still (boots_updateByte rfl 0)).off hoff
      · split
        · obtain ⟨hdown, hoff⟩ := halive.giveUp _
          exact hdown.off hoff
        · exact halive.on ((hheart _).relay ((hpower _).relay hlit))

theorem bootNC_of_refused {debug : Bool} (h : (admitNC env debug w).1 = false) :
    bootNC env debug .powerOnBoot w = admitNC env debug w := by
  simp [bootNC, h]

/-- 検査に通れば、`boot_NC` は電源を切らずに入れる。 -/
theorem bootNC_of_admitted {debug : Bool} (h : (admitNC env debug w).1 = true) :
    Boots .nc (digitalWrite env .nc true (say debug "BNC5" (admitNC env debug w).2))
      (bootNC env debug .powerOnBoot w).2 := by
  have hwait : ∀ v : World, Still Event.Passive v (waitNC env v) := fun _ => still_delay _
  have hpower : ∀ v : World, Boots .nc v
      (confirmPower env .nc (checkPowerNC env) (waitNC env) (say debug "BNC7" v)).2 := fun _ =>
    (Boots.ofPassive (passive_say debug _)).trans
      (Boots.ofStill (Powered.confirmPower (fun _ => still_checkPower _ _) hwait).still)
  have hheart : ∀ v : World, Boots .nc v (awaitHeartbeat env .nc (waitNC env) (say debug "BNC8" v)).2 := fun _ =>
    (Boots.ofPassive (passive_say debug _)).trans (Boots.ofStill (Powered.awaitHeartbeat hwait).still)
  have hoff : ∀ v : World, Boots .nc v (digitalWrite env .nc false v) := fun _ =>
    Boots.ofStill (boots_digitalWrite false)
  have hconfig : Boots .nc (digitalWrite env .nc true (say debug "BNC5" (admitNC env debug w).2))
      (configureNC env debug (admitNC env debug w).2).2 :=
    Boots.ofPassive (still_ioRead.trans (passive_say debug _))
  simp only [bootNC, reduceCtorEq, if_false, h, Bool.true_eq_false]
  split
  · exact hconfig
  · split
    · exact hconfig.trans ((hpower _).trans ((hoff _).trans (Boots.ofStill (boots_updateByte rfl 0))))
    · split
      · exact hconfig.trans ((hpower _).trans ((hheart _).trans (hoff _)))
      · exact hconfig.trans ((hpower _).trans ((hheart _).trans
          ((Boots.ofPassive (passive_say debug _)).trans (Boots.setRunning true))))

theorem boots_bootNC (debug : Bool) : Boots .nc w (bootNC env debug .powerOnBoot w).2 := by
  have hallowed : Still Event.Passive w (admitNC env debug w).2 := passive_admitNC debug
  cases h : (admitNC env debug w).1 with
  | false =>
      rw [bootNC_of_refused h]
      exact Boots.ofPassive hallowed
  | true =>
      exact (Boots.ofPassive (hallowed.trans (passive_say debug "BNC5"))).trans
        ((Boots.ofStill (boots_digitalWrite true)).trans (bootNC_of_admitted h))

theorem boots_boot (d : Device) : Boots d w (boot env d w).2 := by
  cases d with
  | nc => exact (Boots.ofPassive (passive_say _ _)).trans (boots_bootNC _)
  | switch => exact Boots.restDevice.trans finishes_bootSwitch.boots
  | gn g => exact Boots.restDevice.trans (finishes_bootGN g).boots

end Wagman.V2
