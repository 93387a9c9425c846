import Wagman.V2.Theorems.Boot

/-!
# デバッグの出力と `boot_NC`

`SERIAL_DEBUG_ON` のときの `boot_NC` を、そうでないときの `boot_NC` と並べて実行する。出力した文字のほかは同じであり続けるが、処理装置の
温度の二度目の検査だけは別である。そこでは波括弧のない `if` の本体が出力になり、検査の結果に関わらず失敗する。
-/

namespace Wagman.V2

open Machine

variable {env : Env} {v v' w w' : World}

/-! ## 出力のほかに起きること -/

/-- リレーのピンか EEPROM に書く。 -/
def Event.isWrite : Event → Bool
  | .relay _ _ | .byte _ _ | .word _ _ | .usartBaud _ => true
  | _ => false

/-- リレーと EEPROM への書き込みの並び。新しいものが先頭である。 -/
def writes (w : World) : List Event := (w.log.map Entry.event).filter Event.isWrite

/-- 出力した文字のほかは等しい。 -/
structure Unheard (w w' : World) : Prop extends Alike w w' where
  ram : w'.ram = w.ram
  writes : writes w' = writes w

/-- 戻り値が等しく、終わりの状態は出力した文字のほかは等しい。 -/
def Same (r r' : Bool × World) : Prop := r'.1 = r.1 ∧ Unheard r.2 r'.2

theorem writes_of_passive (h : Still Event.Passive w w') : writes w' = writes w := by
  refine h.trail.log_eq (f := fun l => (l.map Entry.event).filter Event.isWrite) fun x l hx => ?_
  rw [List.map_cons, List.filter_cons_of_neg]
  cases he : x.event with
  | heartbeat d ok => simp [Event.isWrite]
  | problem text => simp [Event.isWrite]
  | print text => simp [Event.isWrite]
  | setTime t => simp [Event.isWrite]
  | _ =>
      rw [he] at hx
      exact hx.elim

namespace Unheard

theorem refl (w : World) : Unheard w w := ⟨⟨rfl, rfl⟩, rfl, rfl⟩

/-- 装置も記憶も変えない操作は、終わりの入出力の回数が等しければよい。 -/
theorem passive (h : Unheard w w') (hv : Still Event.Passive w v) (hv' : Still Event.Passive w' v')
    (ha : Alike v v') : Unheard v v' :=
  ⟨ha, by rw [hv'.ram, hv.ram, h.ram], by rw [writes_of_passive hv', writes_of_passive hv, h.writes]⟩

theorem delay (ms : Nat) (h : Unheard w w') : Unheard (delay env ms w) (delay env ms w') :=
  h.passive (still_delay ms) (still_delay ms) (h.toAlike.delay ms)

theorem ioRead (h : Unheard w w') : Unheard (ioRead env w) (ioRead env w') := h.delay 0

theorem say (debug debug' : Bool) (text : String) (h : Unheard w w') :
    Unheard (say debug text w) (say debug' text w') := by
  refine h.passive (passive_say debug text) (passive_say debug' text) ?_
  unfold V2.say
  split
  · split
    · exact ⟨h.hw, h.io⟩
    · exact ⟨h.hw, h.io⟩
  · split
    · exact ⟨h.hw, h.io⟩
    · exact ⟨h.hw, h.io⟩

theorem println (text : String) (h : Unheard w w') : Unheard (println text w) (println text w') :=
  h.passive (passive_println text) (passive_println text) ⟨h.hw, h.io⟩

theorem emit {e : Event} (he : e.isWrite = true) (h : Unheard w w') :
    Unheard (w.emit env.latency e) (w'.emit env.latency e) where
  hw := congrArg (Effect.apply e) h.hw
  io := congrArg (· + 1) h.io
  ram := h.ram
  writes := by
    simp only [V2.writes, Machine.emit, List.map_cons, List.filter_cons, he, if_true]
    exact congrArg _ h.writes

theorem setRunning (d : Device) (b : Bool) (h : Unheard w w') : Unheard (setRunning d b w) (setRunning d b w') :=
  ⟨⟨h.hw, h.io⟩, by simp only [V2.setRunning, setRam_ram, h.ram], h.writes⟩

theorem check {check : World → Bool × World} (hd : Determined check)
    (hp : ∀ w, Still Event.Passive w (check w).2) (h : Unheard w w') : Same (check w) (check w') :=
  ⟨(hd w w' h.toAlike).1, h.passive (hp w) (hp w') (hd w w' h.toAlike).2⟩

theorem powerCycle (d : Device) (h : Unheard w w') : Unheard (powerCycle env d w) (powerCycle env d w') :=
  ((h.emit rfl).delay 2000).emit rfl

end Unheard

/-! ## 検査と心拍 -/

theorem determined_checkPower (s : Subject) (c : WordCell) : Determined (checkPower env s c) := by
  intro w w' h
  unfold checkPower
  rw [h.io]
  split
  · exact ⟨by simp only [readWord, h.hw]; rfl, h.ioRead⟩
  · exact ⟨rfl, h.ioRead⟩

theorem determined_sampleHeartbeat (d : Device) : Determined (sampleHeartbeat env d) := by
  intro w w' h
  have hread : Alike (delay env 20 (ioRead env w)) (delay env 20 (ioRead env w')) := h.ioRead.delay 20
  refine ⟨?_, hread.ioRead⟩
  simp only [sampleHeartbeat, h.io, hread.io]

theorem checkHeartbeatOdroid_eq (d : Device) (w : World) :
    checkHeartbeatOdroid env d w = ((twice (sampleHeartbeat env d) (delay env 2) w).1,
      (delay env 2000 (twice (sampleHeartbeat env d) (delay env 2) w).2).mark
        (.heartbeat d (twice (sampleHeartbeat env d) (delay env 2) w).1)) := rfl

theorem determined_checkHeartbeatOdroid (d : Device) : Determined (checkHeartbeatOdroid env d) := by
  intro w w' h
  have htwice : Determined (twice (sampleHeartbeat env d) (delay env 2)) := (determined_sampleHeartbeat d).twice
  obtain ⟨hok, ha⟩ := htwice w w' h
  rw [checkHeartbeatOdroid_eq, checkHeartbeatOdroid_eq, hok]
  have hwait : Alike (delay env 2000 (twice (sampleHeartbeat env d) (delay env 2) w).2)
      (delay env 2000 (twice (sampleHeartbeat env d) (delay env 2) w').2) := ha.delay 2000
  exact ⟨rfl, hwait.hw, hwait.io⟩

/-- 並べて実行しても、戻り値が等しく、出力した文字のほかは等しい。 -/
def Respects (f : World → Bool × World) : Prop := ∀ w w', Unheard w w' → Same (f w) (f w')

theorem respects_checkPowerNC (env : Env) : Respects (checkPowerNC env) := fun _ _ h =>
  h.check (determined_checkPower _ _) fun _ => still_checkPower _ _

theorem respects_checkEnvironNC (env : Env) : Respects (checkEnvironNC env) := fun _ _ h =>
  h.check determined_checkEnvironNC fun _ => still_checkEnviron _ _ _ _

theorem respects_checkTempNC (env : Env) : Respects (checkTempNC env) := fun _ _ h =>
  h.check determined_checkTempNC fun _ => still_checkTemp _ _ _

theorem respects_checkHeartbeatOdroid (env : Env) (d : Device) : Respects (checkHeartbeatOdroid env d) := fun _ _ h =>
  h.check (determined_checkHeartbeatOdroid d) fun _ => passive_checkHeartbeatOdroid d

theorem Respects.twice {check : World → Bool × World} {settle : World → World} (hc : Respects check)
    (hs : ∀ w w', Unheard w w' → Unheard (settle w) (settle w')) : Respects (twice check settle) := by
  intro w w' h
  obtain ⟨hok, hu⟩ := hc w w' h
  simp only [V2.twice, hok]
  split
  · exact ⟨hok, hu⟩
  · exact hc _ _ (hs _ _ hu)

theorem Unheard.waitNC (h : Unheard w w') : Unheard (waitNC env w) (waitNC env w') := by
  unfold V2.waitNC
  rw [readWord, readWord, h.hw]
  exact h.delay _

theorem respects_retryHeartbeat (n : Nat) (detected : Bool) :
    Respects (retryHeartbeat env .nc (waitNC env) n detected) := by
  induction n generalizing detected with
  | zero => exact fun w w' h => ⟨rfl, h⟩
  | succ n ih =>
      intro w w' h
      obtain ⟨hok, hu⟩ := respects_checkHeartbeatOdroid env .nc w w' h
      simp only [retryHeartbeat, hok]
      split
      · exact ih true _ _ hu
      · exact ih detected _ _ (hu.powerCycle .nc).waitNC

theorem respects_awaitHeartbeat : Respects (awaitHeartbeat env .nc (waitNC env)) := by
  intro w w' h
  obtain ⟨hok, hu⟩ := respects_checkHeartbeatOdroid env .nc w w' h
  simp only [awaitHeartbeat, hok, readByte, hu.hw]
  split
  · exact ⟨hok, hu⟩
  · exact respects_retryHeartbeat _ _ _ _ hu

/-! ## 電源を入れる前の検査 -/

theorem respects_environ (env : Env) : Respects (twice (checkEnvironNC env) (delay env 5000)) :=
  (respects_checkEnvironNC env).twice fun _ _ h => h.delay 5000

/-- 処理装置の温度が、一度目の検査では範囲を外れ、二度目には範囲に入る。 -/
def Cools (env : Env) (w : World) : Prop :=
  (checkTempNC env w).1 = false ∧ (checkTempNC env (delay env 5000 (checkTempNC env w).2)).1 = true

/-- 電源を入れる前の検査のうち、処理装置の温度だけが、一度目に範囲を外れて二度目に範囲に入る。 -/
def SecondChance (env : Env) (w : World) : Prop :=
  readByte .ncEnabled w ≠ 0 ∧ (twice (checkEnvironNC env) (delay env 5000) w).1 = true ∧
    Cools env (twice (checkEnvironNC env) (delay env 5000) w).2

instance : Decidable (Cools env w) := inferInstanceAs (Decidable (_ ∧ _))

instance : Decidable (SecondChance env w) := inferInstanceAs (Decidable (_ ∧ _ ∧ _))

theorem cools_congr (h : Unheard w w') : Cools env w' ↔ Cools env w := by
  obtain ⟨hok, hu⟩ := respects_checkTempNC env w w' h
  obtain ⟨hok', -⟩ := respects_checkTempNC env (delay env 5000 (checkTempNC env w).2)
    (delay env 5000 (checkTempNC env w').2) (hu.delay 5000)
  rw [Cools, Cools, hok, hok']

theorem secondChance_congr (h : Unheard w w') : SecondChance env w' ↔ SecondChance env w := by
  obtain ⟨hok, hu⟩ := respects_environ env w w' h
  rw [SecondChance, SecondChance, readByte, readByte, h.hw, hok, cools_congr hu]

/-- 温度の検査が二度とも失敗するか、一度で成功すれば、`SERIAL_DEBUG_ON` に依らない。 -/
theorem same_admitTempNC (h : Unheard w w') (hc : ¬Cools env w) :
    Same (admitTempNC env true w) (admitTempNC env false w') := by
  obtain ⟨hok, hu⟩ := respects_checkTempNC env w w' h
  simp only [admitTempNC, hok]
  split
  · exact ⟨hok, hu⟩
  · rename_i hfirst
    have hsay : Unheard (delay env 5000 (checkTempNC env w).2)
        (delay env 5000 (say true "BNC4.1" (checkTempNC env w).2)) := ((Unheard.refl _).say false true _).delay 5000
    have hagain : Unheard (delay env 5000 (say true "BNC4.1" (checkTempNC env w).2))
        (delay env 5000 (say false "BNC4.1" (checkTempNC env w').2)) := (hu.say true false _).delay 5000
    have hfail : (checkTempNC env (delay env 5000 (say true "BNC4.1" (checkTempNC env w).2))).1 = false := by
      rw [(respects_checkTempNC env _ _ hsay).1, ← Bool.not_eq_true]
      exact fun hsecond => hc ⟨Bool.eq_false_of_not_eq_true hfirst, hsecond⟩
    obtain ⟨hok', hu'⟩ := respects_checkTempNC env _ _ hagain
    rw [hfail] at hok'
    simp only [hfail, Bool.false_eq_true, if_false, if_true]
    exact ⟨hok', hu'.passive (passive_println _) (Still.refl _) ⟨hu'.hw, hu'.io⟩⟩

/-- 二度目に成功すれば、`SERIAL_DEBUG_ON` のときだけ失敗とされる。 -/
theorem admitTempNC_of_cools (debug : Bool) (hc : Cools env w) : (admitTempNC env debug w).1 = !debug := by
  have hsay : Unheard (delay env 5000 (checkTempNC env w).2)
      (delay env 5000 (say debug "BNC4.1" (checkTempNC env w).2)) := ((Unheard.refl _).say false debug _).delay 5000
  have hsecond : (checkTempNC env (delay env 5000 (say debug "BNC4.1" (checkTempNC env w).2))).1 = true := by
    rw [(respects_checkTempNC env _ _ hsay).1, hc.2]
  cases debug with
  | true => simp [admitTempNC, hc.1]
  | false => simp [admitTempNC, hc.1, hsecond]

theorem admitNC_of_secondChance (debug : Bool) (hs : SecondChance env w) : (admitNC env debug w).1 = !debug := by
  obtain ⟨henabled, henviron, hc⟩ := hs
  have hsay : Unheard w (say debug "BNC3" (say debug "BNC2" w)) :=
    ((Unheard.refl w).say false debug "BNC2").say false debug "BNC3"
  obtain ⟨hok, hself⟩ := respects_environ env _ _ hsay
  have hbyte : readByte .ncEnabled (say debug "BNC2" w) ≠ 0 := by
    rwa [readByte, ((Unheard.refl w).say false debug "BNC2").hw]
  simp only [admitNC, hbyte, if_false, hok, henviron, if_true]
  exact admitTempNC_of_cools debug ((cools_congr (hself.say false debug "BNC4")).mpr hc)

theorem same_admitNC (h : Unheard w w') (hs : ¬SecondChance env w) :
    Same (admitNC env true w) (admitNC env false w') := by
  have hstart : Unheard (say true "BNC2" w) (say false "BNC2" w') := h.say true false _
  have hbyte : readByte .ncEnabled (say false "BNC2" w') = readByte .ncEnabled (say true "BNC2" w) := by
    rw [readByte, readByte, hstart.hw]
  have hsay : Unheard w (say true "BNC3" (say true "BNC2" w)) :=
    ((Unheard.refl w).say false true "BNC2").say false true "BNC3"
  obtain ⟨hsame, hself⟩ := respects_environ env _ _ hsay
  obtain ⟨hok, hu⟩ := respects_environ env _ _ (hstart.say true false "BNC3")
  simp only [admitNC, hbyte, hok]
  split
  · exact ⟨rfl, hstart⟩
  · rename_i henabled
    split
    · rename_i henviron
      refine same_admitTempNC (hu.say true false "BNC4") fun hc => hs ⟨henabled, hsame.symm.trans henviron, ?_⟩
      rwa [cools_congr (hself.say false true "BNC4")] at hc
    · exact ⟨rfl, hu⟩

/-! ## `boot_NC` -/

theorem same_configureNC (h : Unheard w w') : Same (configureNC env true w) (configureNC env false w') := by
  have hon : Unheard (digitalWrite env .nc true (say true "BNC5" w))
      (digitalWrite env .nc true (say false "BNC5" w')) := (h.say true false _).emit rfl
  refine ⟨?_, (hon.ioRead.say true false _)⟩
  simp only [configureNC, hon.io]

theorem same_bootNC (h : Unheard w w') (hs : ¬SecondChance env w) :
    Same (bootNC env true .powerOnBoot w) (bootNC env false .powerOnBoot w') := by
  obtain ⟨hallowed, h₁⟩ := same_admitNC h hs
  obtain ⟨hconfig, h₂⟩ : Same (configureNC env true _) (configureNC env false _) := same_configureNC h₁
  have hpower : Respects (confirmPower env .nc (checkPowerNC env) (waitNC env)) :=
    (respects_checkPowerNC env).twice fun _ _ h => (h.powerCycle .nc).waitNC
  obtain ⟨hconfirm, h₃⟩ := hpower _ _ (h₂.say true false "BNC7")
  obtain ⟨hawait, h₄⟩ : Same (awaitHeartbeat env .nc (waitNC env) _) (awaitHeartbeat env .nc (waitNC env) _) :=
    respects_awaitHeartbeat _ _ (h₃.say true false "BNC8")
  simp only [bootNC, reduceCtorEq, if_false, hallowed, hconfig, hconfirm, hawait]
  split
  · exact ⟨hallowed, h₁⟩
  · split
    · exact ⟨hconfig, h₂⟩
    · split
      · exact ⟨rfl, (h₃.emit rfl).emit rfl⟩
      · split
        · exact ⟨rfl, h₄.emit rfl⟩
        · exact ⟨rfl, (h₄.say true false _).setRunning .nc true⟩

/-- 二つの `boot_NC` の戻り値、書き込みの並び、`_NC_running` が等しい。 -/
structure SameBehaviour (r r' : Bool × World) : Prop where
  value : r.1 = r'.1
  writes : writes r.2 = writes r'.2
  running : r.2.ram.running .nc = r'.2.ram.running .nc

theorem writes_le (h : w.log <:+ w'.log) : (writes w).length ≤ (writes w').length := by
  obtain ⟨new, hnew⟩ := h
  rw [writes, writes, ← hnew, List.map_append, List.filter_append, List.length_append]
  omega

/-- 二度目の検査に成功すると、一方は電源を入れず、他方は入れる。 -/
theorem writes_bootNC_lt (h : Unheard w w') (hs : SecondChance env w) :
    (writes (bootNC env true .powerOnBoot w).2).length < (writes (bootNC env false .powerOnBoot w').2).length := by
  have hrefused : (admitNC env true w).1 = false := admitNC_of_secondChance true hs
  have hadmitted : (admitNC env false w').1 = true := admitNC_of_secondChance false ((secondChance_congr h).mpr hs)
  have hsay : Still Event.Passive w' (say false "BNC5" (admitNC env false w').2) :=
    (passive_admitNC false).trans (passive_say false _)
  have hlast := writes_le (bootNC_of_admitted hadmitted).trail.suffix
  have hon : (writes (digitalWrite env .nc true (say false "BNC5" (admitNC env false w').2))).length =
      (writes w').length + 1 := by
    rw [← writes_of_passive hsay]
    rfl
  rw [bootNC_of_refused hrefused, writes_of_passive (passive_admitNC true), ← h.writes]
  omega

theorem sameBehaviour_iff (h : Unheard w w') :
    SameBehaviour (bootNC env true .powerOnBoot w) (bootNC env false .powerOnBoot w') ↔ ¬SecondChance env w := by
  constructor
  · intro hsame hs
    have hlt := writes_bootNC_lt h hs
    rw [hsame.writes] at hlt
    exact absurd hlt (Nat.lt_irrefl _)
  · intro hs
    obtain ⟨hvalue, hu⟩ := same_bootNC h hs
    exact ⟨hvalue.symm, hu.writes.symm, by rw [hu.ram]⟩

theorem unheard_shutDownNC (w : World) : Unheard (shutDownNC env true w) (shutDownNC env false w) :=
  ((((((Unheard.refl w).say true false _).println _).delay 5000).emit rfl).delay 2000).setRunning .nc false

/-- 電源を入れる前の検査を始める状態。 -/
def beforeChecks (env : Env) (whichType : BootType) (w : World) : World :=
  if whichType = .reBoot then shutDownNC env true w else w

/-- `SERIAL_DEBUG_ON` の有無で `boot_NC` の動作が変わらないのは、処理装置の温度の二度目の検査だけが成功するときを除いてである。引数の
ない `boot_NC` も同じである。 -/
theorem debug_harmless_iff (env : Env) (w : World) :
    (∀ whichType, SameBehaviour (bootNC env true whichType w) (bootNC env false whichType w) ↔
      ¬SecondChance env (beforeChecks env whichType w)) ∧
    (SameBehaviour (bootNC env true .powerOnBoot (say true "BNC0" w))
      (bootNC env false .powerOnBoot (say false "BNC0" w)) ↔ ¬SecondChance env w) := by
  constructor
  · intro whichType
    cases whichType with
    | powerOnBoot => exact sameBehaviour_iff (Unheard.refl w)
    | reBoot => exact sameBehaviour_iff (unheard_shutDownNC w)
  · have hsay : Unheard w (say true "BNC0" w) := (Unheard.refl w).say false true _
    exact (sameBehaviour_iff ((Unheard.refl w).say true false _)).trans (not_congr (secondChance_congr hsay))

/-- 一度目の温度だけが範囲を外れる環境。 -/
def Env.warm : Env := { Env.ideal with thermistor := fun n _ => if n = 2 then 0 else 500 }

/-- `SERIAL_DEBUG_ON` のときは失敗し、そうでないときは成功する。 -/
theorem debug_changes_boot :
    (bootNC Env.warm true .powerOnBoot (powerOn Eeprom.ready)).1 = false ∧
    (bootNC Env.warm false .powerOnBoot (powerOn Eeprom.ready)).1 = true ∧
    ¬SameBehaviour (bootNC Env.warm true .powerOnBoot (powerOn Eeprom.ready))
      (bootNC Env.warm false .powerOnBoot (powerOn Eeprom.ready)) := by
  have hon : (bootNC Env.warm true .powerOnBoot (powerOn Eeprom.ready)).1 = false := by decide +kernel
  have hoff : (bootNC Env.warm false .powerOnBoot (powerOn Eeprom.ready)).1 = true := by decide +kernel
  refine ⟨hon, hoff, fun h => ?_⟩
  have hvalue := h.value
  rw [hon, hoff] at hvalue
  cases hvalue

end Wagman.V2
