import Wagman.V4.Safemode
import Wagman.V4.Lemmas.Setup

/-!
# `safemode` の一歩

`safemode` の一歩が基板に及ぼす変化を、リレーを切るまでの変化 `Calm` と、電源を入れる操作、心拍、起動の要求、心拍の数え上げに分ける。
文字の命令の関数を開くのは、この補題だけである。
-/

namespace Wagman.V4.Safemode

open Machine

/-- リレーに関わらず、心拍でもない事象。 -/
def Loose : Event → Prop
  | .heartbeat _ => False
  | e => ∀ p, ¬ e.MovesRelay p

/-- リレーを切るほかにはリレーに関わらず、心拍もなく、起動の要求と心拍の数を変えない。 -/
inductive Calm (env : V4.Env) : Board → Board → Prop
  | loose {w w' : Board} : Trail Loose w w' → w'.ram.deviceWantsStart = w.ram.deviceWantsStart →
      w'.ram.heartbeatCounters = w.ram.heartbeatCounters → Calm env w w'
  | down {w : Board} (i : Port) : Calm env w (Device.powerDown env i w)
  | trans {w w' w'' : Board} : Calm env w w' → Calm env w' w'' → Calm env w w''

variable {env : V4.Env} {w w' : Board} {i : Port}

/-! ## 事象 -/

theorem Loose.not_movesRelay {e : Event} (h : Loose e) (p : Port) : ¬ e.MovesRelay p := by
  cases e with
  | heartbeat q => exact h.elim
  | _ => exact h p

theorem Loose.ne_heartbeat {e : Event} (h : Loose e) (p : Port) : e ≠ .heartbeat p := by
  rintro rfl
  exact h

theorem Loose.ne_relay {e : Event} (h : Loose e) (p : Port) (mode : Bool) : e ≠ .relay p mode := by
  rintro rfl
  exact h p rfl

theorem loose_pin {k : Nat} {b : Bool} (h : ∀ p, k ≠ relayClk p) : Loose (.pin k b) := h

theorem loose_selector (s : Fin 2) (b : Bool) : Loose (.pin (bootSelectorPin s) b) :=
  loose_pin (bootSelectorPin_ne_relayClk s)

theorem loose_led {k : Nat} (h : k ∈ ledPins) (b : Bool) : Loose (.pin k b) := loose_pin (led_ne_relayClk h)

theorem loose_state (p : Port) (s : State) : Loose (.state p s) := fun _ => id

theorem loose_header {a : Nat} (h : a < 256) (v : UInt8) : Loose (.eeprom a v) := by
  intro p ha
  have hle := le_deviceRegion p
  simp only [Event.MovesRelay, Record.portRelayJournal] at ha
  omega

/-- ポートの領域のうち、リレーの状態のほかの番地。 -/
theorem loose_region {p : Port} {o : Nat} (ho : o < 128) (hj : o ≠ Record.portRelayJournal) (v : UInt8) :
    Loose (.eeprom (Record.deviceRegion p + o) v) :=
  fun _ ha => hj (deviceRegion_add_inj ho (by simp) ha).2

/-! ## 機器の操作 -/

namespace Calm

theorem of_still (h : Still Loose w w') : Calm env w w' := .loose h.trail (by rw [h.ram]) (by rw [h.ram])

theorem refl (w : Board) : Calm env w w := of_still (Still.refl w)

theorem setRam {r : Ram} (hw : r.deviceWantsStart = w.ram.deviceWantsStart)
    (hc : r.heartbeatCounters = w.ram.heartbeatCounters) : Calm env w (w.setRam r) :=
  .loose ((Trail.refl w).setRam r) hw hc

theorem setDev (i : Port) (d : V4.Device) : Calm env w (setDev i d w) := setRam rfl rfl

theorem ioRead : Calm env w (V4.ioRead env w) := of_still still_ioRead

theorem changeState (s : State) : Calm env w (Device.changeState i s w) :=
  .loose (trail_changeState (loose_state i s)) rfl rfl

theorem setDeviceEnabled (b : Bool) : Calm env w (Record.setDeviceEnabled env i b w) :=
  of_still (still_write (loose_region (by simp) (by simp) _))

theorem incrementBootFailures : Calm env w (Record.incrementBootFailures env i w) := by
  refine of_still (still_put (fun b v h₁ h₂ => ?_) _)
  obtain ⟨o, rfl⟩ := Nat.exists_eq_add_of_le (Nat.le_trans (Nat.le_add_right _ _) h₁)
  simp only [Record.portBootFailures] at h₁ h₂
  exact loose_region (by omega) (by simp only [Record.portRelayJournal]; omega) v

theorem setNextBootMedia (m : Media) : Calm env w (Device.setNextBootMedia env i m w) := by
  have hmedia : Loose (.media i m) := fun _ => id
  refine .loose (trail_setNextBootMedia hmedia loose_selector) ?_ ?_
  · simp only [Device.setNextBootMedia, setBootMedia_ram]
    rfl
  · simp only [Device.setNextBootMedia, setBootMedia_ram]
    rfl

theorem kill : Calm env w (Device.kill env i w).2 := by
  unfold Device.kill
  split
  · exact refl w
  · exact .down i

theorem stop : Calm env w (Device.stop env i w).2 := by
  unfold Device.stop
  split
  · exact kill
  · exact refl w
  · exact changeState .stopping

theorem setStopTimeout (t : UInt32) : Calm env w (Device.setStopTimeout i t w) := setDev i _

theorem enable : Calm env w (Device.enable env i w) := (setDeviceEnabled true).trans (changeState .stopped)

theorem disable : Calm env w (Device.disable env i w) := by
  by_cases hi : i = 0
  · simp only [Device.disable, hi, ne_eq, not_true_eq_false, if_false]
    exact kill
  · simp only [Device.disable, hi, ne_eq, not_false_eq_true, if_true]
    exact ((setDeviceEnabled false).trans kill).trans (changeState .disabled)

/-- 心拍を記した後は、状態を変えるか、止める操作だけが続く。 -/
theorem after_beat : Calm env (Device.beat i w) (Device.onHeartbeat env i w) := by
  simp only [Device.onHeartbeat]
  split
  · exact disable
  · exact changeState .started
  · exact refl _

theorem updateFault : Calm env w (Device.updateFault env i w) := by
  simp only [Device.updateFault]
  split
  · exact ioRead
  · split
    · exact ioRead.trans (setDev i _)
    · exact ioRead

theorem checkHeartbeat : Calm env w (Safemode.Device.checkHeartbeat env i w) := by
  unfold Device.checkHeartbeat
  split
  · exact incrementBootFailures.trans stop
  · exact refl w

theorem updateStarted : Calm env w (Safemode.Device.updateStarted env i w) := by
  unfold Device.updateStarted
  split
  · simp only [Device.updateStartedManaged, V4.Device.checkCurrent]
    split
    · exact checkHeartbeat.trans (setDev i _)
    · exact checkHeartbeat
  · simp only [V4.Device.updateStartedUnmanaged]
    split
    · exact (ioRead.trans (setNextBootMedia _)).trans stop
    · exact refl w

theorem updateStopping : Calm env w (V4.Device.updateStopping env i w) := by
  have hmsg : Calm env w (V4.Device.sendStopMessage i w) := by
    unfold V4.Device.sendStopMessage
    split
    · exact setDev i _
    · exact refl w
  simp only [V4.Device.updateStopping, V4.Device.checkStopTimeout]
  split
  · exact (hmsg.trans (setStopTimeout 60000)).trans kill
  · exact hmsg

theorem updateState : Calm env w (Safemode.Device.updateState env i w) := by
  unfold Device.updateState
  split
  · unfold V4.Device.updateDisabled
    split
    · exact enable
    · exact refl w
  · exact refl w
  · exact updateStarted
  · exact updateStopping

end Calm

/-! ## 文字の命令 -/

section Board

variable (w : World)

@[simp] theorem act_board (f : Board → Board) : (w.act f).board = f w.board := rfl

@[simp] theorem ioRead_board (env : Env) : (ioRead env w).board = V4.ioRead env.board w.board := rfl

@[simp] theorem print_board (outs : List V3.Out) : (w.print outs).board = w.board := rfl

@[simp] theorem println_board (out : V3.Out) : (w.println out).board = w.board := rfl

@[simp] theorem printID_board (id : List UInt8) : (printID w id).board = w.board := by
  unfold printID
  induction id.drop 2 generalizing w with
  | nil => rfl
  | cons b bs ih => exact ih _

end Board

/-- 命令が基板に及ぼす変化。 -/
inductive Called (env : V4.Env) (argv : List (List UInt8)) : Command → Board → Board → Prop
  | calm {c : Command} {w w' : Board} : Calm env w w' → Called env argv c w w'
  | ping {w : Board} (i : Port) : argv.length = 2 → portArg (V3.arg argv 1) = some i →
      Called env argv (.common .ping) w (Device.onHeartbeat env i w)
  | start {w : Board} (i : Port) : argv.length = 2 → portArg (V3.arg argv 1) = some i →
      Called env argv (.common .start) w (w.setRam { w.ram with deviceWantsStart := UInt8.ofNat i })

section Commands

variable {env : Env} {argv : List (List UInt8)} {w : World}

theorem eachPort_induct {P : Board → Prop} {f : Port → World → World} (hf : ∀ i w, P w.board → P (f i w).board)
    (h : P w.board) : P (eachPort f w).board := by
  unfold eachPort
  induction List.finRange 5 generalizing w with
  | nil => exact h
  | cons i is ih => exact ih (hf i w h)

theorem calm_eachPort {f : Port → World → World} (hf : ∀ i w, Calm env.board w.board (f i w).board) (w : World) :
    Calm env.board w.board (eachPort f w).board :=
  eachPort_induct (P := Calm env.board w.board) (fun i v h => h.trans (hf i v)) (Calm.refl _)

theorem calm_eachArg {f : Port → Board → Board} (hf : ∀ i w, Calm env.board w (f i w)) (w : World) :
    Calm env.board w.board (eachArg argv w f).board := by
  unfold eachArg
  induction argv.drop 1 generalizing w with
  | nil => exact Calm.refl _
  | cons s ss ih =>
      refine Calm.trans ?_ (ih _)
      beta_reduce
      split
      · exact hf _ _
      · exact Calm.refl _

theorem called_ping : Called env.board argv (.common .ping) w.board (commandPing env argv w).2.board := by
  unfold commandPing
  split
  · exact .calm (Calm.refl _)
  · rename_i hl
    split
    · rename_i i hi
      exact .ping i (by simpa using hl) hi
    · exact .calm (Calm.refl _)

theorem called_start : Called env.board argv (.common .start) w.board (commandStart argv w).2.board := by
  unfold commandStart
  split
  · exact .calm (Calm.refl _)
  · rename_i hl
    split
    · rename_i i hi
      exact .start i (by simpa using hl) hi
    · exact .calm (Calm.refl _)

theorem calm_current : Calm env.board w.board (commandCurrent env w).2.board := by
  simp only [commandCurrent, print_board]
  exact Calm.ioRead.trans (calm_eachPort (fun _ _ => Calm.ioRead) ((ioRead env w).print _))

theorem calm_stop : Calm env.board w.board (commandStop env argv w).2.board := by
  simp only [commandStop]
  split
  · exact Calm.refl _
  · split
    · split
      · exact (Calm.setStopTimeout _).trans Calm.stop
      · split
        · exact (Calm.setStopTimeout _).trans Calm.stop
        · exact Calm.refl _
    · exact Calm.refl _

theorem calm_bootMedia : Calm env.board w.board (commandBootMedia env argv w).2.board := by
  unfold commandBootMedia
  split
  · exact Calm.refl _
  · split
    · exact Calm.refl _
    · split
      · split
        · exact Calm.setNextBootMedia .sd
        · split
          · exact Calm.setNextBootMedia .emmc
          · exact Calm.refl _
      · split
        · exact Calm.ioRead
        · exact Calm.ioRead

theorem calm_date : Calm env.board w.board (commandDate env argv w).2.board := by
  simp only [commandDate]
  split
  · exact Calm.ioRead
  · split
    · simp only
      split
      · exact Calm.ioRead
      · exact Calm.refl _
    · exact Calm.refl _

theorem calm_watch : Calm env.board w.board (commandWatch argv w).2.board := by
  simp only [commandWatch]
  split
  · split
    · split
      · exact Calm.setDev _ _
      · split
        · exact Calm.setDev _ _
        · exact Calm.refl _
    · exact Calm.refl _
  · exact Calm.refl _

theorem calm_blFlag : Calm env.board w.board (commandBLFlag env argv w).2.board := by
  have hset : ∀ mode : UInt8, Calm env.board w.board (Record.setBootloaderNodeController env.board mode w.board) :=
    fun _ => Calm.of_still (still_write (loose_header (by simp) _))
  simp only [commandBLFlag]
  split
  · exact Calm.ioRead
  · split
    · split
      · exact hset 0
      · split
        · exact hset 1
        · split
          · exact hset 2
          · exact Calm.refl _
    · exact Calm.refl _

theorem calm_log : Calm env.board w.board (commandLog argv w).2.board := by
  unfold commandLog
  split
  · split
    · exact Calm.refl _
    · split
      · exact Calm.refl _
      · exact Calm.refl _
  · exact Calm.refl _

theorem calm_resetEEPROM : Calm env.board w.board (commandResetEEPROM env w).2.board :=
  Calm.of_still (still_put (fun b v _ hb => loose_header (by simp only [Record.magicAddr] at hb; omega) v) 0)

theorem calm_sdInfo : Calm env.board w.board (commandSDInfo env w).2.board := by
  simp only [commandSDInfo]
  split
  · exact Calm.ioRead.trans (Calm.setRam rfl rfl)
  · exact Calm.ioRead

theorem called_func (c : Command) : Called env.board argv c w.board (c.func env argv w).2.board := by
  cases c with
  | sdinfo => exact .calm calm_sdInfo
  | common c =>
      cases c with
      | ping => exact called_ping
      | start => exact called_start
      | rtc => exact .calm Calm.ioRead
      | stop => exact .calm calm_stop
      | reset => exact .calm (Calm.setRam rfl rfl)
      | id => exact .calm (by simpa [Command.func, commandID] using Calm.ioRead)
      | cu => exact .calm calm_current
      | hb => exact .calm (calm_eachPort (fun _ _ => Calm.refl _) _)
      | env => exact .calm (Calm.ioRead.trans Calm.ioRead)
      | bs => exact .calm calm_bootMedia
      | th => exact .calm (calm_eachPort (fun _ _ => Calm.ioRead) _)
      | date => exact .calm calm_date
      | bf => exact .calm (Calm.refl _)
      | fc => exact .calm (calm_eachPort (fun _ _ => Calm.ioRead) _)
      | up => exact .calm (Calm.refl _)
      | enable => exact .calm (calm_eachArg (fun _ _ => Calm.enable) _)
      | disable => exact .calm (calm_eachArg (fun _ _ => Calm.disable) _)
      | watch => exact .calm calm_watch
      | log => exact .calm calm_log
      | eereset => exact .calm calm_resetEEPROM
      | boots => exact .calm Calm.ioRead
      | ver => exact .calm (Calm.refl _)
      | blf => exact .calm calm_blFlag

end Commands

/-! ## 行 -/

/-- 命令の引数。`@` で始まる先頭の引数は除く。 -/
def argvOf (line : List UInt8) : List (List UInt8) :=
  match V3.splitArgs line with
  | [] => []
  | a :: rest => if a.head? = some 0x40 then rest else a :: rest

/-- 行は、命令 `c` をポート `p` だけについて行う。 -/
def Names (c : V3.Command) (p : Port) (line : List UInt8) : Bool :=
  match argvOf line with
  | [name, port] => decide (name = c.name) && decide (portArg port = some p)
  | _ => false

theorem names_of {c : V3.Command} {p : Port} {line stale : List UInt8}
    (hc : c.name = (argvOf line).headD stale) (hl : (argvOf line).length = 2)
    (hp : portArg (V3.arg (argvOf line) 1) = some p) : Names c p line = true := by
  obtain ⟨name, port, hargv⟩ := List.length_eq_two.mp hl
  rw [hargv] at hc hp
  have hname : name = c.name := hc.symm
  have hport : portArg port = some p := hp
  simp [Names, hargv, hname, hport]

section Line

variable {env : Env} {argv : List (List UInt8)} {stale : List UInt8} {w : World}

theorem executeCommand_inv (sid : List UInt8) :
    Calm env.board w.board (executeCommand env sid argv stale w).board ∨
      ∃ c, c.name = argv.headD stale ∧
        Called env.board argv c w.board (executeCommand env sid argv stale w).board := by
  have hend : ∀ v : World, (if v.board.ram.halted then v else v.println (.text "->>>")).board = v.board := by
    intro v
    split <;> rfl
  simp only [executeCommand, hend]
  split
  · rename_i c hc
    have hname := List.find?_some hc
    have hfunc := @called_func env argv
      (w.print [.text "<<<- sid=", .word sid, .text " ", .word (argv.headD stale), .newline]) c
    exact Or.inr ⟨c, of_decide_eq_true hname, hfunc⟩
  · exact Or.inl (Calm.refl _)

/-- 行を処理した基板。 -/
theorem processCommand_inv (line : List UInt8) :
    Calm env.board w.board (processCommand env line stale w).board ∨
      ∃ c, c.name = (argvOf line).headD stale ∧
        Called env.board (argvOf line) c w.board (processCommand env line stale w).board := by
  cases hs : V3.splitArgs line with
  | nil =>
      simp only [processCommand, hs]
      exact Or.inl (Calm.refl _)
  | cons a rest =>
      by_cases ha : a.head? = some 0x40
      · simp only [processCommand, argvOf, hs, ha, if_true]
        exact executeCommand_inv _
      · simp only [processCommand, argvOf, hs, ha, if_false]
        exact executeCommand_inv _

end Line

/-! ## 主ループの末尾 -/

/-- `devices[p]` の直列ポートから届いた行が `hello` で始まる。 -/
def Op.hears (p : Port) : Op → Bool
  | .leds serial1 serial2 =>
      (decide (p = 0) && hello.isPrefixOf (readLine serial1)) || (decide (p = 1) && hello.isPrefixOf (readLine serial2))
  | _ => false

/-- リレーに関わらず、心拍の数は `count` までしか増えない。 -/
structure Heard (count : Port → Nat) (w w' : Board) : Prop where
  trail : Trail Loose w w'
  wants : w'.ram.deviceWantsStart = w.ram.deviceWantsStart
  counters : ∀ p, (w'.ram.heartbeatCounters p).toNat ≤ (w.ram.heartbeatCounters p).toNat + count p

namespace Heard

variable {count count' : Port → Nat} {w w' w'' : Board}

theorem of_still (h : Still Loose w w') : Heard (fun _ => 0) w w' :=
  ⟨h.trail, by rw [h.ram], fun _ => by rw [h.ram]; exact Nat.le_refl _⟩

theorem trans (h₁ : Heard count w w') (h₂ : Heard count' w' w'') : Heard (fun p => count p + count' p) w w'' := by
  refine ⟨h₁.trail.trans h₂.trail, h₂.wants.trans h₁.wants, fun p => ?_⟩
  have hfst := h₁.counters p
  have hsnd := h₂.counters p
  omega

theorem mono (h : Heard count w w') (hle : ∀ p, count p ≤ count' p) : Heard count' w w' :=
  ⟨h.trail, h.wants, fun p => Nat.le_trans (h.counters p) (Nat.add_le_add_left (hle p) _)⟩

end Heard

section LEDs

variable {env : Env} {w : World}

theorem still_led {env : V4.Env} {b : Board} (led : Nat) (on : Bool) : Still Loose b (setLED env led on b) :=
  still_setLED fun _ hk => loose_led hk on

theorem still_blink {env : V4.Env} {b : Board} (c₁ c₂ on : Bool) : Still Loose b (blink env c₁ c₂ on b) := by
  have hif : ∀ (c : Bool) (led : Nat) (b : Board), Still Loose b (if c then setLED env led on b else b) := by
    intro c led b
    split
    · exact still_led led on
    · exact Still.refl b
  exact (still_led 0 on).trans ((hif c₁ 1 _).trans (hif c₂ 2 _))

theorem heard_listen (i : Port) (powered : Bool) (received : List UInt8) :
    Heard (fun p => (decide (p = i) && hello.isPrefixOf (readLine received)).toNat) w.board
      (listen env i powered received w).2.board := by
  unfold listen
  split
  · simp only
    split
    · rename_i hh
      refine ⟨still_ioRead.trail.setRam _, rfl, fun p => ?_⟩
      by_cases hp : p = i
      · subst hp
        have hle : (w.board.ram.heartbeatCounters p + 1).toNat ≤ (w.board.ram.heartbeatCounters p).toNat + 1 := by
          rw [UInt32.toNat_add]
          exact Nat.mod_le _ _
        simpa [hh] using hle
      · simp [hp]
    · exact (Heard.of_still still_ioRead).mono fun _ => Nat.zero_le _
  · exact (Heard.of_still (Still.refl _)).mono fun _ => Nat.zero_le _

theorem heard_updateLEDs (serial1 serial2 : List UInt8) :
    Heard (fun p => (Op.hears p (.leds serial1 serial2)).toNat) w.board
      (updateLEDs env serial1 serial2 w).board := by
  have hread : ∀ v : World, Still Loose v.board (eachPort (fun _ w => ioRead env w) v).board := fun v =>
    eachPort_induct (P := Still Loose v.board) (fun _ _ h => h.trans still_ioRead) (Still.refl _)
  have hled : ∀ (f : Port → Bool) (v : World),
      Still Loose v.board (eachPort (fun i w => w.act (setLED env.board (i.val + 1) (f i))) v).board := fun f v =>
    eachPort_induct (P := Still Loose v.board) (fun _ _ h => h.trans (still_led _ _)) (Still.refl _)
  have hblink : ∀ (c₁ c₂ : Bool) (v : World), Still Loose v.board (v.act fun b => b |> blink env.board c₁ c₂ false
      |> delay env.board 50 |> blink env.board c₁ c₂ true).board := fun c₁ c₂ v =>
    (still_blink c₁ c₂ false).trans ((still_delay 50).trans (still_blink c₁ c₂ true))
  refine Heard.mono (((((Heard.of_still (hread w)).trans (Heard.of_still (hled _ _))).trans
    (heard_listen 0 _ serial1)).trans (heard_listen 1 _ serial2)).trans (Heard.of_still (hblink _ _ _))) fun p => ?_
  by_cases h₀ : p = 0
  · subst h₀
    simp [Op.hears]
  · simp [Op.hears, h₀]

end LEDs

/-! ## 一歩 -/

/-- 命令 `c` をポート `p` だけについて行う行。 -/
def Op.names (c : V3.Command) (p : Port) : Op → Bool
  | .line s _ => Names c p s
  | _ => false

/-- 一歩が基板に及ぼす変化。 -/
inductive Step (env : V4.Env) : Op → Board → Board → Prop
  | calm {o : Op} {w w' : Board} : Calm env w w' → Step env o w w'
  | ping {o : Op} {w : Board} (i : Port) : o.names .ping i = true → Step env o w (Device.onHeartbeat env i w)
  | want {o : Op} {w : Board} (i : Port) : o.names .start i = true →
      Step env o w (w.setRam { w.ram with deviceWantsStart := UInt8.ofNat i })
  | beat {w w' : Board} (i : Port) : 8 ≤ w.ram.heartbeatCounters i →
      Calm env (Device.onHeartbeat env i
        (w.setRam { w.ram with heartbeatCounters := Function.update w.ram.heartbeatCounters i 0 })) w' →
      Step env (.update i) w w'
  | serve {w v u : Board} (i : Port) : w.ram.deviceWantsStart.toNat = i.val → Calm env w v →
      u = v ∨ u = Device.powerUp env i v → Step env .startNext w (u.setRam { u.ram with deviceWantsStart := 255 })
  | auto {w v w' : Board} : Calm env w v → Calm env (Device.powerUp env 0 v) w' → Step env .startNext w w'
  | heard {o : Op} {w w' : Board} : Heard (fun p => (o.hears p).toNat) w w' → Step env o w w'

theorem step_update (env : V4.Env) (i : Port) (w : Board) : Step env (.update i) w (Device.update env i w) := by
  simp only [Device.update, Device.updateHeartbeat]
  split
  · rename_i hc
    exact .beat i hc (Calm.updateFault.trans Calm.updateState)
  · exact .calm (Calm.updateFault.trans Calm.updateState)

theorem calm_beginStart {env : V4.Env} {w : Board} (i : Port) (b : Bool) : Calm env w (beginStart i b w) :=
  .loose (((Trail.refl w).setRam _).mark fun _ => id) rfl rfl

theorem step_startNextDevice (env : V4.Env) (w : Board) : Step env .startNext w (startNextDevice env w) := by
  have hstart : ∀ (i : Port) (v : Board), (Device.start env i v).2 = v ∨
      (Device.start env i v).2 = Device.powerUp env i v := by
    intro i v
    unfold Device.start
    split
    · exact Or.inr rfl
    · exact Or.inl rfl
  unfold startNextDevice
  split
  · rename_i h
    exact .serve ⟨_, h⟩ rfl (calm_beginStart _ true) (hstart _ _)
  · split
    · rcases hstart 0 (beginStart 0 false w) with hs | hs
      · refine .calm ((calm_beginStart 0 false).trans ?_)
        exact hs ▸ Calm.ioRead
      · refine .auto (calm_beginStart 0 false) ?_
        exact hs ▸ Calm.ioRead
    · exact .calm (Calm.refl w)

theorem step_line (env : Env) (line stale : List UInt8) (w : World) :
    Step env.board (.line line stale) w.board (processCommand env line stale w).board := by
  have hinv := @processCommand_inv env stale w line
  generalize (processCommand env line stale w).board = w' at hinv ⊢
  rcases hinv with h | ⟨c, hc, h⟩
  · exact .calm h
  · cases h with
    | calm h => exact .calm h
    | ping i hl hi => exact .ping i (names_of hc hl hi)
    | start i hl hi => exact .want i (names_of hc hl hi)

theorem step_inv (env : Env) (o : Op) (w : World) : Step env.board o w.board (step env o w).board := by
  unfold step
  split
  · exact .calm (Calm.refl _)
  · cases o with
    | idle ms => exact .calm (Calm.of_still (still_delay ms))
    | startNext =>
        simp only
        split
        · exact .calm (Calm.refl _)
        · exact step_startNextDevice _ _
    | update i => exact step_update _ i _
    | line line stale => exact step_line env line stale w
    | status =>
        simp only [act_board, updateStatus]
        split
        · exact .calm (Calm.setRam rfl rfl)
        · exact .calm (Calm.refl _)
    | reset =>
        simp only [act_board, updateReset]
        split
        · exact .calm (Calm.setRam rfl rfl)
        · exact .calm (Calm.refl _)
    | leds serial1 serial2 => exact .heard (heard_updateLEDs serial1 serial2)

end Wagman.V4.Safemode
