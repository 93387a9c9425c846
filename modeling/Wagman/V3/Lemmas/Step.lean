import Wagman.V3.Lemmas.Prim

/-!
# 実行についての帰納法

文字による命令と主ループの各部分を、機器の基本の操作に分ける。どの機器の基本の操作にも保たれる性質は、どの実行でも
保たれる。
-/

namespace Wagman.V3

open Machine

/-! ## 機器に関わらない命令 -/

section Quiet

variable {env : Env} {w : World}

theorem quiet_ioRead : Quiet w (ioRead env w) := Quiet.ofStill still_ioRead

theorem quiet_prints (outs : List Out) : Quiet w (prints env outs w) :=
  Quiet.ofStill (still_prints Event.global_print outs)

theorem quiet_println (out : Out) : Quiet w (println env out w) := quiet_prints _

theorem quiet_print (out : Out) : Quiet w (print env out w) := quiet_prints [out]

theorem quiet_foldl {α : Type} {f : World → α → World} (hf : ∀ w a, Quiet w (f w a)) (as : List α) :
    Quiet w (as.foldl f w) := by
  induction as generalizing w with
  | nil => exact Quiet.refl w
  | cons a as ih => exact (hf w a).trans ih

theorem quiet_eachPort {f : Port → World → World} (hf : ∀ i w, Quiet w (f i w)) :
    Quiet w (eachPort f w) :=
  quiet_foldl (fun w i => hf i w) _

theorem quiet_commandID : Quiet w (commandID env w).2 :=
  (quiet_ioRead.trans (quiet_foldl (fun _ _ => quiet_prints _) _)).trans (quiet_print _)

theorem quiet_commandDate (argv : List (List UInt8)) : Quiet w (commandDate env argv w).2 := by
  unfold commandDate
  split
  · exact (quiet_ioRead.trans (quiet_prints _)).trans (quiet_print _)
  · split
    · unfold setDateTime
      split
      · exact Quiet.ofStill (Still.emit _ (fun _ => id) w)
      · exact Quiet.refl w
    · exact Quiet.refl w

theorem quiet_commandCurrent : Quiet w (commandCurrent env w).2 :=
  (quiet_ioRead.trans (quiet_print _)).trans <|
    (quiet_eachPort fun _ _ => quiet_ioRead.trans (quiet_prints _)).trans (quiet_print _)

theorem quiet_commandHeartbeat : Quiet w (commandHeartbeat env w).2 := by
  simp only [commandHeartbeat]
  exact quiet_eachPort fun _ _ => quiet_println _

theorem quiet_commandFailCount : Quiet w (commandFailCount env w).2 := by
  simp only [commandFailCount]
  exact quiet_eachPort fun _ _ => quiet_ioRead.trans (quiet_println _)

theorem quiet_commandThermistor : Quiet w (commandThermistor env w).2 := by
  simp only [commandThermistor]
  exact quiet_eachPort fun _ _ => quiet_ioRead.trans (quiet_println _)

theorem quiet_commandEnvironment : Quiet w (commandEnvironment env w).2 :=
  (quiet_ioRead.trans (quiet_prints _)).trans (quiet_ioRead.trans (quiet_prints _))

theorem quiet_commandLog (argv : List (List UInt8)) : Quiet w (commandLog argv w).2 := by
  unfold commandLog
  split
  · split
    · exact Quiet.setRam rfl
    · split
      · exact Quiet.setRam rfl
      · exact Quiet.refl w
  · exact Quiet.refl w

theorem quiet_commandBootFlags : Quiet w (commandBootFlags env w).2 := by
  have hflag : ∀ (bit : Nat) (name : String) (w : World),
      Quiet w (if flagged w.ram.bootflags bit then println env (.text name) w else w) := by
    intro bit name w
    split
    · exact quiet_println _
    · exact Quiet.refl w
  exact (hflag _ _ _).trans <| (hflag _ _ _).trans <| (hflag _ _ _).trans (hflag _ _ _)

theorem quiet_setBootloaderNodeController (mode : UInt8) :
    Quiet w (Record.setBootloaderNodeController env mode w) :=
  Quiet.ofStill (still_write (Event.global_eeprom (by simp) _))

theorem quiet_commandBLFlag (argv : List (List UInt8)) : Quiet w (commandBLFlag env argv w).2 := by
  unfold commandBLFlag
  split
  · exact quiet_ioRead.trans (quiet_println _)
  · split
    · split
      · exact quiet_setBootloaderNodeController 0
      · split
        · exact quiet_setBootloaderNodeController 1
        · split
          · exact quiet_setBootloaderNodeController 2
          · exact quiet_println _
    · exact Quiet.refl w

theorem quiet_clearMagic : Quiet w (Record.clearMagic env w) :=
  Quiet.ofStill (still_put (fun _ v _ h => Event.global_eeprom (by simp at h; omega) v) 0)

theorem quiet_updateLEDs : Quiet w (updateLEDs env w) := by
  have hset : ∀ (l : Fin 2) (b : Bool) (w : World), Quiet w (setLED env l b w) := fun _ _ _ =>
    Quiet.ofStill (still_digitalWrite (Event.global_pin _ _))
  have hreset :
      ∀ w : World, Quiet w (if w.ram.shouldResetSystem then setLED env 1 (getLED 0 w) w else w) := by
    intro w
    split
    · exact hset _ _ _
    · exact Quiet.refl w
  exact ((hset _ _ _).trans (hreset _)).trans (Quiet.ofStill (still_delay 200))

end Quiet

/-! ## 命令と主ループ -/

section Act

variable {env : Env} {w : World} {P : World → Prop} (hP : ∀ i v v', Act env i v v' → P v → P v')

include hP

theorem act_quiet {w' : World} (hq : Quiet w w') (h : P w) : P w' := hP 0 _ _ (.quiet hq) h

theorem act_commandPing (argv : List (List UInt8)) (h : P w) : P (commandPing env argv w).2 := by
  unfold commandPing
  split
  · exact h
  · split
    · rename_i i _
      exact act_onHeartbeat (hP i) h
    · exact h

theorem act_commandStart (argv : List (List UInt8)) (h : P w) : P (commandStart argv w).2 := by
  unfold commandStart
  split
  · exact h
  · split
    · exact act_quiet hP (Quiet.setRam rfl) h
    · exact h

theorem act_commandStop (argv : List (List UInt8)) (h : P w) : P (commandStop argv w).2 := by
  have hstop : ∀ i t, P (Device.stop i (Device.setStopTimeout i t w)).2 := fun i t =>
    act_stop (hP i) (act_setStopTimeout (hP i) t h)
  unfold commandStop
  split
  · exact h
  · split
    · split
      · exact hstop _ _
      · split
        · exact hstop _ _
        · exact h
    · exact h

theorem act_commandBootMedia (argv : List (List UInt8)) (h : P w) :
    P (commandBootMedia env argv w).2 := by
  have hset : ∀ i m out, P (println env out (Device.setNextBootMedia env i m w)) := fun i m out =>
    act_quiet hP (quiet_println out) (hP i _ _ (.media m) h)
  have hshow : ∀ out, P (println env out (ioRead env w)) := fun out =>
    act_quiet hP (quiet_ioRead.trans (quiet_println out)) h
  unfold commandBootMedia
  split
  · exact h
  · split
    · exact h
    · split
      · split
        · exact hset _ _ _
        · split
          · exact hset _ _ _
          · exact act_quiet hP (quiet_println _) h
      · split
        · exact hshow _
        · exact hshow _

omit hP in
theorem act_eachArg {f : Port → World → World} (hf : ∀ i v, P v → P (f i v)) (argv : List (List UInt8))
    (h : P w) :
    P (eachArg argv w f) := by
  unfold eachArg
  generalize argv.drop 1 = args
  induction args generalizing w with
  | nil => exact h
  | cons a args ih =>
      rw [List.foldl_cons]
      refine ih ?_
      split
      · exact hf _ _ h
      · exact h

theorem act_commandWatch (argv : List (List UInt8)) (h : P w) : P (commandWatch argv w).2 := by
  unfold commandWatch
  split
  · split
    · rename_i i _
      simp only
      split
      · exact hP i _ _ (.tweak _ rfl) h
      · split
        · exact hP i _ _ (.tweak _ rfl) h
        · exact h
    · exact h
  · exact h

theorem act_func (c : Command) (argv : List (List UInt8)) (h : P w) : P (c.func env argv w).2 := by
  cases c with
  | rtc => exact act_quiet hP (quiet_ioRead.trans (quiet_println _)) h
  | ping => exact act_commandPing hP argv h
  | start => exact act_commandStart hP argv h
  | stop => exact act_commandStop hP argv h
  | reset => exact act_quiet hP (Quiet.setRam rfl) h
  | id => exact act_quiet hP quiet_commandID h
  | cu => exact act_quiet hP quiet_commandCurrent h
  | hb => exact act_quiet hP quiet_commandHeartbeat h
  | env => exact act_quiet hP quiet_commandEnvironment h
  | bs => exact act_commandBootMedia hP argv h
  | th => exact act_quiet hP quiet_commandThermistor h
  | date => exact act_quiet hP (quiet_commandDate argv) h
  | bf => exact act_quiet hP quiet_commandBootFlags h
  | fc => exact act_quiet hP quiet_commandFailCount h
  | up => exact act_quiet hP (quiet_ioRead.trans (quiet_println _)) h
  | enable => exact act_eachArg (fun i v hv => hP i _ _ .enable hv) argv h
  | disable => exact act_eachArg (fun i v hv => hP i _ _ .disable hv) argv h
  | watch => exact act_commandWatch hP argv h
  | log => exact act_quiet hP (quiet_commandLog argv) h
  | eereset => exact act_quiet hP quiet_clearMagic h
  | boots => exact act_quiet hP (quiet_ioRead.trans (quiet_println _)) h
  | ver => exact act_quiet hP (quiet_prints _) h
  | blf => exact act_quiet hP (quiet_commandBLFlag argv) h

theorem act_executeCommand (sid : List UInt8) (argv : List (List UInt8)) (stale : List UInt8) (h : P w) :
    P (executeCommand env sid argv stale w) := by
  have hhead :
      P (prints env [.text "<<<- sid=", .word sid, .text " ", .word (argv.headD stale), .newline] w) :=
    act_quiet hP (quiet_prints _) h
  simp only [executeCommand]
  refine act_quiet hP (quiet_println _) ?_
  split
  · exact act_func hP _ argv hhead
  · exact act_quiet hP (quiet_println _) hhead

theorem act_processCommand (line stale : List UInt8) (h : P w) :
    P (processCommand env line stale w) := by
  unfold processCommand
  split
  · exact h
  · split
    · exact act_executeCommand hP _ _ _ h
    · exact act_executeCommand hP _ _ _ h

theorem act_startNextDevice (h : P w) : P (startNextDevice env w) := by
  have hstart :
      ∀ i, P (Device.start env i (w.setRam { w.ram with startTimer := timerNow w })).2 := fun i =>
    act_start (hP i) (act_quiet hP (Quiet.setRam rfl) h)
  unfold startNextDevice
  split
  · exact act_quiet hP (Quiet.setRam rfl) (hstart _)
  · split
    · split
      · exact act_quiet hP quiet_ioRead (hstart _)
      · exact h
    · exact h

/-- `update` のほかの一歩は、機器の記録に書かない。 -/
theorem act_step {o : Op} (ho : ∀ i, o ≠ .update i) (h : P w) : P (step env o w) := by
  unfold step
  split
  · exact h
  · cases o with
    | idle ms => exact act_quiet hP (Quiet.ofStill (still_delay ms)) h
    | timer1 levels => exact act_quiet hP (Quiet.setRam rfl) h
    | startNext =>
        simp only
        split
        · exact h
        · exact act_startNextDevice hP h
    | update i => exact absurd rfl (ho i)
    | line line stale => exact act_processCommand hP line stale h
    | status =>
        simp only [updateStatus]
        split
        · have hset : Quiet w (w.setRam { w.ram with statusTimer := timerNow w }) := Quiet.setRam rfl
          exact act_quiet hP (hset.trans (Quiet.ofStill (still_delay 350))) h
        · exact h
    | reset =>
        simp only [updateReset]
        split
        · exact act_quiet hP (Quiet.setRam rfl) h
        · exact h
    | leds => exact act_quiet hP quiet_updateLEDs h

end Act

section Induct

variable {env : Env} {w : World} {P : World → Prop}

/-- 基本の操作と、失敗を数えることに保たれる性質は、どの実行でも保たれる。 -/
theorem act_run (hP : ∀ i v v', Act env i v v' → P v → P v')
    (hF : ∀ i v, P v → P (Record.incrementBootFailures env i v)) (ops : List Op) (h : P w) : P (run env ops w) := by
  have hstep : ∀ (o : Op) (v : World), P v → P (step env o v) := by
    intro o v hv
    by_cases ho : ∃ i, o = .update i
    · obtain ⟨i, rfl⟩ := ho
      unfold step
      split
      · exact hv
      · exact act_update (hP i) (hF i) hv
    · exact act_step hP (fun i hi => ho ⟨i, hi⟩) hv
  unfold run
  induction ops generalizing w with
  | nil => exact h
  | cons o ops ih => exact ih (hstep o w h)

variable (hP : ∀ i v v', Prim env i v v' → P v → P v')

include hP

theorem prim_quiet {w' : World} (hq : Quiet w w') (h : P w) : P w' := hP 0 _ _ (.quiet hq) h

theorem run_induct (ops : List Op) (h : P w) : P (run env ops w) :=
  act_run (fun i v v' ha => hP i v v' ha.prim) (fun i _ hv => prim_incrementBootFailures (hP i) hv) ops h

end Induct

theorem Prim.induct_on {env : Env} {p : Port} {P : World → Prop}
    (hframe : ∀ v v', Frame p v v' → P v → P v')
    (hown : ∀ v v', Prim env p v v' → P v → P v') (i : Port) (v v' : World) (h : Prim env i v v')
    (hv : P v) :
    P v' := by
  by_cases hi : p = i
  · subst hi
    exact hown v v' h hv
  · exact hframe v v' (h.frame hi) hv

end Wagman.V3
