import Wagman.V2.Lemmas.Monitor
import Wagman.V2.Lemmas.Setup

/-!
# 起動と監視についての帰納法

`setup` と `loop` は、機器の起動と、電源を入れず、有効の印にも書かない部分を続けたものである。両方に保たれる性質は、実行の全体でも
保たれる。
-/

namespace Wagman.V2

open Machine

variable {env : Env} {w w' : World}

/-! ## 電源を入れない部分 -/

/-- 有効の印でない変数。 -/
def ByteCell.plain : ByteCell → Bool
  | .ncEnabled | .switchEnabled | .gnEnabled _ => false
  | _ => true

def Cell.plain : Cell → Bool
  | .byte c => c.plain
  | _ => true

/-- 電源を入れず、有効の印に書かない事象。 -/
def Event.Tame : Event → Prop
  | .relay _ on => on = false
  | .byte c _ => c.plain = true
  | _ => True

theorem plain_enabled (d : Device) : d.enabled.plain = false := by
  cases d with
  | nc => rfl
  | switch => rfl
  | gn g => rfl

theorem Event.Passive.tame {e : Event} (h : e.Passive) : e.Tame := by
  cases e with
  | relay d on => exact h.elim
  | byte c v => exact h.elim
  | _ => trivial

theorem tame_of_passive (h : Still Event.Passive w w') : Trail Event.Tame w w' := h.trail.mono fun _ he => he.tame

theorem tame_off (d : Device) : Trail Event.Tame w (digitalWrite env d false w) := (Trail.refl w).emit _ rfl

theorem tame_updateByte {c : ByteCell} (hc : c.plain = true) (v : UInt8) :
    Trail Event.Tame w (updateByte env c v w) := (Trail.refl w).emit _ hc

theorem tame_update {c : Cell} (hc : c.plain = true) (field : List UInt8) :
    Trail Event.Tame w (c.update env field w) := by
  cases c with
  | byte c => exact tame_updateByte hc _
  | word c => exact (Trail.refl w).emit _ trivial
  | usartBaud => exact (Trail.refl w).emit _ trivial

theorem tame_set {c : Cell} (hc : c.plain = true) (n : Nat) : Trail Event.Tame w (c.set env n w) := by
  cases c with
  | byte c => exact tame_updateByte hc _
  | word c => exact (Trail.refl w).emit _ trivial
  | usartBaud => exact (Trail.refl w).emit _ trivial

theorem tame_foldl {α : Type} {f : World → α → World} {as : List α} (hf : ∀ v, ∀ a ∈ as, Trail Event.Tame v (f v a)) :
    Trail Event.Tame w (as.foldl f w) :=
  List.foldlRecOn as f (motive := fun v => Trail Event.Tame w v) (Trail.refl w) fun v hv a ha => hv.trans (hf v a ha)

theorem tame_setDefaultEeprom : Trail Event.Tame w (setDefaultEeprom env w) := by
  have hplain : defaults.all (fun p => p.1.plain) = true := by decide
  exact tame_foldl fun _ p hp => tame_set (List.all_eq_true.mp hplain p hp) _

theorem tame_receiveParams {cells : List Cell} (hplain : cells.all Cell.plain = true) (request : String) :
    Trail Event.Tame w (receiveParams env cells request w) := by
  have hread : ∀ v : World, Trail Event.Tame v (ioRead env (println request v)) := fun _ =>
    tame_of_passive ((passive_println _).trans still_ioRead)
  simp only [receiveParams]
  split
  · exact hread w
  · split
    · exact (hread w).trans
        (tame_foldl fun _ p hp => tame_update (List.all_eq_true.mp hplain _ (List.of_mem_zip hp).2) _)
    · exact (hread w).setRam _

theorem tame_initPrimary : Trail Event.Tame w (initPrimary env w) :=
  (tame_updateByte rfl _).trans ((tame_updateByte rfl _).trans (tame_updateByte rfl _))

theorem tame_failBoot : Trail Event.Tame w (failBoot env w) := by
  have hbyte : ∀ (v : UInt8) (u : World), Trail Event.Tame u (updateByte env .numPrimaryBootAttempts v u) := fun v _ =>
    tame_updateByte rfl v
  have hsleep : ∀ u : World, Trail Event.Tame u (sleepSysMon env u) := fun _ =>
    (tame_foldl fun _ d _ => tame_off d).setRam _
  simp only [failBoot]
  split
  · exact (hbyte _ _).setRam _
  · exact (hbyte _ _).trans ((hbyte _ _).trans (((Trail.refl _).elapse _ _).trans (hsleep _)))

theorem tame_countAll : Trail Event.Tame w (countAll env w) := by
  have hcheck : ∀ (c : Check) (v : World), Trail Event.Tame v (evaluate env c v) := fun c _ =>
    ((tame_of_passive (passive_run c)).setRam _).mark trivial
  refine tame_foldl fun v s _ => ?_
  unfold countTimeouts
  split
  · exact tame_foldl fun v c _ => hcheck c v
  · exact Trail.refl v

/-! ## 帰納法 -/

section Induct

variable {P : World → Prop} (htame : ∀ v v', Trail Event.Tame v v' → P v → P v')
  (hboot : ∀ d v, P v → P (boot env d v).2)

include htame hboot

theorem respond_induct (s : Subject) (h : P w) : P (respond env s w) := by
  have hreact : ∀ c : Check, P (react env s c w) := by
    intro c
    have hproblem : P (sendProblem env c.problem w) := htame _ _ (tame_of_passive (passive_sendProblem _)) h
    have hclear : ∀ v : World, Trail Event.Tame v
        ((reactions s).foldl (fun w c => w.setRam (w.ram.setCount c 0)) v) := fun v =>
      tame_foldl fun v _ _ => (Trail.refl v).setRam _
    have hmark := htame _ _ ((hclear _).mark (e := Event.reaction c) trivial) hproblem
    cases s with
    | sysMon => exact htame _ _ ((Trail.refl _).setRam _) hmark
    | device d => exact hboot d _ hmark
  unfold respond
  split
  · split
    · exact hreact _
    · exact h
  · exact h

theorem serveRequest_induct (h : P w) : P (serveRequest env w) := by
  have hread : P (ioRead env w) := htame _ _ (tame_of_passive still_ioRead) h
  simp only [serveRequest]
  split
  · exact htame _ _ (tame_of_passive passive_sendTime) hread
  · exact htame _ _ (tame_of_passive passive_sendStatus) hread
  · exact hboot .nc _ hread
  · exact hboot .switch _ hread
  · exact hboot (.gn 0) _ hread
  · exact hboot (.gn 1) _ hread
  · exact hboot (.gn 2) _ hread
  · exact hread

theorem rebootIdle_induct (h : P w) : P (rebootIdle env w) := by
  unfold rebootIdle
  split
  · refine List.foldlRecOn devices _ (motive := P) (htame _ _ ((Trail.refl w).setRam _) h) fun v hv d _ => ?_
    split
    · exact hboot d v hv
    · exact hv
  · exact h

theorem finish_induct (h : P w) : P (finish env w) := by
  have hreport : ∀ v : World, Trail Event.Tame v (reportStatus env v) := by
    intro v
    unfold reportStatus
    split
    · exact ((Trail.refl v).setRam _).trans (tame_of_passive passive_sendStatus)
    · exact Trail.refl v
  have htime : ∀ v : World, Trail Event.Tame v (requestTime env v) := by
    intro v
    unfold requestTime
    split
    · exact ((Trail.refl v).setRam _).trans (tame_of_passive passive_getTimeNC)
    · exact Trail.refl v
  have hserve := serveRequest_induct htame hboot (htame _ _ ((hreport w).trans (htime _)) h)
  exact htame _ _ ((Trail.refl _).setRam _) (rebootIdle_induct htame hboot hserve)

theorem loop_induct (h : P w) : P (loop env w) := by
  have hcount : P (countAll env (tick w)) := htame _ _ (((Trail.refl w).setRam _).trans tame_countAll) h
  have hrespond : P (respondAll env (countAll env (tick w))) :=
    List.foldlRecOn subjects _ (motive := P) (htame _ _ ((Trail.refl _).setRam _) hcount) fun _ hv s _ =>
      respond_induct htame hboot s hv
  simp only [loop]
  split
  · exact h
  · split
    · exact finish_induct htame hboot hrespond
    · exact hrespond

theorem step_induct (o : Op) (h : P w) : P (step env o w) := by
  unfold step
  split
  · cases o with
    | timer1 => exact htame _ _ ((Trail.refl w).setRam _) h
    | loop => exact loop_induct htame hboot h
  · exact h

theorem configure_induct (h : P w) : P (configure env w) := by
  have htime : P (getTimeNC env (delay env 20000 w)) :=
    htame _ _ (tame_of_passive ((still_delay 20000).trans passive_getTimeNC)) h
  have hcore : P (getParamsCore env (getTimeNC env (delay env 20000 w))) :=
    htame _ _ (tame_receiveParams (by decide : coreCells.all Cell.plain = true) "$") htime
  have hgns : ∀ v : World, P v → P (getParamsGNs env v) := fun _ hv =>
    htame _ _ (tame_receiveParams (by decide : gnCells.all Cell.plain = true) "^") hv
  simp only [configure]
  split
  · split
    · exact hboot .switch _ (hgns _ hcore)
    · exact hgns _ hcore
  · exact hcore

theorem bootPrimary_induct (h : P w) : P (bootPrimary env w).2 := by
  have hinit : P (initPrimary env w) := htame _ _ tame_initPrimary h
  simp only [bootPrimary]
  generalize hv : (if readByte .firstBoot (initPrimary env w) ≠ 0 then setDefaultEeprom env (initPrimary env w)
    else initPrimary env w) = v
  have hfill : P v := by
    rw [← hv]
    split
    · exact htame _ _ tame_setDefaultEeprom hinit
    · exact hinit
  have hself : P (bootSysMon env v).2 := htame _ _ (tame_of_passive passive_bootSysMon) hfill
  split
  · exact hself
  · split
    · exact hboot .nc _ hself
    · exact configure_induct htame hboot (hboot .nc _ hself)

theorem setup_induct (h : P w) : P (setup env w) := by
  have hprimary := bootPrimary_induct htame hboot h
  simp only [setup]
  split
  · exact htame _ _ tame_failBoot hprimary
  · split
    · exact hboot (.gn 2) _ (hboot (.gn 1) _ (hboot (.gn 0) _ hprimary))
    · exact hprimary

/-- 電源を入れず、有効の印にも書かない部分と、機器の起動とに保たれる性質は、どの実行の後でも成り立つ。 -/
theorem run_induct (ops : List Op) (h : P w) : P (run env ops (setup env w)) :=
  List.foldlRecOn ops _ (motive := P) (setup_induct htame hboot h) fun _ hv o _ => step_induct htame hboot o hv

end Induct

end Wagman.V2
