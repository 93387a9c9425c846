import Wagman.V2.Lemmas.Monitor
import Wagman.Lib.Run

/-!
# 一つの検査から見た監視

検査 `c` を一つ決めて、その失敗の回数と、記録に残るその検査の評価と対処だけを見る。`loop` の各部分は、この見え方を変えないか、
評価か対処として変える。
-/

namespace Wagman.V2

open Machine

variable {env : Env} {w w' : World} {c q : Check} {s : Subject}

/-! ## 記録から分かること -/

/-- 検査 `c` の評価の結果。新しいものから並べる。 -/
def evals (c : Check) : Log → List Bool
  | [] => []
  | x :: l =>
      match x.event with
      | .evaluated q ok => if q = c then ok :: evals c l else evals c l
      | _ => evals c l

/-- 検査 `c` が、最後に成功してから、または、その対象への最後の対処から、続けて失敗した回数。 -/
def streak (c : Check) : Log → Nat
  | [] => 0
  | x :: l =>
      match x.event with
      | .evaluated q ok => if q = c then if ok then 0 else streak c l + 1 else streak c l
      | .reaction q => if q.subject = c.subject then 0 else streak c l
      | _ => streak c l

/-- 検査 `c` のための対処ごとの、その時に続けて失敗していた回数。 -/
def blames (c : Check) : Log → List Nat
  | [] => []
  | x :: l =>
      match x.event with
      | .reaction q => if q = c then streak c l :: blames c l else blames c l
      | _ => blames c l

theorem streak_evals (c : Check) (l : Log) : List.replicate (streak c l) false <+: evals c l := by
  induction l with
  | nil => exact List.prefix_refl _
  | cons x l ih =>
      obtain ⟨t, e⟩ := x
      cases e with
      | evaluated q ok =>
          by_cases hq : q = c
          · cases ok with
            | false => simpa [streak, evals, hq, List.replicate_succ] using ih
            | true => simp [streak, evals, hq]
          · simpa [streak, evals, hq] using ih
      | reaction q =>
          by_cases hq : q.subject = c.subject
          · simp [streak, hq]
          · simpa [streak, evals, hq] using ih
      | _ => exact ih

theorem mem_blames {x : Entry Event} {l l' : Log} (hs : x :: l <:+ l') (hx : x.event = .reaction c) :
    streak c l ∈ blames c l' := by
  induction l' with
  | nil => simp at hs
  | cons y l' ih =>
      rcases List.suffix_cons_iff.mp hs with heq | hs
      · cases heq
        simp [blames, hx]
      · have hmem := ih hs
        simp only [blames]
        split
        · split
          · exact List.mem_cons_of_mem _ hmem
          · exact hmem
        · exact hmem

/-! ## 検査の見え方 -/

/-- 検査 `c` の失敗の回数と、記録から分かること。 -/
structure View where
  count : UInt8
  streak : Nat
  evals : List Bool
  blames : List Nat

def view (c : Check) (w : World) : View :=
  ⟨w.ram.countTimeout c, streak c w.log, evals c w.log, blames c w.log⟩

/-- 結果が `ok` の評価。 -/
def View.evaluate (ok : Bool) (v : View) : View :=
  { v with count := if ok then 0 else v.count + 1, streak := if ok then 0 else v.streak + 1, evals := ok :: v.evals }

/-- 対象への対処。`own` は、この検査のための対処かどうかである。 -/
def View.react (own : Bool) (v : View) : View :=
  { v with count := 0, streak := 0, blames := if own then v.streak :: v.blames else v.blames }

theorem Serves.view (h : Serves w w') (c : Check) : view c w' = view c w := by
  have hlog : (streak c w'.log, evals c w'.log, blames c w'.log) =
      (streak c w.log, evals c w.log, blames c w.log) := by
    refine h.trail.log_eq (f := fun l => (streak c l, evals c l, blames c l)) ?_
    rintro ⟨t, e⟩ l ⟨d, he⟩
    cases e with
    | evaluated q ok => exact he.elim
    | reaction q => exact he.elim
    | _ => rfl
  simp only [Prod.mk.injEq] at hlog
  simp only [V2.view, h.counts, hlog]

theorem view_passive (h : Still Event.Passive w w') (c : Check) : view c w' = view c w := (Serves.ofPassive h).view c

/-! ## 評価 -/

theorem view_evaluate (c : Check) (w : World) : view c (evaluate env c w) = (view c w).evaluate (c.run env w).1 := by
  have hrun : view c (c.run env w).2 = view c w := view_passive (passive_run c) c
  simp only [view, View.mk.injEq] at hrun
  simp [view, evaluate, View.evaluate, Ram.setCount, streak, evals, blames, hrun]

theorem view_evaluate_ne (h : c ≠ q) : view c (evaluate env q w) = view c w := by
  have hrun : view c (q.run env w).2 = view c w := view_passive (passive_run q) c
  simp only [view, View.mk.injEq] at hrun
  simp [view, evaluate, Ram.setCount, streak, evals, blames, hrun, h, h.symm]

/-- 動いている機器も段階も変わらない。 -/
structure SameMode (w w' : World) : Prop where
  running : w'.ram.running = w.ram.running
  stage : w'.ram.stage = w.ram.stage

theorem SameMode.trans {w'' : World} (h₁ : SameMode w w') (h₂ : SameMode w' w'') : SameMode w w'' :=
  ⟨h₂.running.trans h₁.running, h₂.stage.trans h₁.stage⟩

theorem SameMode.operating (h : SameMode w w') (s : Subject) : operating s w' = operating s w := by
  cases s with
  | sysMon => rfl
  | device d => simp only [V2.operating, h.running]

theorem sameMode_evaluate (c : Check) : SameMode w (evaluate env c w) := by
  have hram : (c.run env w).2.ram = w.ram := (passive_run c).ram
  exact ⟨by simp [evaluate, Ram.setCount, hram], by simp [evaluate, Ram.setCount, hram]⟩

theorem sameMode_countTimeouts (s : Subject) : SameMode w (countTimeouts env s w) := by
  unfold countTimeouts
  split
  · exact List.foldlRecOn (evaluations s) _ (motive := fun v => SameMode w v) ⟨rfl, rfl⟩
      fun v hv q _ => hv.trans (sameMode_evaluate q)
  · exact ⟨rfl, rfl⟩

theorem subject_of_mem_evaluations (h : q ∈ evaluations s) : q.subject = s := by
  cases s with
  | sysMon => revert q; decide
  | device d =>
      cases d with
      | nc => revert q; decide
      | switch => revert q; decide
      | gn g => revert q; revert g; decide

theorem mem_evaluations (c : Check) : c ∈ evaluations c.subject := by cases c <;> simp [evaluations, Check.subject]

theorem nodup_evaluations (s : Subject) : (evaluations s).Nodup := by
  cases s with
  | sysMon => decide
  | device d =>
      cases d with
      | nc => decide
      | switch => decide
      | gn g => revert g; decide

theorem view_countTimeouts_ne (h : c.subject ≠ s) : view c (countTimeouts env s w) = view c w := by
  unfold countTimeouts
  split
  · refine List.foldlRecOn (evaluations s) _ (motive := fun v => view c v = view c w) rfl fun v hv q hq => ?_
    have hne : c ≠ q := by
      rintro rfl
      exact h (subject_of_mem_evaluations hq)
    exact (view_evaluate_ne hne).trans hv
  · rfl

/-- 対象が動いていれば、検査は一度だけ評価される。 -/
theorem view_countTimeouts (env : Env) (h : operating c.subject w = true) :
    ∃ ok, view c (countTimeouts env c.subject w) = (view c w).evaluate ok := by
  unfold countTimeouts
  rw [if_pos h]
  refine Run.foldl_visit (Q := fun v => view c v = view c w) (P := fun v => ∃ ok, view c v = (view c w).evaluate ok)
    (nodup_evaluations _) (mem_evaluations c) ?_ ?_ ?_ rfl
  · exact fun q v hne hv => (view_evaluate_ne hne).trans hv
  · intro v hv
    exact ⟨_, by rw [view_evaluate, hv]⟩
  · rintro q v hne ⟨ok, hv⟩
    exact ⟨ok, (view_evaluate_ne hne).trans hv⟩

/-! ## 対処 -/

theorem mem_reactions : q ∈ reactions s ↔ q.subject = s := by
  cases s with
  | sysMon => cases q <;> simp [reactions, Check.subject]
  | device d => cases d <;> cases q <;> simp [reactions, Check.subject]

/-- 回数を 0 に戻す部分は、ほかを変えない。 -/
theorem foldl_setCount (cs : List Check) (w : World) :
    (cs.foldl (fun w c => w.setRam (w.ram.setCount c 0)) w).log = w.log ∧
      SameMode w (cs.foldl (fun w c => w.setRam (w.ram.setCount c 0)) w) ∧
      ∀ c, (cs.foldl (fun w c => w.setRam (w.ram.setCount c 0)) w).ram.countTimeout c =
        if c ∈ cs then 0 else w.ram.countTimeout c := by
  induction cs generalizing w with
  | nil => exact ⟨rfl, ⟨rfl, rfl⟩, fun c => by simp⟩
  | cons q cs ih =>
      obtain ⟨hlog, hmode, hcount⟩ := ih (w.setRam (w.ram.setCount q 0))
      refine ⟨hlog, ⟨hmode.running, hmode.stage⟩, fun c => ?_⟩
      rw [List.foldl_cons, hcount]
      by_cases hq : c = q
      · simp [hq, Ram.setCount]
      · simp [hq, Ram.setCount]

theorem view_reboot (s : Subject) : view c (reboot env s w) = view c w := by
  cases s with
  | sysMon => rfl
  | device d => exact (Serves.boot d).view c

theorem view_react (hq : q.subject = s) (hc : c.subject = s) :
    view c (react env s q w) = (view c w).react (decide (q = c)) := by
  have hproblem : view c (sendProblem env q.problem w) = view c w := view_passive (passive_sendProblem _) c
  obtain ⟨hlog, -, hcount⟩ := foldl_setCount (reactions s) (sendProblem env q.problem w)
  simp only [react, view_reboot]
  simp only [view, View.mk.injEq] at hproblem
  simp [view, hlog, hcount, View.react, streak, evals, blames, mem_reactions, hc, hq, hproblem]

theorem view_react_ne (hq : q.subject = s) (hc : c.subject ≠ s) : view c (react env s q w) = view c w := by
  have hproblem : view c (sendProblem env q.problem w) = view c w := view_passive (passive_sendProblem _) c
  obtain ⟨hlog, -, hcount⟩ := foldl_setCount (reactions s) (sendProblem env q.problem w)
  have hne : q ≠ c := by
    rintro rfl
    exact hc hq
  simp only [react, view_reboot]
  simp only [view, View.mk.injEq] at hproblem
  simp [view, hlog, hcount, streak, evals, blames, mem_reactions, hc, hq, Ne.symm hc, hne, hproblem]

/-- `w` から `w'` までの間に、対象 `s` に対処した。 -/
def Reacts (s : Subject) (w w' : World) : Prop :=
  ∃ x l q, x.event = Event.reaction q ∧ q.subject = s ∧ w.log <:+ l ∧ x :: l <:+ w'.log

theorem Reacts.after {w'' : World} (h : Reacts s w w') (hs : w'.log <:+ w''.log) : Reacts s w w'' := by
  obtain ⟨x, l, q, hx, hq, hl, hl'⟩ := h
  exact ⟨x, l, q, hx, hq, hl, hl'.trans hs⟩

theorem Reacts.before {w'' : World} (h : Reacts s w' w'') (hs : w.log <:+ w'.log) : Reacts s w w'' := by
  obtain ⟨x, l, q, hx, hq, hl, hl'⟩ := h
  exact ⟨x, l, q, hx, hq, hs.trans hl, hl'⟩

theorem react_reboot (env : Env) (s : Subject) (q : Check) (w : World) :
    ∃ v x l, react env s q w = reboot env s v ∧ SameMode w v ∧ x.event = .reaction q ∧ v.log = x :: l ∧
      w.log <:+ l := by
  have hproblem : Still Event.Passive w (sendProblem env q.problem w) := passive_sendProblem _
  obtain ⟨hlog, hmode, -⟩ := foldl_setCount (reactions s) (sendProblem env q.problem w)
  have hsame : SameMode w (sendProblem env q.problem w) := ⟨by rw [hproblem.ram], by rw [hproblem.ram]⟩
  refine ⟨_, _, _, rfl, hsame.trans ⟨hmode.running, hmode.stage⟩, rfl, rfl, ?_⟩
  rw [hlog]
  exact hproblem.trail.suffix

theorem reacts_react (hq : q.subject = s) : Reacts s w (react env s q w) := by
  obtain ⟨v, x, l, heq, -, hx, hl, hs⟩ := react_reboot env s q w
  rw [heq]
  exact ⟨x, l, q, hx, hq, hs, hl ▸ (trail_reboot s).suffix⟩

theorem stage_react_device (d : Device) : (react env (.device d) q w).ram.stage = w.ram.stage := by
  obtain ⟨v, -, -, heq, hmode, -⟩ := react_reboot env (.device d) q w
  rw [heq]
  exact (Serves.boot d).stage.trans hmode.stage

theorem operating_react_ne {t : Subject} (h : t ≠ s) : operating t (react env s q w) = operating t w := by
  obtain ⟨v, -, -, heq, hmode, -⟩ := react_reboot env s q w
  rw [heq, ← hmode.operating t]
  cases s with
  | sysMon =>
      cases t with
      | sysMon => rfl
      | device d => rfl
  | device d =>
      cases t with
      | sysMon => rfl
      | device d' =>
          have hne : d' ≠ d := fun hd => h (hd ▸ rfl)
          have hboots : Boots d v (boot env d v).2 := boots_boot d
          obtain ⟨-, b, hr⟩ := hboots
          simp [operating, reboot, hr, Function.update_of_ne hne]

/-- `respond` は、何もしないか、失敗の続いている検査のために対処する。 -/
theorem respond_cases (env : Env) (s : Subject) (w : World) :
    (respond env s w = w ∧
        (w.ram.stage = .running → operating s w = true → ∀ q, q.subject = s → timedOut q w = false)) ∨
      ∃ q, q.subject = s ∧ timedOut q w = true ∧ respond env s w = react env s q w := by
  unfold respond
  split
  · split
    · rename_i q hfind
      refine Or.inr ⟨q, mem_reactions.mp (List.mem_of_find?_eq_some hfind), ?_, rfl⟩
      simpa using List.find?_some hfind
    · rename_i hfind
      refine Or.inl ⟨rfl, fun _ _ q hq => ?_⟩
      simpa using List.find?_eq_none.mp hfind q (mem_reactions.mpr hq)
  · rename_i h
    exact Or.inl ⟨rfl, fun hs ho => absurd ⟨hs, ho⟩ h⟩

end Wagman.V2
