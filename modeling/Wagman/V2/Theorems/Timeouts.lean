import Wagman.V2.Lemmas.Timeouts
import Wagman.V2.Lemmas.Setup

/-!
# 続けて失敗した回数と対処

`loop` の一周で、検査は高々一度評価され、続けて失敗した回数が EEPROM の値に達していれば、対象に対処する。SysMon への対処は
リセットなので、その周のほかの対処は行われない。
-/

namespace Wagman.V2

open Machine

variable {env : Env} {w w' : World} {c : Check} {n : UInt8}

/-! ## 一周 -/

theorem threshold_of_monitors (h : Trail Event.Monitors w w') : readByte c.timeout w' = readByte c.timeout w := by
  have hne : ∀ d : Device, c.timeout ≠ d.enabled := by
    intro d
    cases c <;> cases d <;> exact nofun
  exact h.hw_induct (P := fun s => s.eeprom.byte c.timeout = readByte c.timeout w)
    (fun _ s he hs => (byte_of_monitors he hne s).trans hs) rfl

theorem timedOut_congr (hv : view c w' = view c w) (ht : readByte c.timeout w' = readByte c.timeout w) :
    timedOut c w' = timedOut c w := by
  simp only [view, View.mk.injEq] at hv
  simp only [timedOut, hv, ht]

/-- 評価の部分の後。検査は、対象が動いていれば評価されている。 -/
structure Counted (c : Check) (w v : World) : Prop where
  mode : SameMode w v
  view : view c v = view c w ∨ operating c.subject v = true ∧ ∃ ok, view c v = (view c w).evaluate ok

theorem nodup_subjects : subjects.Nodup := by decide

theorem mem_subjects (s : Subject) : s ∈ subjects := by
  cases s with
  | sysMon => simp [subjects]
  | device d =>
      cases d with
      | nc => simp [subjects, devices]
      | switch => simp [subjects, devices]
      | gn g => revert g; decide

theorem counted_countAll (c : Check) (w : World) : Counted c w (countAll env w) := by
  refine Run.foldl_visit (p := c.subject) (Q := fun v => SameMode w v ∧ view c v = view c w) nodup_subjects
    (mem_subjects _) ?_ ?_ ?_ ⟨⟨rfl, rfl⟩, rfl⟩
  · rintro s v hne ⟨hmode, hv⟩
    exact ⟨hmode.trans (sameMode_countTimeouts s), (view_countTimeouts_ne hne).trans hv⟩
  · rintro v ⟨hmode, hv⟩
    have hcount : SameMode v (countTimeouts env c.subject v) := sameMode_countTimeouts c.subject
    refine ⟨hmode.trans hcount, ?_⟩
    cases ho : operating c.subject v with
    | false => exact Or.inl (by rw [countTimeouts, ho]; exact hv)
    | true =>
        obtain ⟨ok, hok⟩ := view_countTimeouts env ho
        exact Or.inr ⟨by rw [hcount.operating, ho], ok, by rw [hok, hv]⟩
  · rintro s v hne ⟨hmode, hv⟩
    have hcount : SameMode v (countTimeouts env s v) := sameMode_countTimeouts s
    refine ⟨hmode.trans hcount, ?_⟩
    rwa [view_countTimeouts_ne hne, hcount.operating]

/-- 対処の部分の後。失敗が続いていれば、対象か SysMon に対処している。 -/
structure Responded (c : Check) (w v : World) : Prop where
  suffix : w.log <:+ v.log
  view : view c v = view c w ∨ ∃ own, view c v = (view c w).react own ∧ (own = true → timedOut c w = true)
  reacts : operating c.subject w = true → timedOut c w = true → Reacts c.subject w v ∨ Reacts .sysMon w v
  cleared : v.ram.stage = .running → operating c.subject w = true → timedOut c w = true →
    ∃ own, V2.view c v = (V2.view c w).react own

/-- 対象の番が来る前。SysMon が起動し直すのでなければ、何も変わっていない。 -/
structure Waits (c : Check) (w v : World) : Prop where
  trail : Trail Event.Monitors w v
  view : view c v = view c w
  operating : operating c.subject v = operating c.subject w
  stage : v.ram.stage = .running ∨ Reacts .sysMon w v

theorem stage_react {s : Subject} {q : Check} (h : (react env s q w).ram.stage = .running) :
    w.ram.stage = .running := by
  cases s with
  | sysMon => cases h
  | device d => rwa [stage_react_device] at h

theorem Waits.respond {v : World} {s : Subject} (hne : c.subject ≠ s) (h : Waits c w v) :
    Waits c w (V2.respond env s v) := by
  rcases respond_cases env s v with ⟨heq, -⟩ | ⟨q, hq, -, heq⟩
  · rwa [heq]
  · have htrail : Trail Event.Monitors v (V2.respond env s v) := trail_respond s
    refine ⟨h.trail.trans htrail, ?_, ?_, ?_⟩
    · rw [heq, view_react_ne hq hne, h.view]
    · rw [heq, operating_react_ne hne, h.operating]
    · rw [heq] at htrail ⊢
      cases s with
      | sysMon => exact Or.inr ((reacts_react hq).before h.trail.suffix)
      | device d =>
          rw [stage_react_device]
          exact h.stage.imp_right (Reacts.after · htrail.suffix)

theorem Waits.visit {v : World} (h : Waits c w v) : Responded c w (V2.respond env c.subject v) := by
  have htimed : timedOut c v = timedOut c w := timedOut_congr h.view (threshold_of_monitors h.trail)
  rcases respond_cases env c.subject v with ⟨heq, hquiet⟩ | ⟨q, hq, htq, heq⟩
  · rw [heq]
    -- SysMon が起動し直すのでなければ、失敗は続いていない
    have hnot : v.ram.stage = .running → V2.operating c.subject w = true → timedOut c w ≠ true := by
      intro hs ho ht
      rw [← h.operating] at ho
      rw [← htimed, hquiet hs ho c rfl] at ht
      cases ht
    refine ⟨h.trail.suffix, Or.inl h.view, fun ho ht => ?_, fun hs ho ht => absurd ht (hnot hs ho)⟩
    rcases h.stage with hs | hr
    · exact absurd ht (hnot hs ho)
    · exact Or.inr hr
  · rw [heq]
    have hview : V2.view c (react env c.subject q v) = (V2.view c w).react (decide (q = c)) := by
      rw [view_react hq rfl, h.view]
    have hreacts : Reacts c.subject v (react env c.subject q v) := reacts_react hq
    refine ⟨h.trail.suffix.trans (trail_react c.subject q).suffix, Or.inr ⟨_, hview, fun hown => ?_⟩,
      fun _ _ => Or.inl (hreacts.before h.trail.suffix), fun _ _ _ => ⟨_, hview⟩⟩
    rw [of_decide_eq_true hown, htimed] at htq
    exact htq

theorem Responded.after {v v' : World} (h : Responded c w v) (hs : v.log <:+ v'.log)
    (hview : V2.view c v' = V2.view c v) (hstage : v'.ram.stage = .running → v.ram.stage = .running) :
    Responded c w v' where
  suffix := h.suffix.trans hs
  view := by rw [hview]; exact h.view
  reacts ho ht := (h.reacts ho ht).imp (Reacts.after · hs) (Reacts.after · hs)
  cleared hr := by rw [hview]; exact h.cleared (hstage hr)

theorem Responded.respond {v : World} {s : Subject} (hne : c.subject ≠ s) (h : Responded c w v) :
    Responded c w (V2.respond env s v) := by
  rcases respond_cases env s v with ⟨heq, -⟩ | ⟨q, hq, -, heq⟩
  · rwa [heq]
  · rw [heq]
    exact h.after (trail_react s q).suffix (view_react_ne hq hne) stage_react

theorem responded_foldl (hrun : w.ram.stage = .running) (c : Check) :
    Responded c w (subjects.foldl (fun v s => V2.respond env s v) w) :=
  Run.foldl_visit (p := c.subject) (Q := Waits c w) (P := Responded c w) nodup_subjects (mem_subjects _)
    (fun _ _ hne h => h.respond hne) (fun _ h => h.visit) (fun _ _ hne h => h.respond hne)
    ⟨Trail.refl w, rfl, rfl, Or.inl hrun⟩

theorem Responded.finish {v : World} (h : Responded c w v) :
    Responded c w (if v.ram.stage = .running then V2.finish env v else v) := by
  have hserves : Serves v (V2.finish env v) := serves_finish
  split
  · rename_i hstage
    exact h.after hserves.trail.suffix (hserves.view c) fun _ => hstage
  · exact h

/-- 検査から見た `loop` の一周。`v` は、評価の後、対処の前の状態である。 -/
structure Pass (c : Check) (w v w' : World) : Prop where
  trail : Trail Event.Monitors w v
  evaluated : view c v = view c w ∨ operating c.subject v = true ∧ ∃ ok, view c v = (view c w).evaluate ok
  responded : Responded c v w'

theorem loop_eq (ht : w.ram.timer1Cycle = true) :
    loop env w = if (respondAll env (countAll env (tick w))).ram.stage = .running then
      V2.finish env (respondAll env (countAll env (tick w))) else respondAll env (countAll env (tick w)) := by
  simp only [loop, ht, Bool.true_eq_false, if_false]

theorem pass_loop (env : Env) (hrun : w.ram.stage = .running) (ht : w.ram.timer1Cycle = true) (c : Check) :
    ∃ v, Pass c w v (loop env w) := by
  have hcount : Counted c (tick w) (countAll env (tick w)) := counted_countAll c (tick w)
  have htrail : Trail Event.Monitors (tick w) (countAll env (tick w)) := trail_countAll
  have htick : view c (tick w) = view c w := serves_tick.view c
  rw [loop_eq ht]
  generalize countAll env (tick w) = u at hcount htrail ⊢
  have hbump : Serves u (u.setRam { u.ram with countDeviceReboot := u.ram.countDeviceReboot + 1 }) :=
    Serves.setRam rfl rfl
  have hresp : Responded c (u.setRam { u.ram with countDeviceReboot := u.ram.countDeviceReboot + 1 })
      (respondAll env u) := responded_foldl (hbump.stage.trans (hcount.mode.stage.trans hrun)) c
  refine ⟨_, serves_tick.monitors.trans (htrail.trans hbump.monitors), ?_, hresp.finish⟩
  rw [hbump.view c, ← htick]
  exact hcount.view

/-! ## 不変条件 -/

/-- 回数は、記録の上で続けて失敗した回数に等しく、`n` を超えない。この検査のための対処は、`n` 回以上続けて失敗したときだけである。 -/
structure View.Good (n : UInt8) (v : View) : Prop where
  sync : v.count.toNat = v.streak
  bound : v.streak ≤ n.toNat
  blames : ∀ k ∈ v.blames, n.toNat ≤ k

theorem View.Good.evaluate {v : View} (ok : Bool) (h : v.Good n) (hlt : v.streak < n.toNat) :
    (v.evaluate ok).Good n := by
  have hn := n.toNat_lt
  have hsync := h.sync
  cases ok with
  | true => exact ⟨rfl, Nat.zero_le _, h.blames⟩
  | false =>
      refine ⟨?_, hlt, h.blames⟩
      simp only [View.evaluate, Bool.false_eq_true, if_false]
      rw [UInt8.toNat_add, UInt8.toNat_one]
      omega

theorem View.Good.react {v : View} {own : Bool} (h : v.Good n) (hown : own = true → n.toNat ≤ v.streak) :
    (v.react own).Good n := by
  refine ⟨rfl, Nat.zero_le _, fun k hk => ?_⟩
  cases own with
  | false => exact h.blames k hk
  | true =>
      rcases List.mem_cons.mp hk with rfl | hk
      · exact hown rfl
      · exact h.blames k hk

/-- 検査 `c` についての不変条件。動いている間は、回数は `n` より小さい。 -/
structure Watched (c : Check) (n : UInt8) (w : World) : Prop where
  threshold : readByte c.timeout w = n
  good : (view c w).Good n
  below : w.ram.stage = .running → (view c w).streak < n.toNat

theorem timedOut_iff (ht : readByte c.timeout w = n) (hg : (view c w).Good n) :
    timedOut c w = true ↔ n.toNat ≤ (view c w).streak := by
  rw [timedOut, decide_eq_true_iff, ht, UInt8.le_iff_toNat_le, ← hg.sync]
  rfl

/-- 評価の後。続けて失敗した回数が `n` に達していれば、この周に評価されている。 -/
theorem Watched.pass {v : World} (h : Watched c n w) (hrun : w.ram.stage = .running) (hp : Pass c w v w') :
    readByte c.timeout v = n ∧ (view c v).Good n ∧ (n.toNat ≤ (view c v).streak → operating c.subject v = true) := by
  refine ⟨(threshold_of_monitors hp.trail).trans h.threshold, ?_, ?_⟩
  · rcases hp.evaluated with hv | ⟨-, ok, hv⟩
    · rw [hv]
      exact h.good
    · rw [hv]
      exact h.good.evaluate ok (h.below hrun)
  · intro hle
    rcases hp.evaluated with hv | ⟨ho, -⟩
    · have hlt := h.below hrun
      rw [hv] at hle
      omega
    · exact ho

theorem Watched.loop (hn : 1 ≤ n) (h : Watched c n w) (hrun : w.ram.stage = .running)
    (ht : w.ram.timer1Cycle = true) : Watched c n (V2.loop env w) := by
  have hpos : 0 < n.toNat := UInt8.le_iff_toNat_le.mp hn
  obtain ⟨v, hp⟩ := pass_loop env hrun ht c
  obtain ⟨hthr, hgood, hop⟩ := h.pass hrun hp
  refine ⟨(threshold_of_monitors trail_loop).trans h.threshold, ?_, fun hs => ?_⟩
  · rcases hp.responded.view with hv | ⟨own, hv, hown⟩
    · rw [hv]
      exact hgood
    · rw [hv]
      exact hgood.react fun ho => (timedOut_iff hthr hgood).mp (hown ho)
  · by_cases hle : n.toNat ≤ (view c v).streak
    · obtain ⟨own, hv⟩ := hp.responded.cleared hs (hop hle) ((timedOut_iff hthr hgood).mpr hle)
      rw [hv]
      exact hpos
    · rcases hp.responded.view with hv | ⟨own, hv, -⟩
      · rw [hv]
        exact Nat.lt_of_not_le hle
      · rw [hv]
        exact hpos

theorem Watched.step (hn : 1 ≤ n) (o : Op) (h : Watched c n w) : Watched c n (V2.step env o w) := by
  unfold V2.step
  split
  · rename_i hrun
    cases o with
    | timer1 => exact ⟨h.threshold, h.good, h.below⟩
    | loop =>
        cases ht : w.ram.timer1Cycle with
        | true => exact h.loop hn hrun ht
        | false =>
            simp only [V2.loop, ht, if_true]
            exact h
  · exact h

theorem watched_run (hn : 1 ≤ n) (ops : List Op) (h : Watched c n w) : Watched c n (run env ops w) :=
  List.foldlRecOn ops _ (motive := Watched c n) h fun _ hv o _ => hv.step hn o

theorem watched_setup (c : Check) {e : Eeprom} (hn : 1 ≤ readByte c.timeout (setup env (powerOn e))) :
    Watched c (readByte c.timeout (setup env (powerOn e))) (setup env (powerOn e)) := by
  have htrail : Trail (Event.Writes fun _ => True) (powerOn e) (setup env (powerOn e)) := trail_setup.1
  have hcounts : (setup env (powerOn e)).ram.countTimeout = (powerOn e).ram.countTimeout := trail_setup.2
  have hlog : (streak c (setup env (powerOn e)).log, blames c (setup env (powerOn e)).log) = (0, []) := by
    refine htrail.log_eq (f := fun l => (streak c l, blames c l)) ?_
    rintro ⟨t, e⟩ l he
    cases e with
    | evaluated q ok => exact he.elim
    | reaction q => exact he.elim
    | _ => rfl
  obtain ⟨hstreak, hblames⟩ := Prod.mk.inj hlog
  have hpos := UInt8.le_iff_toNat_le.mp hn
  refine ⟨rfl, ⟨?_, ?_, ?_⟩, fun _ => ?_⟩
  · simp only [view, hcounts, hstreak]
    rfl
  · simp only [view, hstreak]
    exact Nat.zero_le _
  · simp [view, hblames]
  · simp only [view, hstreak]
    exact hpos

/-! ## 対処の時 -/

/-- `n` 回目の失敗の周に、対象か SysMon に対処する。 -/
theorem Watched.reacts (h : Watched c n w) (hrun : w.ram.stage = .running) (ht : w.ram.timer1Cycle = true)
    (hfail : evals c (V2.loop env w).log = false :: evals c w.log) (hn : n.toNat ≤ streak c w.log + 1) :
    Reacts c.subject w (V2.loop env w) ∨ Reacts .sysMon w (V2.loop env w) := by
  obtain ⟨v, hp⟩ := pass_loop env hrun ht c
  obtain ⟨hthr, hgood, hop⟩ := h.pass hrun hp
  have hkeep : evals c v.log = evals c (V2.loop env w).log := by
    rcases hp.responded.view with hv | ⟨own, hv, -⟩
    · exact (congrArg View.evals hv).symm
    · exact (congrArg View.evals hv).symm
  have hstreak : (view c v).streak = streak c w.log + 1 := by
    rcases hp.evaluated with hv | ⟨-, ok, hv⟩
    · have hsame : evals c v.log = evals c w.log := congrArg View.evals hv
      rw [hkeep, hfail] at hsame
      simp at hsame
    · have hnew : evals c v.log = ok :: evals c w.log := congrArg View.evals hv
      rw [hkeep, hfail] at hnew
      obtain ⟨rfl, -⟩ := List.cons.inj hnew
      rw [hv]
      rfl
  have hle : n.toNat ≤ (view c v).streak := by omega
  exact (hp.responded.reacts (hop hle) ((timedOut_iff hthr hgood).mpr hle)).imp
    (Reacts.before · hp.trail.suffix) (Reacts.before · hp.trail.suffix)

/-- EEPROM の値が 1 以上なら、続けて失敗した回数はそれを超えず、動いている間はそれより小さい。検査のための対処は、その値の回数だけ
続けて失敗したときだけである。続けて失敗した回数がその値に達した周には、対象に対処するか、SysMon が起動し直す。 -/
theorem timeouts_bounded (env : Env) (e : Eeprom) (ops : List Op) (c : Check)
    (hn : 1 ≤ readByte c.timeout (setup env (powerOn e))) :
    let w := run env ops (setup env (powerOn e))
    let n := (readByte c.timeout (setup env (powerOn e))).toNat
    (w.ram.countTimeout c).toNat ≤ n ∧
      (w.ram.stage = .running → (w.ram.countTimeout c).toNat < n) ∧
      (∀ x l, x :: l <:+ w.log → x.event = .reaction c → List.replicate n false <+: evals c l) ∧
      (w.ram.stage = .running → w.ram.timer1Cycle = true → evals c (loop env w).log = false :: evals c w.log →
        n ≤ streak c w.log + 1 → Reacts c.subject w (loop env w) ∨ Reacts .sysMon w (loop env w)) := by
  have h : Watched c (readByte c.timeout (setup env (powerOn e))) (run env ops (setup env (powerOn e))) :=
    watched_run hn ops (watched_setup c hn)
  have hcount := h.good.sync
  refine ⟨hcount.le.trans h.good.bound, fun hs => hcount.le.trans_lt (h.below hs), fun x l hs hx => ?_,
    fun hrun ht hfail hle => h.reacts hrun ht hfail hle⟩
  have hle := h.good.blames _ (mem_blames hs hx)
  refine List.IsPrefix.trans ?_ (streak_evals c l)
  exact ⟨List.replicate (streak c l - _) false, by rw [List.replicate_append_replicate, Nat.add_sub_cancel' hle]⟩

/-- `setup` の後で、`bad` の電流計が応答しなくなる環境。 -/
def Env.fading (bad : Subject → Bool) : Env :=
  { Env.ideal with current := fun n s => if 28 ≤ n ∧ bad s = true then none else some (0, 0, 10) }

/-- 電流の異常に、一度の失敗で対処する EEPROM。 -/
def Eeprom.strict : Eeprom :=
  { Eeprom.ready with
    byte := fun c => if c = .powerTimeoutSysMon ∨ c = .powerTimeoutNC then 1 else Eeprom.ready.byte c }

/-- `NC` の電流計だけが応答しなくなると、次の周に `NC` か SysMon に対処する。 -/
theorem timeouts_bounded_fading : ∃ w, w = run (Env.fading (· = .device .nc)) [.timer1]
    (setup (Env.fading (· = .device .nc)) (powerOn Eeprom.strict)) ∧
    (Reacts (.device .nc) w (loop (Env.fading (· = .device .nc)) w) ∨
      Reacts .sysMon w (loop (Env.fading (· = .device .nc)) w)) :=
  ⟨_, rfl, (timeouts_bounded (Env.fading (· = .device .nc)) Eeprom.strict [.timer1] .powerNC
    (by decide +kernel)).2.2.2 (by decide +kernel) (by decide +kernel) (by decide +kernel) (by decide +kernel)⟩

/-- SysMon と `NC` の失敗が同じ周に続けば、SysMon だけが起動し直す。`NC` への対処は行われない。 -/
theorem restart_before_reaction : ∃ w, w = run (Env.fading fun _ => true) [.timer1]
    (setup (Env.fading fun _ => true) (powerOn Eeprom.strict)) ∧
    (∀ s, ∀ c ∈ evaluations s, 1 ≤ readByte c.timeout (setup (Env.fading fun _ => true) (powerOn Eeprom.strict))) ∧
    w.ram.stage = .running ∧ w.ram.timer1Cycle = true ∧
    evals .powerNC (loop (Env.fading fun _ => true) w).log = false :: evals .powerNC w.log ∧
    (readByte Check.powerNC.timeout w).toNat ≤ streak .powerNC w.log + 1 ∧
    ¬ Reacts (.device .nc) w (loop (Env.fading fun _ => true) w) := by
  refine ⟨_, rfl, ?_, by decide +kernel, by decide +kernel, by decide +kernel, by decide +kernel, ?_⟩
  · intro s c hc
    cases s with
    | sysMon => revert c; decide +kernel
    | device d =>
        cases d with
        | nc => revert c; decide +kernel
        | switch => revert c; decide +kernel
        | gn g => revert c; revert g; decide +kernel
  · rintro ⟨x, l, q, hx, hq, -, hs⟩
    have hnone : ∀ q ∈ reactions (.device .nc), blames q (loop (Env.fading fun _ => true)
        (run (Env.fading fun _ => true) [.timer1]
          (setup (Env.fading fun _ => true) (powerOn Eeprom.strict)))).log = [] := by decide +kernel
    have hmem := mem_blames hs hx
    rw [hnone q (mem_reactions.mpr hq)] at hmem
    cases hmem

end Wagman.V2
