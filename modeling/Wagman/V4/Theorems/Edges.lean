import Wagman.V4.Edges
import Wagman.V4.Lemmas.Step
import Wagman.Lib.Samples

/-!
# 検出された変化と `heartbeatCounters[2]`

`checkPinHB` は `detectHB[2]` に、前の値と違っていたかどうかを代入する。違っていたことを残すのではないので、`loop` が調べる
ときに真であるのは、最後の `checkPinHB` が変化を見て、その後に消されていないときに限る。数えすぎることはない。
-/

namespace Wagman.V4.Edges

open Machine

/-! ## 不変条件 -/

/-- `loop` が `detectHB[2]` を真と読んで、まだ数えていない。 -/
def Phase.pending : Phase → Nat
  | .rest => 0
  | .seen i => if i = 2 then 1 else 0
  | .cleared i => if i = 2 then 1 else 0

/-- 変化の検出と、その経過の対応。`n` は見られた変化の回数である。`loop` が真と読んでから消すまでの間は、`detectHB[2]` の値は
捨てられる。 -/
structure Tracks (n : Nat) (x : Shared × History) : Prop where
  level : x.1.lastHBPinState 2 = x.2.level
  flag : x.1.phase ≠ .seen 2 → (x.1.detectHB 2 = true ↔ x.2.since.head? = some (.ran true))
  bound : x.2.increments + x.1.phase.pending ≤ n
  boundDetected : x.1.phase ≠ .seen 2 → x.2.increments + x.1.phase.pending + (x.1.detectHB 2).toNat ≤ n

theorem tracks_start : Tracks 0 start :=
  ⟨rfl, fun _ => by simp [start], Nat.le_refl _, fun _ => Nat.le_refl _⟩

section Step

variable {n : Nat} {x y : Shared × History}

theorem Shared.checkPinHB_detectHB (state : Bool) (s : Shared) :
    (s.checkPinHB state).detectHB 2 = (state != s.lastHBPinState 2) := by
  simp [Shared.checkPinHB, Function.update]

theorem Shared.checkPinHB_lastHBPinState (state : Bool) (s : Shared) :
    (s.checkPinHB state).lastHBPinState 2 = state := by
  simp [Shared.checkPinHB]

theorem Tracks.checkPinHB (hx : Tracks n x) (state : Bool) :
    Tracks (n + if x.1.lastHBPinState 2 ≠ state then 1 else 0)
      (x.1.checkPinHB state, x.2.record (.checkPinHB state) x.1) := by
  have hb := hx.bound
  have hphase : (x.1.checkPinHB state).phase = x.1.phase := rfl
  have hincrements : (x.2.record (.checkPinHB state) x.1).increments = x.2.increments := rfl
  have hedge : (state != x.1.lastHBPinState 2).toNat = if x.1.lastHBPinState 2 ≠ state then 1 else 0 := by
    cases state <;> cases x.1.lastHBPinState 2 <;> rfl
  refine ⟨Shared.checkPinHB_lastHBPinState state x.1, fun _ => ?_, Nat.le_trans hb (Nat.le_add_right _ _), fun _ => ?_⟩
  · rw [Shared.checkPinHB_detectHB, hx.level]
    simp [History.record]
  · rw [Shared.checkPinHB_detectHB, hedge, hphase, hincrements]
    exact Nat.add_le_add_right hb _

/-! 一歩でできること。 -/

section Inversion

variable {s s' : Shared} {i : Port}

theorem Shared.step_examine (h : s.step (.examine i) = some s') :
    s.phase = .rest ∧ s' = if s.detectHB i then { s with phase := .seen i } else s := by
  simp only [Shared.step] at h
  split at h
  · rename_i hp
    exact ⟨hp, (Option.some.inj h).symm⟩
  · cases h

theorem Shared.step_clear (h : s.step .clear = some s') : ∃ i, s.phase = .seen i ∧
    s' = { s with detectHB := Function.update s.detectHB i false, phase := .cleared i } := by
  simp only [Shared.step] at h
  split at h
  · rename_i i hp
    exact ⟨i, hp, (Option.some.inj h).symm⟩
  · cases h

theorem Shared.step_count (h : s.step .count = some s') : ∃ i, s.phase = .cleared i ∧
    s' = { s with
      heartbeatCounters := Function.update s.heartbeatCounters i (s.heartbeatCounters i + 1), phase := .rest } := by
  simp only [Shared.step] at h
  split at h
  · rename_i i hp
    exact ⟨i, hp, (Option.some.inj h).symm⟩
  · cases h

theorem Shared.step_updateHeartbeat (h : s.step (.updateHeartbeat i) = some s') :
    s.phase = .rest ∧ ∃ c, s' = { s with heartbeatCounters := c } := by
  simp only [Shared.step] at h
  split at h
  · rename_i hp
    refine ⟨hp, ?_⟩
    rw [← Option.some.inj h]
    split
    · exact ⟨_, rfl⟩
    · exact ⟨s.heartbeatCounters, rfl⟩
  · cases h

end Inversion

section Preserve

variable {s s' : Shared} {h : History}

theorem Tracks.examine {i : Port} (hx : Tracks n (s, h)) (hs : s.step (.examine i) = some s') :
    Tracks n (s', h.record (.examine i) s) := by
  obtain ⟨hlevel, hflag, hbound, hdetected⟩ := hx
  obtain ⟨hp, rfl⟩ := Shared.step_examine hs
  simp only at hlevel hflag hbound hdetected
  have hd := hdetected (by rw [hp]; nofun)
  have hf := hflag (by rw [hp]; nofun)
  rw [hp] at hd
  by_cases hi : i = 2
  · subst hi
    cases hdet : s.detectHB 2 with
    | true =>
        rw [hdet] at hd
        simp only [if_true, History.record]
        exact ⟨hlevel, fun h => absurd rfl h, hd, fun h => absurd rfl h⟩
    | false =>
        simp only [Bool.false_eq_true, if_false, if_true, History.record]
        exact ⟨hlevel, fun _ => by simp [hdet], hbound, hdetected⟩
  · simp only [History.record, hi, if_false]
    split
    · refine ⟨hlevel, fun _ => hf, ?_, fun _ => ?_⟩
      · simpa [Phase.pending, hi, hp] using hbound
      · simpa [Phase.pending, hi] using hd
    · exact ⟨hlevel, hflag, hbound, hdetected⟩

theorem Tracks.clear (hx : Tracks n (s, h)) (hs : s.step .clear = some s') : Tracks n (s', h.record .clear s) := by
  obtain ⟨hlevel, hflag, hbound, hdetected⟩ := hx
  obtain ⟨i, hp, rfl⟩ := Shared.step_clear hs
  simp only at hlevel hflag hbound hdetected
  by_cases hi : i = 2
  · subst hi
    simp only [History.record, hp, if_true]
    rw [hp] at hbound
    exact ⟨hlevel, fun _ => by simp, hbound, fun _ => by simpa [Phase.pending] using hbound⟩
  · have hne : s.phase ≠ .seen 2 := by rw [hp]; simpa using hi
    have hd := hdetected hne
    have hf := hflag hne
    simp only [History.record, hne, if_false]
    rw [hp] at hbound hd
    refine ⟨hlevel, fun _ => ?_, hbound, fun _ => ?_⟩
    · simpa [Function.update, Ne.symm hi] using hf
    · simpa [Phase.pending, Function.update, Ne.symm hi] using hd

theorem Tracks.count (hx : Tracks n (s, h)) (hs : s.step .count = some s') : Tracks n (s', h.record .count s) := by
  obtain ⟨hlevel, hflag, hbound, hdetected⟩ := hx
  obtain ⟨i, hp, rfl⟩ := Shared.step_count hs
  simp only at hlevel hflag hbound hdetected
  have hne : s.phase ≠ .seen 2 := by rw [hp]; nofun
  have hd := hdetected hne
  have hf := hflag hne
  rw [hp] at hbound hd
  by_cases hi : i = 2
  · subst hi
    simp only [History.record, hp, if_true]
    exact ⟨hlevel, fun _ => hf, hbound, fun _ => hd⟩
  · have hne' : s.phase ≠ .cleared 2 := by rw [hp]; simpa using hi
    simp only [History.record, hne', if_false]
    simp only [Phase.pending, hi, if_false] at hbound hd
    exact ⟨hlevel, fun _ => hf, hbound, fun _ => hd⟩

end Preserve

/-- ピンを見ない操作は、見られた変化の回数を変えない。 -/
theorem Tracks.step {o : Op} (ho : o.sample = none) (hx : Tracks n x) (h : Edges.step o x = some y) :
    y.1.lastHBPinState = x.1.lastHBPinState ∧ Tracks n y := by
  simp only [Edges.step, Option.map_eq_some_iff] at h
  obtain ⟨s', hs, rfl⟩ := h
  cases o with
  | checkPinHB state => cases ho
  | examine i =>
      obtain ⟨-, heq⟩ := Shared.step_examine hs
      refine ⟨?_, hx.examine hs⟩
      rw [heq]
      split
      · rfl
      · rfl
  | clear =>
      obtain ⟨i, -, heq⟩ := Shared.step_clear hs
      exact ⟨by rw [heq], hx.clear hs⟩
  | count =>
      obtain ⟨i, -, heq⟩ := Shared.step_count hs
      exact ⟨by rw [heq], hx.count hs⟩
  | updateHeartbeat i =>
      obtain ⟨-, c, rfl⟩ := Shared.step_updateHeartbeat hs
      exact ⟨rfl, hx.level, hx.flag, hx.bound, hx.boundDetected⟩

theorem Tracks.run {ops : List Op} (h : Run.run Edges.step ops start = some x) :
    Tracks (Samples.changes (false :: samples ops)) x := by
  have hrun := Samples.run_induct Op.sample (fun x => x.1.lastHBPinState 2) Tracks ?_ ?_ h tracks_start
  · rwa [Nat.zero_add] at hrun
  · rintro (state | i | - | - | i) x y n level hl hx hs
    · obtain rfl : state = level := Option.some.inj hl
      cases hs
      exact ⟨Shared.checkPinHB_lastHBPinState state x.1, hx.checkPinHB state⟩
    · cases hl
    · cases hl
    · cases hl
    · cases hl
  · intro o x y n ho hx hs
    obtain ⟨hlast, hy⟩ := hx.step ho hs
    exact ⟨congrFun hlast 2, hy⟩

end Step

/-! ## 調べたときに数えるか -/

def Op.examines : Op → Bool
  | .examine _ => true
  | _ => false

/-- 次に `detectHB[2]` を調べたとき、`loop` は、割り込みがどのように入っても `heartbeatCounters[2]` を一つ増やす。 -/
def Counts (x : Shared × History) : Prop :=
  ∀ ops y, (∀ o ∈ ops, o.examines = false) → Run.run step (.examine 2 :: ops) x = some y → y.1.phase = .rest →
    y.2.increments = x.2.increments + 1

/-- `detectHB[2]` を真と読んでから、数え終えるまで。 -/
def Counting (k : Nat) (x : Shared × History) : Prop :=
  (x.1.phase = .seen 2 ∧ x.2.increments = k) ∨ (x.1.phase = .cleared 2 ∧ x.2.increments = k) ∨
    (x.1.phase = .rest ∧ x.2.increments = k + 1)

theorem Counting.step {k : Nat} {o : Op} {x y : Shared × History} (ho : o.examines = false) (hx : Counting k x)
    (h : Edges.step o x = some y) : Counting k y := by
  obtain ⟨s, h'⟩ := x
  simp only [Edges.step, Option.map_eq_some_iff] at h
  obtain ⟨s', hs, rfl⟩ := h
  simp only [Counting] at hx ⊢
  cases o with
  | checkPinHB state => cases hs; exact hx
  | examine i => cases ho
  | clear =>
      obtain ⟨i, hp, rfl⟩ := Shared.step_clear hs
      simp only [hp, Phase.seen.injEq, reduceCtorEq, false_and, or_false] at hx
      obtain ⟨rfl, hk⟩ := hx
      simp [History.record, hp, hk]
  | count =>
      obtain ⟨i, hp, rfl⟩ := Shared.step_count hs
      simp only [hp, Phase.cleared.injEq, reduceCtorEq, false_and, or_false, false_or] at hx
      obtain ⟨rfl, hk⟩ := hx
      simp [History.record, hp, hk]
  | updateHeartbeat i =>
      obtain ⟨-, c, rfl⟩ := Shared.step_updateHeartbeat hs
      exact hx

/-- 次に調べたときに数えるのは、`detectHB[2]` が真であるときに限る。 -/
theorem counts_iff {x : Shared × History} (hp : x.1.phase = .rest) : Counts x ↔ x.1.detectHB 2 = true := by
  constructor
  · intro h
    by_contra hd
    have hrun : Run.run step [.examine 2] x = some (x.1, { x.2 with since := [] }) := by
      simp [Run.run, step, Shared.step, hp, hd, History.record]
    have hc := h [] _ (by simp) hrun hp
    simp at hc
  · intro hd ops y ho hrun hy
    obtain ⟨z, hz, hrun⟩ := Run.run_cons.mp hrun
    have hseen : Counting x.2.increments z := by
      simp only [step, Shared.step, hp, hd, if_true, Option.map_some, Option.some.injEq] at hz
      subst hz
      exact Or.inl ⟨rfl, by simp [History.record]⟩
    have hc := Run.run_induct_of_meets (C := fun o _ => o.examines = false) (P := Counting x.2.increments)
      (fun _ _ _ ho hx hs => hx.step ho hs) hrun (Run.Meets.of_forall ho z) hseen
    rcases hc with ⟨h, -⟩ | ⟨h, -⟩ | ⟨-, h⟩
    · rw [hy] at h; cases h
    · rw [hy] at h; cases h
    · exact h

/-- 割り込みと `loop` がどのように入り組んでも、`loop` が `detectHB[2]` を調べるときに、前に調べてから変化を見た割り込みが
あれば必ず数えるのは、変化を見た割り込みがないか、最後の割り込みが変化を見てその後に消されていないとき、またそのときに限る。
数えた回数は、見られたピンの値が、初めの値 `LOW` から数えて変わった回数を超えない。 -/
theorem edges_counted_iff {ops : List Op} {x : Shared × History} (h : Run.run step ops start = some x) :
    (x.1.phase = .rest → ((.ran true ∈ x.2.since → Counts x) ↔
      .ran true ∉ x.2.since ∨ x.2.since.head? = some (.ran true))) ∧
    x.2.increments ≤ Samples.changes (false :: samples ops) := by
  have hx := Tracks.run h
  refine ⟨fun hp => ?_, Nat.le_trans (Nat.le_add_right _ _) hx.bound⟩
  rw [counts_iff hp, hx.flag (by rw [hp]; nofun), imp_iff_not_or]

/-- 変化を見た割り込みの直後に調べれば、数える。 -/
theorem edges_counted_iff_last :
    ∃ x, Run.run step [.checkPinHB true] start = some x ∧ .ran true ∈ x.2.since ∧ Counts x := by
  obtain ⟨x, hx⟩ := Option.isSome_iff_exists.mp (by decide : (Run.run step [.checkPinHB true] start).isSome = true)
  have hphase : ((Run.run step [.checkPinHB true] start).all fun x =>
      decide (x.1.phase = .rest ∧ x.2.since = [.ran true])) = true := by decide
  rw [hx] at hphase
  obtain ⟨hp, hs⟩ : x.1.phase = .rest ∧ x.2.since = [.ran true] := of_decide_eq_true hphase
  exact ⟨x, hx, by simp [hs], ((edges_counted_iff hx).1 hp).mpr (Or.inr (by simp [hs])) (by simp [hs])⟩

/-- 変化を見た割り込みの後に、変化のない割り込みが入ると、`loop` は調べても数えない。 -/
theorem edge_overwritten : ∃ x, Run.run step [.checkPinHB true, .checkPinHB true] start = some x ∧
    x.1.phase = .rest ∧ .ran true ∈ x.2.since ∧
    Samples.changes (false :: samples [.checkPinHB true, .checkPinHB true]) = 1 ∧ ¬ Counts x := by
  obtain ⟨x, hx⟩ := Option.isSome_iff_exists.mp
    (by decide : (Run.run step [.checkPinHB true, .checkPinHB true] start).isSome = true)
  have hall : ((Run.run step [.checkPinHB true, .checkPinHB true] start).all fun x =>
      decide (x.1.phase = .rest ∧ x.2.since = [.ran false, .ran true] ∧ x.1.detectHB 2 = false)) = true := by
    decide
  rw [hx] at hall
  obtain ⟨hp, hs, hd⟩ : x.1.phase = .rest ∧ x.2.since = [.ran false, .ran true] ∧ x.1.detectHB 2 = false :=
    of_decide_eq_true hall
  refine ⟨x, hx, hp, by simp [hs], by decide, fun hc => ?_⟩
  rw [counts_iff hp, hd] at hc
  cases hc

/-! ## 常用ファームウェアとの対応 -/

section Refine

variable {env : Env}

/-- 割り込みは、常用ファームウェアの `checkPinHB` である。 -/
theorem ofRam_checkPinHB (state : Bool) (w : World) :
    (Shared.ofRam w.ram).step (.checkPinHB state) = some (.ofRam (V4.checkPinHB state w).ram) := rfl

theorem onHeartbeat_ofRam (i : Port) (w : World) : Shared.ofRam (Device.onHeartbeat env i w).ram = .ofRam w.ram := by
  cases hs : (dev w i).state with
  | disabled =>
      rw [Device.onHeartbeat_of_disabled env hs]
      split
      · rfl
      · rfl
  | stopped =>
      rw [Device.onHeartbeat_of_stopped env hs]
      rfl
  | started =>
      rw [Device.onHeartbeat_of_powered env (Or.inl hs)]
      rfl
  | stopping =>
      rw [Device.onHeartbeat_of_powered env (Or.inr hs)]
      rfl

theorem ofRam_updateHeartbeat (i : Port) (w : World) :
    (Shared.ofRam w.ram).step (.updateHeartbeat i) = some (.ofRam (Device.updateHeartbeat env i w).ram) := by
  unfold Device.updateHeartbeat
  by_cases hc : 4 ≤ w.ram.heartbeatCounters i
  · rw [if_pos hc, onHeartbeat_ofRam]
    simp [Shared.step, Shared.ofRam, hc]
  · rw [if_neg hc]
    simp [Shared.step, Shared.ofRam, hc]

/-- 並び `is` の検出を調べ終えた変数。 -/
def Shared.examined (is : List Port) (s : Shared) : Shared :=
  { s with
    detectHB := fun i => decide (i ∉ is) && s.detectHB i
    heartbeatCounters := fun i =>
      if i ∈ is ∧ s.detectHB i = true then s.heartbeatCounters i + 1 else s.heartbeatCounters i }

theorem run_examine {s : Shared} (hp : s.phase = .rest) (i : Port) :
    Run.run Shared.step (examineAll s.detectHB [i]) s = some (s.examined [i]) := by
  have hcounters : ∀ j, Function.update s.heartbeatCounters i (s.heartbeatCounters i + 1) j =
      if j = i then s.heartbeatCounters j + 1 else s.heartbeatCounters j := by
    intro j
    by_cases hj : j = i
    · simp [hj]
    · simp [hj]
  have hdetect : ∀ j, Function.update s.detectHB i false j = (decide (j ≠ i) && s.detectHB j) := by
    intro j
    by_cases hj : j = i
    · simp [hj]
    · simp [hj]
  cases hd : s.detectHB i with
  | true =>
      simp only [examineAll, List.flatMap_cons, List.flatMap_nil, List.append_nil, hd, if_true, Run.run, Shared.step, hp,
        Option.bind_some, Shared.examined, List.mem_singleton]
      refine congrArg some ?_
      rw [Shared.mk.injEq]
      refine ⟨funext hdetect, rfl, funext fun j => (hcounters j).trans ?_, rfl⟩
      by_cases hj : j = i
      · simp [hj, hd]
      · simp [hj]
  | false =>
      simp only [examineAll, List.flatMap_cons, List.flatMap_nil, List.append_nil, hd, if_false, Run.run, Shared.step, hp,
        Option.bind_some, Shared.examined, List.mem_singleton, Bool.false_eq_true]
      refine congrArg some ?_
      obtain ⟨d, l, c, phase⟩ := s
      rw [Shared.mk.injEq]
      refine ⟨funext fun j => ?_, rfl, funext fun j => ?_, hp⟩
      · by_cases hj : j = i
        · simpa [hj] using hd
        · simp [hj]
      · by_cases hj : j = i
        · simp only at hd
          simp [hj, hd]
        · simp [hj]

theorem run_examineAll {is : List Port} (hn : is.Nodup) {d : Port → Bool} {s : Shared} (hp : s.phase = .rest)
    (hd : ∀ i ∈ is, d i = s.detectHB i) : Run.run Shared.step (examineAll d is) s = some (s.examined is) := by
  induction is generalizing s with
  | nil => simp [examineAll, Run.run, Shared.examined]
  | cons i is ih =>
      obtain ⟨hi, hn⟩ := List.nodup_cons.mp hn
      have hsplit : examineAll d (i :: is) = examineAll s.detectHB [i] ++ examineAll d is := by
        simp [examineAll, hd i (by simp)]
      have hne : ∀ j ∈ is, j ≠ i := fun j hj h => hi (h ▸ hj)
      rw [hsplit, Run.run_append]
      refine ⟨s.examined [i], run_examine hp i, ?_⟩
      rw [ih hn (s := s.examined [i]) hp]
      · refine congrArg some ?_
        simp only [Shared.examined, Shared.mk.injEq, and_true, true_and]
        constructor
        · funext j
          by_cases hj : j = i
          · simp [hj]
          · simp [hj]
        · funext j
          by_cases hj : j = i
          · simp [hj, hi]
          · simp [hj]
      · intro j hj
        simp [Shared.examined, hne j hj, hd j (by simp [hj])]

theorem updateLEDs_ram (w : World) : (updateLEDs env w).ram = { w.ram with
    detectHB := fun i => if w.ram.detectHB i then false else w.ram.detectHB i
    heartbeatCounters := fun i =>
      if w.ram.detectHB i then w.ram.heartbeatCounters i + 1 else w.ram.heartbeatCounters i } := by
  have hread : ((List.finRange 5).foldl (fun w _ => ioRead env w) w).ram = w.ram :=
    (Still.foldl (A := fun _ => True) (fun _ _ _ => still_ioRead) w).ram
  have hblink : ∀ (v : World) (f : Port → Bool), (v |> setLED env 0 false |> blink env f false
      |> delay env 50 |> setLED env 0 true |> blink env f true).ram = v.ram := fun v f =>
    ((Idle.setLED _ _).trans <| (idle_blink _ _).trans <| (still_delay _).trans <| (Idle.setLED _ _).trans
      (idle_blink _ _)).ram
  have hlast : ∀ (v : World) (g : Port → Bool),
      ((List.finRange 5).foldl (fun w i => setLED env (i.val + 1) (g i) w) v).ram = v.ram := fun v g =>
    (Still.foldl (A := Event.Quiet) (fun _ _ _ => Idle.setLED _ _) v).ram
  simp only [updateLEDs]
  rw [hlast, hblink]
  simp only [setRam_ram, hread]

/-- 割り込みが入らなければ、`loop` の末尾は、五つのポートを順に調べる操作である。 -/
theorem ofRam_updateLEDs (w : World) :
    Run.run Shared.step (examineAll w.ram.detectHB (List.finRange 5)) (.ofRam w.ram) =
    some (.ofRam (updateLEDs env w).ram) := by
  rw [run_examineAll (d := w.ram.detectHB) (s := .ofRam w.ram) (List.nodup_finRange 5) rfl (fun _ _ => rfl),
    updateLEDs_ram]
  simp only [Shared.examined, Shared.ofRam, List.mem_finRange, not_true_eq_false, decide_false, Bool.false_and, true_and,
    Option.some.injEq, Shared.mk.injEq, and_true]
  refine funext fun i => ?_
  cases w.ram.detectHB i <;> rfl

end Refine

end Wagman.V4.Edges
