import Mathlib.Data.List.Infix

/-!
# 操作の並びの実行

一歩の実行 `step` は、続けられないときに `none` を返す。操作の並びを順に実行した結果と、
一歩ごとに保たれる性質が並び全体でも保たれることを示す。
-/

namespace Run

variable {S O : Type} (step : O → S → Option S)

/-- 操作を順に実行する。 -/
def run : List O → S → Option S
  | [], s => some s
  | o :: os, s => (step o s).bind (run os)

variable {step}

theorem run_cons {o : O} {os : List O} {s s' : S} :
    run step (o :: os) s = some s' ↔ ∃ t, step o s = some t ∧ run step os t = some s' := by
  simp [run, Option.bind_eq_some_iff]

theorem run_append {os os' : List O} {s s' : S} :
    run step (os ++ os') s = some s' ↔ ∃ t, run step os s = some t ∧ run step os' t = some s' := by
  induction os generalizing s with
  | nil => simp [run]
  | cons o os ih =>
      simp only [List.cons_append, run_cons, ih]
      constructor
      · rintro ⟨u, hu, t, ht, hr⟩
        exact ⟨t, ⟨u, hu, ht⟩, hr⟩
      · rintro ⟨t, ⟨u, hu, ht⟩, hr⟩
        exact ⟨u, hu, t, ht, hr⟩

/-- 実行の各歩が、その前の状態について条件 `C` を満たす。 -/
def Meets (step : O → S → Option S) (C : O → S → Prop) : List O → S → Prop
  | [], _ => True
  | o :: os, s => C o s ∧ ∀ t, step o s = some t → Meets step C os t

instance Meets.decidable {C : O → S → Prop} [∀ o s, Decidable (C o s)] :
    (os : List O) → (s : S) → Decidable (Meets step C os s)
  | [], _ => isTrue trivial
  | o :: os, s =>
      have : Decidable (∀ t, step o s = some t → Meets step C os t) :=
        match h : step o s with
        | none => isTrue fun _ ht => by cases ht
        | some t =>
            match Meets.decidable os t with
            | isTrue hm => isTrue fun _ ht => Option.some.inj ht ▸ hm
            | isFalse hm => isFalse fun hall => hm (hall t rfl)
      inferInstanceAs (Decidable (C o s ∧ _))

theorem Meets.and {C D : O → S → Prop} {os : List O} {s : S} (hC : Meets step C os s)
    (hD : Meets step D os s) :
    Meets step (fun o s => C o s ∧ D o s) os s := by
  induction os generalizing s with
  | nil => trivial
  | cons o os ih => exact ⟨⟨hC.1, hD.1⟩, fun t ht => ih (hC.2 t ht) (hD.2 t ht)⟩

theorem Meets.of_forall {C : O → Prop} {os : List O} (h : ∀ o ∈ os, C o) (s : S) :
    Meets step (fun o _ => C o) os s := by
  induction os generalizing s with
  | nil => trivial
  | cons o os ih => exact ⟨h o (by simp), fun t _ => ih (fun o ho => h o (by simp [ho])) t⟩

/-- 条件 `C` を満たす一歩に保たれる性質は、各歩が `C` を満たす実行の後でも成り立つ。 -/
theorem run_induct_of_meets {C : O → S → Prop} {P : S → Prop}
    (hstep : ∀ o s s', C o s → P s → step o s = some s' → P s')
    {os : List O} {s s' : S} (h : run step os s = some s') (hC : Meets step C os s) (h₀ : P s) :
    P s' := by
  induction os generalizing s with
  | nil => cases h; exact h₀
  | cons o os ih =>
      obtain ⟨t, ht, hr⟩ := run_cons.mp h
      exact ih hr (hC.2 t ht) (hstep o s t hC.1 h₀ ht)

theorem meets_cons {C : O → S → Prop} {o : O} {os : List O} {s t : S} (h : step o s = some t) :
    Meets step C (o :: os) s ↔ C o s ∧ Meets step C os t := by
  refine and_congr_right fun _ => ⟨fun hall => hall t h, fun hm u hu => ?_⟩
  rw [h] at hu
  exact Option.some.inj hu ▸ hm

/-- 一歩で失われて戻らない `Q` が実行の後に成り立つなら、前にも成り立っていた。 -/
theorem run_back {Q : S → Prop} (hback : ∀ o s t, step o s = some t → Q t → Q s)
    {os : List O} {s s' : S} (h : run step os s = some s') (hQ : Q s') : Q s := by
  induction os generalizing s with
  | nil => cases h; exact hQ
  | cons o os ih =>
      obtain ⟨t, ht, hr⟩ := run_cons.mp h
      exact hback o s t ht (ih hr)

/-- 条件 `C` を満たす一歩では不変条件 `I` が保たれ、満たさない一歩では `Q` が失われて戻らないとき、実行の後に `Q` が
成り立つのは、各歩が `C` を満たすときである。 -/
theorem iff_meets {C : O → S → Prop} {I Q : S → Prop} (hI : ∀ s, I s → Q s)
    (hkeep : ∀ o s t, I s → C o s → step o s = some t → I t)
    (hlose : ∀ o s t, I s → ¬C o s → step o s = some t → ¬Q t)
    (hback : ∀ o s t, step o s = some t → Q t → Q s)
    {os : List O} {s s' : S} (h : run step os s = some s') (h₀ : I s) :
    Q s' ↔ Meets step C os s := by
  induction os generalizing s with
  | nil =>
      cases h
      exact iff_of_true (hI _ h₀) trivial
  | cons o os ih =>
      obtain ⟨t, ht, hr⟩ := run_cons.mp h
      rw [meets_cons ht]
      by_cases hC : C o s
      · rw [ih hr (hkeep o s t h₀ hC ht)]
        exact (and_iff_right hC).symm
      · exact iff_of_false (fun hQ => hlose o s t h₀ hC ht (run_back hback hr hQ)) fun hm => hC hm.1

/-- 目標 `P` に達するまでの一歩ごとに `μ` が減るなら、同じ操作を繰り返して `P` に達する。 -/
theorem run_reaches {μ : S → Nat} {I P : S → Prop} {o : O}
    (hstep : ∀ s, I s → ¬P s → ∃ s', step o s = some s' ∧ I s' ∧ μ s' < μ s) (s : S) (h : I s) :
    ∃ n s', run step (List.replicate n o) s = some s' ∧ I s' ∧ P s' := by
  induction hm : μ s using Nat.strong_induction_on generalizing s with
  | _ m ih =>
      by_cases hP : P s
      · exact ⟨0, s, rfl, h, hP⟩
      · obtain ⟨t, ht, hI, hlt⟩ := hstep s h hP
        obtain ⟨n, s', hr, hI', hP'⟩ := ih (μ t) (hm ▸ hlt) t hI rfl
        exact ⟨n + 1, s', run_cons.mpr ⟨t, ht, hr⟩, hI', hP'⟩

/-- 並びの各要素について `f` を行うとき、一度だけ現れる `p` の前では `Q`、後では `P` が保たれるなら、最後に `P` が
成り立つ。 -/
theorem foldl_visit {ι : Type} {f : S → ι → S} {p : ι} {Q P : S → Prop} {is : List ι} (hn : is.Nodup)
    (hp : p ∈ is)
    (hbefore : ∀ i s, p ≠ i → Q s → Q (f s i)) (hvisit : ∀ s, Q s → P (f s p))
    (hafter : ∀ i s, p ≠ i → P s → P (f s i)) {s : S} (h : Q s) : P (is.foldl f s) := by
  obtain ⟨l₁, l₂, rfl⟩ := List.append_of_mem hp
  rw [List.nodup_append, List.nodup_cons] at hn
  obtain ⟨-, ⟨hp₂, -⟩, hdisj⟩ := hn
  rw [List.foldl_append, List.foldl_cons]
  have hq : Q (l₁.foldl f s) :=
    List.foldlRecOn l₁ f h fun s hs i hi => hbefore i s (fun he => hdisj i hi p (by simp) he.symm) hs
  exact List.foldlRecOn l₂ f (hvisit _ hq) fun s hs i hi => hafter i s (fun he => hp₂ (he ▸ hi)) hs

end Run
