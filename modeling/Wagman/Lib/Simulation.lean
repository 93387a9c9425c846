import Mathlib.Data.List.Basic

/-!
# 模倣

抽象的な機械は、操作ごとに結果を返し、必ず進む。具体的な機械は、続けられないときに `none` を返す。一つの操作を模倣できれば、
操作のどの並びも、途中で止まらずに同じ結果を返す。
-/

namespace Simulation

variable {O X A C : Type}

/-- 抽象的な機械の、操作の並びの結果と最後の状態。 -/
def results (step : O → A → X × A) : List O → A → List X × A
  | [], s => ([], s)
  | o :: os, s =>
      let (x, s) := step o s
      let (xs, s) := results step os s
      (x :: xs, s)

/-- 具体的な機械の、操作の並びの結果と最後の状態。 -/
def run (step : O → C → Option (X × C)) : List O → C → Option (List X × C)
  | [], t => some ([], t)
  | o :: os, t => do
      let (x, t) ← step o t
      let (xs, t) ← run step os t
      some (x :: xs, t)

/-- 条件 `V` を満たす操作を、具体的な機械が同じ結果で模倣する。 -/
def Simulates (a : O → A → X × A) (c : O → C → Option (X × C)) (R : A → C → Prop) (V : O → Prop) : Prop :=
  ∀ o s t, V o → R s t → ∃ t', c o t = some ((a o s).1, t') ∧ R (a o s).2 t'

theorem Simulates.run {a : O → A → X × A} {c : O → C → Option (X × C)} {R : A → C → Prop} {V : O → Prop}
    (h : Simulates a c R V) {os : List O} (hos : ∀ o ∈ os, V o) {s : A} {t : C} (hst : R s t) :
    ∃ t', Simulation.run c os t = some ((results a os s).1, t') ∧ R (results a os s).2 t' := by
  induction os generalizing s t with
  | nil => exact ⟨t, rfl, hst⟩
  | cons o os ih =>
      obtain ⟨u, hu, hsu⟩ := h o s t (hos o List.mem_cons_self) hst
      obtain ⟨t', ht', hst'⟩ := ih (fun o ho => hos o (List.mem_cons_of_mem _ ho)) hsu
      refine ⟨t', ?_, hst'⟩
      simp only [Simulation.run, hu, ht', Option.bind_eq_bind, Option.bind_some, results]

end Simulation
