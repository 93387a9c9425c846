import Wagman.V3.Lemmas.Serial

/-!
# 命令の出力

機器の操作は何も書かず、命令は印を含まない行だけを書く。よって、実行が `Serial` に書くのは、命令ごとの応答の並びである。
-/

namespace Wagman.V3.Serial

open Machine

/-! ## 書かない操作 -/

/-- `Serial` に書かない事象。 -/
def Silent : Event → Prop
  | .print _ => False
  | _ => True

/-- `w` から `w'` まで、何も書かない。 -/
abbrev Mute (w w' : World) : Prop := Trail Silent w w'

section Mute

variable {env : Env} {i : Port} {w : World}

end Mute

/-! ## 書いたバイト -/

section Said

variable {float : UInt32 → List UInt8} {env : Env} {w w' w'' : World}

theorem said_eq (h : Mute w w') : said float w'.log = said float w.log := by
  refine h.log_eq fun x l hx => ?_
  rw [said, List.reverse_cons, List.flatMap_append, List.flatMap_singleton]
  obtain ⟨t, e⟩ := x
  cases e with
  | print o => exact hx.elim
  | _ => exact List.append_nil _

theorem said_prints (outs : List Out) (w : World) :
    said float (prints env outs w).log = said float w.log ++ outs.flatMap (render float) := by
  induction outs generalizing w with
  | nil => exact (List.append_nil _).symm
  | cons o outs ih =>
      have hone : said float (print env o w).log = said float w.log ++ render float o := by
        show said float (⟨w.now, .print o⟩ :: w.log) = _
        rw [said, List.reverse_cons, List.flatMap_append, List.flatMap_singleton]
        rfl
      refine (ih (print env o w)).trans ?_
      rw [hone, List.flatMap_cons, List.append_assoc]

variable (float)

/-- 行の途中まで、印を含まない文字だけを書く。 -/
def Says (w w' : World) : Prop := ∃ s, (∀ b ∈ s, plain b = true) ∧ said float w'.log = said float w.log ++ s

/-- 印を含まない行だけを書く。 -/
def Body (w w' : World) : Prop :=
  ∃ ls : List Line, (∀ l ∈ ls, ∀ b ∈ l, plain b = true) ∧ said float w'.log = said float w.log ++ wire ls

variable {float}

theorem Says.of_mute (h : Mute w w') : Says float w w' :=
  ⟨[], fun _ hb => (List.not_mem_nil hb).elim, (said_eq h).trans (List.append_nil _).symm⟩

theorem Says.trans (h₁ : Says float w w') (h₂ : Says float w' w'') : Says float w w'' := by
  obtain ⟨s₁, hp₁, hs₁⟩ := h₁
  obtain ⟨s₂, hp₂, hs₂⟩ := h₂
  refine ⟨s₁ ++ s₂, fun b hb => (List.mem_append.mp hb).elim (hp₁ b) (hp₂ b), ?_⟩
  rw [hs₂, hs₁, List.append_assoc]

theorem Says.foldl {α : Type} {f : World → α → World} {as : List α} (hf : ∀ w, ∀ a ∈ as, Says float w (f w a))
    (w : World) :
    Says float w (as.foldl f w) := by
  induction as generalizing w with
  | nil => exact .of_mute (Trail.refl w)
  | cons a as ih =>
      exact (hf w a List.mem_cons_self).trans (ih (fun w b hb => hf w b (List.mem_cons_of_mem _ hb)) _)

theorem Body.of_mute (h : Mute w w') : Body float w w' :=
  ⟨[], fun _ hl => (List.not_mem_nil hl).elim, (said_eq h).trans (List.append_nil _).symm⟩

theorem Body.refl (w : World) : Body float w w := .of_mute (Trail.refl w)

theorem Body.trans (h₁ : Body float w w') (h₂ : Body float w' w'') : Body float w w'' := by
  obtain ⟨l₁, hp₁, hs₁⟩ := h₁
  obtain ⟨l₂, hp₂, hs₂⟩ := h₂
  refine ⟨l₁ ++ l₂, fun l hl => (List.mem_append.mp hl).elim (hp₁ l) (hp₂ l), ?_⟩
  rw [hs₂, hs₁, List.append_assoc, wire, wire, wire, List.flatMap_append]

theorem Body.foldl {α : Type} {f : World → α → World} (hf : ∀ w a, Body float w (f w a)) (as : List α) (w : World) :
    Body float w (as.foldl f w) := by
  induction as generalizing w with
  | nil => exact .refl w
  | cons a as ih => exact (hf w a).trans (ih _)

theorem Body.eachPort {f : Port → World → World} (hf : ∀ i w, Body float w (f i w)) : Body float w (eachPort f w) :=
  .foldl (fun w i => hf i w) _ w

/-- 途中まで書いた行を終える。 -/
theorem Says.newline (h : Says float w w') : Body float w (print env .newline w') := by
  obtain ⟨s, hp, hs⟩ := h
  refine ⟨[s], fun l hl => by rw [List.mem_singleton.mp hl]; exact hp, ?_⟩
  have hprint := @said_prints float env [.newline] w'
  refine hprint.trans ?_
  rw [hs, List.append_assoc, wire, List.flatMap_singleton, List.flatMap_singleton]
  rfl

/-- 印を含まない項目。 -/
def Plain (float : UInt32 → List UInt8) (o : Out) : Prop := ∀ b ∈ render float o, plain b = true

end Said

/-! ## 命令 -/

section Commands

variable {float : UInt32 → List UInt8} {env : Env} {w : World}

end Commands

end Wagman.V3.Serial
