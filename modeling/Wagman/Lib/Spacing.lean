import Wagman.Lib.Machine

/-!
# 事象の間隔

事象ごとに、次の事象までに空けるべき時間を定める。実行のどこでも「あと `slack` ミリ秒で、どの事象の定める時間も過ぎる」ことが
保たれ、次の事象の前に `slack` ミリ秒以上待つなら、記録の中のどの二つの事象も、定められた時間だけ離れている。
-/

namespace Machine

variable {H R E : Type}

/-- `hold` が時間を定める事象どうしは、前の事象の定める時間だけ離れている。記録は新しいものが先頭にある。 -/
def Spaced (hold : E → Option Nat) (log : List (Entry E)) : Prop :=
  log.Pairwise fun x y => (hold x.event).isSome → ∀ d ∈ hold y.event, y.time + d ≤ x.time

/-- 間隔が守られていて、あと `slack` ミリ秒で、どの事象の定める時間も過ぎる。 -/
structure Paced (hold : E → Option Nat) (slack : Nat) (m : Machine H R E) : Prop where
  spaced : Spaced hold m.log
  rested : ∀ x ∈ m.log, ∀ d ∈ hold x.event, x.time + d ≤ m.now + slack

section Spaced

variable {hold : E → Option Nat} {e : E} {t d slack : Nat} {log new : List (Entry E)}

/-- 間隔に関わらない事象を加えても、間隔は守られている。 -/
theorem Spaced.append (h : Spaced hold log) (hnew : ∀ x ∈ new, hold x.event = none) : Spaced hold (new ++ log) := by
  refine List.pairwise_append.mpr ⟨List.Pairwise.imp_of_mem ?_ (List.pairwise_of_forall fun _ _ => trivial), h, ?_⟩
  · intro x y hx _ _ hs
    rw [hnew x hx] at hs
    cases hs
  · intro x hx y _ hs
    rw [hnew x hx] at hs
    cases hs

theorem Spaced.cons (h : Spaced hold log) (ht : ∀ x ∈ log, ∀ d ∈ hold x.event, x.time + d ≤ t) :
    Spaced hold (⟨t, e⟩ :: log) :=
  List.pairwise_cons.mpr ⟨fun y hy _ => ht y hy, h⟩

end Spaced

/-- 入出力で起きた事象の後、時間だけが経つ。 -/
theorem Trail.of_mark [Effect H E] {A : E → Prop} (lat : Nat → Nat) {e : E} {m : Machine H R E} :
    Trail A (m.mark e) (m.emit lat e) :=
  ⟨Nat.le_add_right _ _, [], rfl, rfl, fun _ hx => (List.not_mem_nil hx).elim⟩

namespace Paced

variable [Effect H E] {hold : E → Option Nat} {e : E} {d slack : Nat} {m m' u : Machine H R E}

theorem of_trail (ht : Trail (fun e => hold e = none) m m') (h : Paced hold slack m) : Paced hold slack m' := by
  obtain ⟨hnow, new, hl, -, ha⟩ := ht
  refine ⟨?_, ?_⟩
  · rw [hl]
    exact h.spaced.append fun x hx => (ha x hx).1
  · intro x hx d hd
    rw [hl] at hx
    rcases List.mem_append.mp hx with hx | hx
    · rw [(ha x hx).1] at hd
      cases hd
    · have hle := h.rested x hx d hd
      omega

/-- 前に `slack` ミリ秒待ち、後に残りの時間を待つ一回の事象は、間隔を保つ。 -/
theorem pulse (h : Paced hold slack m) (h₁ : Trail (fun e => hold e = none) m u) (hwait : m.now + slack ≤ u.now)
    (hd : hold e = some d) (h₂ : Trail (fun e => hold e = none) (u.mark e) m') (hrest : u.now + d ≤ m'.now + slack) :
    Paced hold slack m' := by
  have hu : Spaced hold u.log := (h.of_trail h₁).spaced
  have hpast : ∀ x ∈ u.log, ∀ d ∈ hold x.event, x.time + d ≤ u.now := by
    obtain ⟨-, new, hl, -, ha⟩ := h₁
    intro x hx d hd
    rw [hl] at hx
    rcases List.mem_append.mp hx with hx | hx
    · rw [(ha x hx).1] at hd
      cases hd
    · exact Nat.le_trans (h.rested x hx d hd) hwait
  obtain ⟨hnow, new, hl, -, ha⟩ := h₂
  rw [mark_log] at hl
  refine ⟨?_, ?_⟩
  · rw [hl]
    exact (hu.cons hpast).append fun x hx => (ha x hx).1
  · intro x hx d' hd'
    rw [hl] at hx
    rcases List.mem_append.mp hx with hx | hx
    · rw [(ha x hx).1] at hd'
      cases hd'
    · rcases List.mem_cons.mp hx with rfl | hx
      · obtain rfl := Option.some.inj (hd.symm.trans hd')
        exact hrest
      · have hle := hpast x hx d' hd'
        have hmark : u.now ≤ m'.now := hnow
        omega

end Paced

end Machine
