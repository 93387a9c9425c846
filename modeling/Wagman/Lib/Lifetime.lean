import Mathlib.Data.List.Basic

/-!
# 投入の繰り返し

装置は、残っている状態から起動し、どこかで途切れ、また起動することを繰り返す。一回の投入について、起動の前の状態から途切れた後の
状態に保たれる条件を示せば、繰り返しの全体の記録について分かる。
-/

namespace Lifetime

variable {B S L : Type} (log : B → S → L) (after : B → S → S)

/-- 投入を繰り返したときの、それぞれの記録。`log b s` は状態 `s` からの投入 `b` の記録、`after b s` は途切れた後に残る状態である。 -/
def logs : List B → S → List L
  | [], _ => []
  | b :: bs, s => log b s :: logs bs (after b s)

variable {log after}

/-- どの投入の記録も `C` を満たすとき、状態の条件 `I` を保つ投入の記録の性質 `Q` は、どの投入の記録についても成り立つ。 -/
theorem logs_induct {I : S → Prop} {C Q : L → Prop} (h : ∀ b s, I s → C (log b s) → Q (log b s) ∧ I (after b s)) {s : S}
    (hs : I s) {bs : List B} (hC : ∀ l ∈ logs log after bs s, C l) : ∀ l ∈ logs log after bs s, Q l := by
  induction bs generalizing s with
  | nil => exact fun l hl => (List.not_mem_nil hl).elim
  | cons b bs ih =>
      obtain ⟨hq, hi⟩ := h b s hs (hC _ List.mem_cons_self)
      intro l hl
      rcases List.mem_cons.mp hl with rfl | hl
      · exact hq
      · exact ih hi (fun l hl => hC l (List.mem_cons_of_mem _ hl)) l hl

end Lifetime
