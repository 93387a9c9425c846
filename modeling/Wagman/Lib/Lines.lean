import Mathlib.Data.List.Infix

/-!
# 行への分割

記号の並びを、区切り `nl` で終わる行と、まだ終わっていない残りに分ける。並びの末尾に一つ加えたときの変化から、受け取る側が
一つずつ読み進めるときの性質を導く。
-/

namespace Lines

variable {α : Type} [DecidableEq α] (nl : α)

/-- 終わった行と残りに、次の一つを加える。 -/
def feed (x : List (List α) × List α) (c : α) : List (List α) × List α :=
  if c = nl then (x.1 ++ [x.2 ++ [c]], []) else (x.1, x.2 ++ [c])

/-- 区切りで終わる行。区切りを含む。 -/
def lines (xs : List α) : List (List α) := (xs.foldl (feed nl) ([], [])).1

/-- 最後の区切りより後。 -/
def rest (xs : List α) : List α := (xs.foldl (feed nl) ([], [])).2

section Snoc

variable (xs : List α) {c : α}

@[simp] theorem lines_nil : lines nl ([] : List α) = [] := rfl

@[simp] theorem rest_nil : rest nl ([] : List α) = [] := rfl

theorem lines_snoc_self : lines nl (xs ++ [nl]) = lines nl xs ++ [rest nl xs ++ [nl]] := by
  simp [lines, rest, List.foldl_append, feed]

theorem rest_snoc_self : rest nl (xs ++ [nl]) = [] := by
  simp [rest, List.foldl_append, feed]

theorem lines_snoc_of_ne (h : c ≠ nl) : lines nl (xs ++ [c]) = lines nl xs := by
  simp [lines, List.foldl_append, feed, h]

theorem rest_snoc_of_ne (h : c ≠ nl) : rest nl (xs ++ [c]) = rest nl xs ++ [c] := by
  simp [rest, List.foldl_append, feed, h]

end Snoc

theorem flatten_lines_append_rest (xs : List α) : (lines nl xs).flatten ++ rest nl xs = xs := by
  induction xs using List.reverseRecOn with
  | nil => rfl
  | append_singleton xs c ih =>
      by_cases hc : c = nl
      · subst hc
        rw [lines_snoc_self, rest_snoc_self]
        simp [← List.append_assoc, ih]
      · rw [lines_snoc_of_ne nl xs hc, rest_snoc_of_ne nl xs hc, ← List.append_assoc, ih]

theorem notMem_rest (xs : List α) : nl ∉ rest nl xs := by
  induction xs using List.reverseRecOn with
  | nil => simp
  | append_singleton xs c ih =>
      by_cases hc : c = nl
      · subst hc
        simp [rest_snoc_self]
      · rw [rest_snoc_of_ne nl xs hc]
        simp [ih, Ne.symm hc]

/-- 行は、区切りを含まない部分と、一つの区切りからなる。 -/
theorem eq_append_of_mem_lines {xs l : List α} (h : l ∈ lines nl xs) : ∃ body, l = body ++ [nl] ∧ nl ∉ body := by
  induction xs using List.reverseRecOn with
  | nil => simp at h
  | append_singleton xs c ih =>
      by_cases hc : c = nl
      · subst hc
        rw [lines_snoc_self, List.mem_append, List.mem_singleton] at h
        rcases h with h | rfl
        · exact ih h
        · exact ⟨_, rfl, notMem_rest c xs⟩
      · rw [lines_snoc_of_ne nl xs hc] at h
        exact ih h

/-- どの行も、残りも、長さが `n` を超えない。行の長さは区切りを含む。 -/
def Bounded (n : Nat) (xs : List α) : Prop := (∀ l ∈ lines nl xs, l.length ≤ n) ∧ (rest nl xs).length ≤ n

theorem Bounded.of_snoc {n : Nat} {xs : List α} {c : α} (h : Bounded nl n (xs ++ [c])) : Bounded nl n xs := by
  by_cases hc : c = nl
  · subst hc
    obtain ⟨hl, -⟩ := h
    rw [lines_snoc_self] at hl
    have hlast := hl (rest c xs ++ [c]) (by simp)
    simp only [List.length_append, List.length_singleton] at hlast
    exact ⟨fun l hm => hl l (by simp [hm]), by omega⟩
  · obtain ⟨hl, hr⟩ := h
    rw [lines_snoc_of_ne nl xs hc] at hl
    rw [rest_snoc_of_ne nl xs hc, List.length_append] at hr
    exact ⟨hl, by omega⟩

theorem Bounded.of_append {n : Nat} {xs ys : List α} (h : Bounded nl n (xs ++ ys)) : Bounded nl n xs := by
  induction ys using List.reverseRecOn with
  | nil => simpa using h
  | append_singleton ys c ih =>
      rw [← List.append_assoc] at h
      exact ih (Bounded.of_snoc nl h)

/-- 長さの限られた並びでは、次の一つを残りに加えても限りを超えない。 -/
theorem Bounded.rest_length_lt {n : Nat} {xs ys : List α} {c : α} (h : Bounded nl n (xs ++ c :: ys)) :
    (rest nl xs).length < n := by
  have hs : Bounded nl n (xs ++ [c]) := by
    rw [← List.singleton_append, ← List.append_assoc] at h
    exact Bounded.of_append nl h
  by_cases hc : c = nl
  · subst hc
    have hlast := hs.1 (rest c xs ++ [c]) (by simp [lines_snoc_self])
    simp only [List.length_append, List.length_singleton] at hlast
    omega
  · have hr := hs.2
    rw [rest_snoc_of_ne nl xs hc, List.length_append] at hr
    simp only [List.length_singleton] at hr
    omega

theorem filter_lines_of_bounded {n : Nat} {xs : List α} (h : Bounded nl n xs) :
    (lines nl xs).filter (fun l => decide (l.length ≤ n)) = lines nl xs :=
  List.filter_eq_self.mpr fun l hl => decide_eq_true (h.1 l hl)

end Lines
