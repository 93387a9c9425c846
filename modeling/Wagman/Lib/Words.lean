import Mathlib.Data.List.Infix

/-!
# 極大な並びへの分割

並びの中で、述語 `p` を満たす要素が続く極大な部分を、始まる位置とともに左から並べる。位置を一つ進めたときの変化から、
左から一つずつ読み進める側の性質を導き、先頭から取り除いていく分割とも一致することを示す。
-/

namespace Words

variable {α : Type} (p : α → Bool)

/-- 位置 `i` の要素が `p` を満たす。並びの外では満たさない。 -/
def sat (l : List α) (i : Nat) : Bool := (l[i]?).any p

/-- 位置 `i` の前の要素が `p` を満たす。`prev` は先頭の前についての値である。 -/
def satBefore (prev : Bool) (l : List α) : Nat → Bool
  | 0 => prev
  | i + 1 => sat p l i

/-- 位置 `i` で極大な部分が始まる。 -/
def startsAt (prev : Bool) (l : List α) (i : Nat) : Bool := sat p l i && !satBefore p prev l i

/-- `n` より前で始まる極大な部分の位置。 -/
def starts (l : List α) (n : Nat) : List Nat := (List.range n).filter (startsAt p false l)

/-- 位置 `i` から `p` を満たす限り続く部分。 -/
def wordAt (l : List α) (i : Nat) : List α := (l.drop i).takeWhile p

/-- 極大な部分を、始まる位置とともに左から並べたもの。 -/
def words (l : List α) : List (Nat × List α) := (starts p l l.length).map fun i => (i, wordAt p l i)

/-- 位置を除いて、先頭から取り出していくもの。 -/
def texts : Bool → List α → List (List α)
  | _, [] => []
  | prev, c :: l => (if p c && !prev then [(c :: l).takeWhile p] else []) ++ texts (p c) l

variable {p}

/-! ## 始まる位置 -/

section Starts

variable {prev : Bool} {l : List α} {c : α} {i n : Nat}

theorem sat_lt (h : sat p l i = true) : i < l.length := by
  by_contra hn
  rw [sat, List.getElem?_eq_none (by omega)] at h
  cases h

theorem wordAt_of_sat (h : sat p l i = true) : ∃ c, l[i]? = some c ∧ wordAt p l i = c :: wordAt p l (i + 1) := by
  have hlt := sat_lt h
  rw [sat, List.getElem?_eq_getElem hlt, Option.any_some] at h
  refine ⟨l[i], List.getElem?_eq_getElem hlt, ?_⟩
  rw [wordAt, List.drop_eq_getElem_cons hlt, List.takeWhile_cons_of_pos h, ← wordAt]

theorem wordAt_of_not_sat (h : sat p l i = false) : wordAt p l i = [] := by
  rw [wordAt]
  rcases Nat.lt_or_ge i l.length with hlt | hge
  · rw [sat, List.getElem?_eq_getElem hlt, Option.any_some] at h
    rw [List.drop_eq_getElem_cons hlt, List.takeWhile_cons_of_neg (by simp [h])]
  · rw [List.drop_eq_nil_of_le hge, List.takeWhile_nil]

theorem starts_succ_of_startsAt (h : startsAt p false l n = true) : starts p l (n + 1) = starts p l n ++ [n] := by
  rw [starts, List.range_succ, List.filter_append, List.filter_singleton, h, ← starts, cond_true]

theorem starts_succ_of_not (h : startsAt p false l n = false) : starts p l (n + 1) = starts p l n := by
  rw [starts, List.range_succ, List.filter_append, List.filter_singleton, h, ← starts, cond_false, List.append_nil]

theorem starts_succ_of_not_sat (h : sat p l n = false) : starts p l (n + 1) = starts p l n :=
  starts_succ_of_not (by rw [startsAt, h, Bool.false_and])

theorem starts_prefix {m : Nat} (h : n ≤ m) : starts p l n <+: starts p l m := by
  obtain ⟨k, rfl⟩ := Nat.exists_eq_add_of_le h
  rw [starts, starts, List.range_add, List.filter_append]
  exact List.prefix_append _ _

theorem mem_starts : i ∈ starts p l n ↔ i < n ∧ startsAt p false l i = true := by
  rw [starts, List.mem_filter, List.mem_range]

theorem sat_of_mem_starts (h : i ∈ starts p l n) : sat p l i = true := by
  have hs := (mem_starts.mp h).2
  rw [startsAt, Bool.and_eq_true] at hs
  exact hs.1

theorem length_words (p : α → Bool) (l : List α) : (words p l).length = (starts p l l.length).length :=
  List.length_map _

theorem getElem?_words {k : Nat} (h : (starts p l l.length)[k]? = some i) :
    (words p l)[k]? = some (i, wordAt p l i) := by
  rw [words, List.getElem?_map, h]
  rfl

end Starts

/-! ## 先頭からの分割 -/

section Texts

variable {l : List α} {c : α}

theorem startsAt_cons_succ (prev : Bool) (l : List α) (c : α) (i : Nat) :
    startsAt p prev (c :: l) (i + 1) = startsAt p (p c) l i := by
  cases i with
  | zero => rfl
  | succ i => rfl

theorem map_starts_eq_texts (prev : Bool) (l : List α) :
    ((List.range l.length).filter (startsAt p prev l)).map (wordAt p l) = texts p prev l := by
  induction l generalizing prev with
  | nil => rfl
  | cons c l ih =>
      have hrest : startsAt p prev (c :: l) ∘ Nat.succ = startsAt p (p c) l :=
        funext fun i => startsAt_cons_succ prev l c i
      have hword : wordAt p (c :: l) ∘ Nat.succ = wordAt p l := rfl
      have hzero : startsAt p prev (c :: l) 0 = (p c && !prev) := rfl
      rw [List.length_cons, List.range_succ_eq_map, List.filter_cons, List.filter_map, hrest, hzero, texts, ← ih]
      cases hb : p c && !prev with
      | true => rw [if_pos rfl, if_pos rfl, List.map_cons, List.map_map, hword]; rfl
      | false => rw [if_neg (by decide), if_neg (by decide), List.map_map, hword, List.nil_append]

theorem map_snd_words (l : List α) : (words p l).map Prod.snd = texts p false l := by
  rw [words, List.map_map, ← map_starts_eq_texts]
  rfl

theorem texts_of_not (prev : Bool) (h : p c = false) : texts p prev (c :: l) = texts p false l := by
  rw [texts, h, Bool.false_and, if_neg (by decide), List.nil_append]

theorem texts_dropWhile {q : α → Bool} (hq : ∀ c, q c = true → p c = false) (l : List α) :
    texts p false (l.dropWhile q) = texts p false l := by
  induction l with
  | nil => rfl
  | cons c l ih =>
      cases hc : q c with
      | false => rw [List.dropWhile_cons_of_neg (by simp [hc])]
      | true => rw [List.dropWhile_cons_of_pos hc, texts_of_not false (hq c hc), ih]

theorem texts_true (l : List α) : texts p true l = texts p false (l.dropWhile p) := by
  induction l with
  | nil => rfl
  | cons c l ih =>
      cases hc : p c with
      | false => rw [texts_of_not true hc, List.dropWhile_cons_of_neg (by simp [hc]), texts_of_not false hc]
      | true =>
          rw [texts, hc, Bool.not_true, Bool.and_false, if_neg (by decide), List.nil_append, ih,
            List.dropWhile_cons_of_pos hc]

/-- 先頭の極大な部分と、その残り。 -/
theorem texts_eq (l : List α) :
    texts p false l = (if l.takeWhile p = [] then [] else [l.takeWhile p]) ++ texts p false (l.dropWhile p) := by
  cases l with
  | nil => rfl
  | cons c l =>
      cases hc : p c with
      | false =>
          rw [List.takeWhile_cons_of_neg (by simp [hc]), List.dropWhile_cons_of_neg (by simp [hc]), if_pos rfl,
            List.nil_append]
      | true =>
          rw [texts, hc, Bool.not_false, Bool.and_true, if_pos rfl, texts_true, List.dropWhile_cons_of_pos hc,
            List.takeWhile_cons_of_pos hc, if_neg (List.cons_ne_nil _ _)]

end Texts

end Words
