import Wagman.Text.Reader

/-!
# 行を引数に分ける

`processCommand` は、バッファーの中で引数の終わりに印を付けながら進む。終端のあるバッファーでは、外に書かずに終わり、得られる
引数は、行を並びとして分けたものと同じである。
-/

namespace Wagman.Text

open V3 (maxArgc scanArgs splitArgs)

/-- 位置 `s` から、`0` を含まない並び `t` があり、その後に終端がある。 -/
def Holds (b : Buffer) : Nat → List UInt8 → Prop
  | s, [] => s < bufferCapacity ∧ b s = 0
  | s, c :: t => c ≠ 0 ∧ b s = c ∧ Holds b (s + 1) t

namespace Holds

variable {b b' : Buffer} {s : Nat} {t : List UInt8}

theorem add_length_lt (h : Holds b s t) : s + t.length < bufferCapacity := by
  induction t generalizing s with
  | nil => exact h.1
  | cons c t ih =>
      have hlt := ih h.2.2
      simp only [List.length_cons]
      omega

theorem lt (h : Holds b s t) : s < bufferCapacity := Nat.lt_of_le_of_lt (Nat.le_add_right _ _) h.add_length_lt

theorem read (h : Holds b s t) : b.read s = some (t.headD 0) := by
  rw [Buffer.read, if_pos h.lt]
  cases t with
  | nil => exact congrArg some h.2
  | cons c t => exact congrArg some h.2.1

theorem congr (h : Holds b s t) (hb : ∀ i, s ≤ i → b' i = b i) : Holds b' s t := by
  induction t generalizing s with
  | nil => exact ⟨h.1, (hb s (Nat.le_refl _)).trans h.2⟩
  | cons c t ih =>
      exact ⟨h.1, (hb s (Nat.le_refl _)).trans h.2.1, ih h.2.2 fun i hi => hb i (by omega)⟩

theorem append_left {t' : List UInt8} (h : Holds b s (t ++ t')) : Holds b (s + t.length) t' := by
  induction t generalizing s with
  | nil => exact h
  | cons c t ih =>
      have hrest := ih h.2.2
      rwa [List.length_cons, Nat.add_comm t.length 1, ← Nat.add_assoc]

theorem text {t' : List UInt8} (h : Holds b s (t ++ t')) : (List.range t.length).map (fun k => b (s + k)) = t := by
  induction t generalizing s with
  | nil => rfl
  | cons c t ih =>
      have hrest := ih h.2.2
      rw [List.length_cons, List.range_succ_eq_map, List.map_cons, List.map_map, Nat.add_zero, h.2.1]
      refine congrArg (c :: ·) (Eq.trans ?_ hrest)
      exact List.map_congr_left fun k _ => by simp only [Function.comp, Nat.succ_eq_add_one]; congr 1; omega

end Holds

/-! ## 一つの引数 -/

section Scan

variable {b : Buffer} {s : Nat} {t : List UInt8} {p : UInt8 → Bool}

/-- 終端で止まる繰り返しは、並びの `takeWhile` の分だけ進む。 -/
theorem scan_eq (hp : p 0 = false) (h : Holds b s t) :
    scan p b (bufferCapacity - s) s = some (s + (t.takeWhile p).length) := by
  induction t generalizing s with
  | nil =>
      obtain ⟨k, hk⟩ : ∃ k, bufferCapacity - s = k + 1 := ⟨bufferCapacity - s - 1, by have := h.lt; omega⟩
      simp [hk, scan, h.2, hp]
  | cons c t ih =>
      obtain ⟨k, hk⟩ : ∃ k, bufferCapacity - s = k + 1 := ⟨bufferCapacity - s - 1, by have := h.lt; omega⟩
      have hroom : bufferCapacity - (s + 1) = k := by omega
      have hrest := ih h.2.2
      rw [hroom] at hrest
      cases hc : p c with
      | true =>
          rw [hk, scan, h.2.1, if_pos hc, hrest, List.takeWhile_cons_of_pos hc, List.length_cons]
          congr 1
          omega
      | false =>
          rw [hk, scan, h.2.1, if_neg (by simp [hc]), List.takeWhile_cons_of_neg (by simp [hc])]
          rfl

theorem holds_dropWhile (p : UInt8 → Bool) (h : Holds b s t) :
    Holds b (s + (t.takeWhile p).length) (t.dropWhile p) := by
  rw [← List.takeWhile_append_dropWhile (p := p) (l := t)] at h
  exact h.append_left

/-- 引数の範囲。 -/
def argRange (s : Nat) (a : List UInt8) : Option (Nat × Nat) := if a = [] then none else some (s, s + a.length)

theorem scanArg_eq (h : Holds b s t) :
    scanArg b s = some (argRange (s + (t.takeWhile isspace).length) ((t.dropWhile isspace).takeWhile isgraph),
      s + (t.takeWhile isspace).length + ((t.dropWhile isspace).takeWhile isgraph).length) := by
  have h₁ := holds_dropWhile isspace h
  simp only [scanArg, scan_eq (p := isspace) rfl h, h₁.read, Option.bind_eq_bind, Option.bind_some]
  cases ht : t.dropWhile isspace with
  | nil => simp [argRange, isgraph]
  | cons c t' =>
      rw [ht] at h₁
      by_cases hc : isgraph c = true
      · have hs := scan_eq (p := isgraph) rfl h₁
        simp [hc, hs, argRange]
      · simp [hc, argRange]

end Scan

/-! ## 行の全体 -/

/-- 範囲の中身。 -/
def argText (b : Buffer) (r : Nat × Nat) : List UInt8 := (List.range (r.2 - r.1)).map fun k => b (r.1 + k)

section Line

variable {b : Buffer} {s : Nat} {t : List UInt8}

theorem argText_congr {b' : Buffer} {r : Nat × Nat} (h : ∀ i, r.1 ≤ i → i < r.2 → b' i = b i) :
    argText b' r = argText b r := by
  refine List.map_congr_left fun k hk => h _ (Nat.le_add_right _ _) ?_
  have hlt := List.mem_range.mp hk
  omega

theorem map_argRange {a t' : List UInt8} (h : Holds b s (a ++ t')) :
    (argRange s a).toList.map (argText b) = if a = [] then [] else [a] := by
  by_cases ha : a = []
  · simp [argRange, ha]
  · have htext := h.text
    simp only [argRange, ha, if_false, Option.toList_some, List.map_cons, List.map_nil]
    rw [argText, Nat.add_sub_cancel_left, htext]

theorem snd_of_mem_argRange {a : List UInt8} {r : Nat × Nat} (h : r ∈ (argRange s a).toList) :
    r.2 = s + a.length := by
  by_cases ha : a = []
  · simp [argRange, ha] at h
  · simp only [argRange, ha, if_false, Option.toList_some, List.mem_singleton] at h
    rw [h]

theorem map_argText_congr {a : List UInt8} {b' : Buffer} (h : ∀ i < s + a.length, b' i = b i) :
    (argRange s a).toList.map (argText b') = (argRange s a).toList.map (argText b) := by
  refine List.map_congr_left fun r hr => argText_congr fun i _ hi => h i ?_
  rwa [← snd_of_mem_argRange hr]

theorem argc_argRange (a : List UInt8) (argc : Nat) :
    (if (argRange s a).isSome = true then argc else argc + 1) = if a = [] then argc + 1 else argc := by
  by_cases ha : a = []
  · simp [argRange, ha]
  · simp [argRange, ha]

theorem scanArgs_succ (fuel room : Nat) (t : List UInt8) : scanArgs (fuel + 1) (room + 1) t =
    (if (t.dropWhile isspace).takeWhile isgraph = [] then [] else [(t.dropWhile isspace).takeWhile isgraph]) ++
      match (t.dropWhile isspace).dropWhile isgraph with
      | [] => []
      | _ :: rest =>
          scanArgs fuel (if (t.dropWhile isspace).takeWhile isgraph = [] then room + 1 else room) rest := by
  simp only [scanArgs]
  cases ha : (t.dropWhile isspace).takeWhile isgraph with
  | nil =>
      cases hr : (t.dropWhile isspace).dropWhile isgraph with
      | nil => rfl
      | cons x rest => rfl
  | cons c a =>
      cases hr : (t.dropWhile isspace).dropWhile isgraph with
      | nil => rfl
      | cons x rest => rfl

/-- 繰り返しの全体は、行を並びとして分けたものと同じ引数を得て、`s` より前に書かない。 -/
theorem scanLine_eq (argc : Nat) {fuel fuel' : Nat} (hf : t.length < fuel) (hf' : t.length < fuel')
    (h : Holds b s t) :
    ∃ args b', scanLine fuel argc s b = some (args, b') ∧ args.map (argText b') = scanArgs fuel' argc t ∧
      ∀ i < s, b' i = b i := by
  induction fuel generalizing fuel' argc s t b with
  | zero => omega
  | succ fuel ih =>
      obtain ⟨fuel', rfl⟩ : ∃ k, fuel' = k + 1 := ⟨fuel' - 1, by omega⟩
      cases argc with
      | zero => exact ⟨[], b, rfl, rfl, fun _ _ => rfl⟩
      | succ argc =>
          have h₁ := holds_dropWhile isspace h
          have h₂ := holds_dropWhile isgraph h₁
          have harg :
              (argRange (s + (t.takeWhile isspace).length) ((t.dropWhile isspace).takeWhile isgraph)).toList.map
                (argText b) = if (t.dropWhile isspace).takeWhile isgraph = [] then []
                  else [(t.dropWhile isspace).takeWhile isgraph] := by
            rw [← List.takeWhile_append_dropWhile (p := isgraph) (l := t.dropWhile isspace)] at h₁
            exact map_argRange h₁
          have hlen : ((t.dropWhile isspace).dropWhile isgraph).length ≤ t.length :=
            Nat.le_trans (List.dropWhile_sublist _).length_le (List.dropWhile_sublist _).length_le
          rw [scanArgs_succ, ← harg]
          simp only [scanLine, scanArg_eq h, h₂.read, Option.bind_eq_bind, Option.bind_some]
          have hle : s ≤ s + (t.takeWhile isspace).length := Nat.le_add_right _ _
          clear harg h₁ h
          generalize s + (t.takeWhile isspace).length = s₁ at h₂ hle
          generalize (t.dropWhile isspace).takeWhile isgraph = a at h₂
          generalize (t.dropWhile isspace).dropWhile isgraph = t₂ at h₂ hlen
          cases t₂ with
          | nil => exact ⟨(argRange s₁ a).toList, b, if_pos rfl, (List.append_nil _).symm, fun _ _ => rfl⟩
          | cons x rest =>
              have hw : b.write (s₁ + a.length) 0 = some (Bytes.store (s₁ + a.length) 0 b) := if_pos h₂.lt
              have hrest : Holds (Bytes.store (s₁ + a.length) 0 b) (s₁ + a.length + 1) rest :=
                h₂.2.2.congr fun i hi => Bytes.store_of_ne (by omega) _ _
              simp only [List.length_cons] at hlen
              have hfuel : rest.length < fuel ∧ rest.length < fuel' := by omega
              obtain ⟨args, b', hs, hargs, hframe⟩ := ih (if a = [] then argc + 1 else argc) hfuel.1 hfuel.2 hrest
              -- 印は引数の後に付ける
              have hbefore : ∀ i < s₁ + a.length, b' i = b i := by
                intro i hi
                rw [hframe i (by omega), Bytes.store_of_ne (by omega)]
              refine ⟨(argRange s₁ a).toList ++ args, b', ?_, ?_, fun i hi => hbefore i (by omega)⟩
              · simp only [List.headD_cons, h₂.1, if_false, hw, argc_argRange, hs, Option.bind_some]
              · rw [List.map_append, hargs, map_argText_congr hbefore]

theorem processCommand_eq (h : Holds b 0 t) :
    ∃ b', processCommand b = some (scanArgs (t.length + 1) maxArgc t, b') := by
  have hlt := h.add_length_lt
  have hfuel : t.length < bufferCapacity + 1 := by omega
  obtain ⟨args, b', hs, hargs, -⟩ := scanLine_eq maxArgc hfuel (Nat.lt_succ_self t.length) h
  refine ⟨b', ?_⟩
  simp only [processCommand, hs, Option.bind_eq_bind, Option.bind_some]
  rw [← hargs]
  rfl

/-- 終端を書いたバッファーは、行の `0` より前の部分を持つ。 -/
theorem holds_terminated {n : Nat} (hn : s + n < bufferCapacity) :
    Holds (Bytes.store (s + n) 0 b) s (((List.range n).map fun k => b (s + k)).takeWhile (· ≠ 0)) := by
  induction n generalizing s with
  | zero => exact ⟨hn, Bytes.store_self _ _ _⟩
  | succ n ih =>
      have hshift : (List.range (n + 1)).map (fun k => b (s + k)) =
          b s :: (List.range n).map (fun k => b (s + 1 + k)) := by
        rw [List.range_succ_eq_map, List.map_cons, List.map_map, Nat.add_zero]
        exact congrArg (b s :: ·) (List.map_congr_left fun k _ => by
          simp only [Function.comp, Nat.succ_eq_add_one]; congr 1; omega)
      have hne : s ≠ s + (n + 1) := by omega
      rw [hshift]
      by_cases hz : b s = 0
      · rw [List.takeWhile_cons_of_neg (by simp [hz])]
        exact ⟨by omega, (Bytes.store_of_ne hne _ _).trans hz⟩
      · rw [List.takeWhile_cons_of_pos (by simp [hz])]
        refine ⟨hz, Bytes.store_of_ne hne _ _, ?_⟩
        have hrest := ih (s := s + 1) (by omega)
        rwa [show s + 1 + n = s + (n + 1) by omega] at hrest

end Line

end Wagman.Text
