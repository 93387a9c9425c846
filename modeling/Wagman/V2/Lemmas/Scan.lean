import Wagman.V2.Scan
import Wagman.V2.Lemmas.Setup
import Mathlib.Data.List.Zip

/-!
# 設定を読む繰り返しの性質

一つの繰り返しは、残りの文字に `,` があればその手前までを一時変数に加え、なければ終わらない。これを繰り返しの数だけ続けると、
`receiveParams` の読み方になる。
-/

namespace Wagman.V2

open Machine

variable {env : Env} {w w' : World} {T : Type} [DecidableEq T] {received : List UInt8}

/-! ## 一つの繰り返し -/

section Field

variable {s : Scanner T} {t : T} {todo : List T} {c : UInt8} {rest : List UInt8} {n : Nat}

theorem charAt_eq (h : received.drop n = c :: rest) : charAt received n = c := by
  have hget : received[n]? = some c := by rw [← List.head?_drop, h]; rfl
  rw [charAt, hget]
  rfl

theorem step_of_ne (htodo : s.todo = t :: todo) (h : charAt received s.i ≠ delimiter) :
    s.step received =
      { s with temps := Function.update s.temps t (s.temps t ++ [charAt received s.i]), i := s.i + 1 } := by
  simp only [Scanner.step, htodo, if_pos h]

theorem step_of_eq (htodo : s.todo = t :: todo) (h : charAt received s.i = delimiter) :
    s.step received = { s with i := if todo = [] then s.i else s.i + 1, todo := todo } := by
  simp only [Scanner.step, htodo, h, ne_eq, not_true_eq_false, if_false]

theorem step_of_done (htodo : s.todo = []) : s.step received = s := by
  simp only [Scanner.step, htodo]

/-- `,` の手前までを加えて、次の繰り返しに移る。 -/
theorem steps_field (field : List UInt8) (hfield : delimiter ∉ field) (htodo : s.todo = t :: todo)
    (h : received.drop s.i = field ++ delimiter :: rest) :
    (Scanner.step received)^[field.length + 1] s =
      { temps := Function.update s.temps t (s.temps t ++ field)
        i := if todo = [] then s.i + field.length else s.i + field.length + 1
        todo := todo } := by
  induction field generalizing s with
  | nil =>
      rw [List.length_nil, Nat.zero_add, Function.iterate_one, step_of_eq htodo (charAt_eq h), List.append_nil,
        Function.update_eq_self]
      rfl
  | cons c field ih =>
      have hc : charAt received s.i = c := charAt_eq h
      have hne : c ≠ delimiter := fun heq => hfield (heq ▸ List.mem_cons_self)
      rw [List.length_cons, Function.iterate_succ_apply, step_of_ne htodo (hc ▸ hne), hc]
      have hdrop : received.drop (s.i + 1) = field ++ delimiter :: rest := by
        rw [← List.drop_drop, h]
        rfl
      have hnext : (Scanner.step received)^[field.length + 1]
          { s with temps := Function.update s.temps t (s.temps t ++ [c]), i := s.i + 1 } = _ :=
        ih (fun hmem => hfield (List.mem_cons_of_mem _ hmem)) htodo hdrop
      rw [hnext]
      simp only [Function.update_self, Function.update_idem, List.append_assoc, List.singleton_append,
        Nat.add_assoc, Nat.add_comm 1]

/-- 残りの文字に `,` がなければ、繰り返しは終わらない。 -/
theorem steps_stuck (htodo : s.todo = t :: todo) (h : delimiter ∉ received.drop s.i) (n : Nat) :
    ((Scanner.step received)^[n] s).todo = t :: todo := by
  induction n generalizing s with
  | zero => exact htodo
  | succ n ih =>
      have hne : charAt received s.i ≠ delimiter := by
        intro heq
        cases hdrop : received.drop s.i with
        | nil =>
            have hnone : received[s.i]? = none := by rw [← List.head?_drop, hdrop]; rfl
            rw [charAt, hnone] at heq
            cases heq
        | cons c rest =>
            rw [charAt_eq hdrop] at heq
            exact h (by rw [hdrop, heq]; exact List.mem_cons_self)
      rw [Function.iterate_succ_apply, step_of_ne htodo hne]
      refine ih htodo fun hmem => h ?_
      rw [← List.drop_drop] at hmem
      exact List.mem_of_mem_drop hmem

end Field

theorem steps_add (m n : Nat) (s : Scanner T) :
    (Scanner.step received)^[m] ((Scanner.step received)^[n] s) = (Scanner.step received)^[n + m] s := by
  rw [Nat.add_comm, Function.iterate_add_apply]

/-- 終わった後は変わらない。 -/
theorem steps_done {s : Scanner T} {n m : Nat} (h : ((Scanner.step received)^[n] s).todo = []) :
    (Scanner.step received)^[n + m] s = (Scanner.step received)^[n] s := by
  rw [← steps_add, Function.iterate_fixed (step_of_done h)]

theorem steps_unique {s : Scanner T} {m n : Nat} (hm : ((Scanner.step received)^[m] s).todo = [])
    (hn : ((Scanner.step received)^[n] s).todo = []) :
    (Scanner.step received)^[m] s = (Scanner.step received)^[n] s := by
  rcases Nat.le_total m n with hle | hle
  · obtain ⟨k, rfl⟩ := Nat.exists_eq_add_of_le hle
    exact (steps_done hm).symm
  · obtain ⟨k, rfl⟩ := Nat.exists_eq_add_of_le hle
    exact steps_done hn

/-! ## 文字列の分け方 -/

theorem scanField_append {field : List UInt8} (hfield : delimiter ∉ field) (rest : List UInt8) :
    scanField (field ++ delimiter :: rest) = some (field, rest) := by
  have hpos : ∀ c ∈ field, decide (c ≠ delimiter) = true := fun c hc => decide_eq_true (ne_of_mem_of_not_mem hc hfield)
  rw [scanField, if_pos (by simp), List.takeWhile_append_of_pos hpos, List.dropWhile_append_of_pos hpos]
  simp

theorem scanField_eq_none {s : List UInt8} : scanField s = none ↔ delimiter ∉ s := by
  rw [scanField]
  split
  · exact iff_of_false nofun (not_not_intro ‹_›)
  · exact iff_of_true rfl ‹_›

/-- `,` の手前と後に分ける。 -/
theorem scanField_eq_some {s field rest : List UInt8} :
    scanField s = some (field, rest) ↔ delimiter ∉ field ∧ s = field ++ delimiter :: rest := by
  constructor
  · intro h
    have hmem : delimiter ∈ s := by
      by_contra hn
      rw [scanField_eq_none.mpr hn] at h
      cases h
    obtain ⟨field', rest', rfl, hnot⟩ := List.eq_append_cons_of_mem hmem
    rw [scanField_append hnot] at h
    cases h
    exact ⟨hnot, rfl⟩
  · rintro ⟨hnot, rfl⟩
    exact scanField_append hnot rest

theorem scanFields_succ_eq_some {n : Nat} {s : List UInt8} {fields : List (List UInt8)} :
    scanFields (n + 1) s = some fields ↔
      ∃ field rest more, scanField s = some (field, rest) ∧ scanFields n rest = some more ∧ fields = field :: more := by
  constructor
  · intro h
    obtain ⟨⟨field, rest⟩, hfield, h⟩ := Option.bind_eq_some_iff.mp h
    obtain ⟨more, hmore, h⟩ := Option.bind_eq_some_iff.mp h
    exact ⟨field, rest, more, hfield, hmore, (Option.some.inj h).symm⟩
  · rintro ⟨field, rest, more, hfield, hmore, rfl⟩
    exact Option.bind_eq_some_iff.mpr ⟨(field, rest), hfield, Option.bind_eq_some_iff.mpr ⟨more, hmore, rfl⟩⟩

theorem scanFields_succ_eq_none {n : Nat} {s : List UInt8} :
    scanFields (n + 1) s = none ↔ ∀ field rest, scanField s = some (field, rest) → scanFields n rest = none := by
  constructor
  · intro h field rest hfield
    by_contra hne
    obtain ⟨more, hmore⟩ := Option.ne_none_iff_exists'.mp hne
    rw [scanFields_succ_eq_some.mpr ⟨field, rest, more, hfield, hmore, rfl⟩] at h
    cases h
  · intro h
    by_contra hne
    obtain ⟨fields, hfields⟩ := Option.ne_none_iff_exists'.mp hne
    obtain ⟨field, rest, more, hfield, hmore, -⟩ := scanFields_succ_eq_some.mp hfields
    rw [h field rest hfield] at hmore
    cases hmore

/-- 読み終わるのは、`,` が数だけあるときである。 -/
theorem scanFields_eq_none {n : Nat} {s : List UInt8} : scanFields n s = none ↔ s.count delimiter < n := by
  induction n generalizing s with
  | zero => exact iff_of_false nofun (Nat.not_lt_zero _)
  | succ n ih =>
      rw [scanFields_succ_eq_none]
      by_cases hmem : delimiter ∈ s
      · obtain ⟨field, rest, rfl, hnot⟩ := List.eq_append_cons_of_mem hmem
        have hcount : (field ++ delimiter :: rest).count delimiter = rest.count delimiter + 1 := by
          rw [List.count_append, List.count_eq_zero_of_not_mem hnot, List.count_cons_self, Nat.zero_add]
        rw [hcount, Nat.add_lt_add_iff_right, ← ih]
        exact ⟨fun h => h field rest (scanField_append hnot rest), fun h field' rest' heq => by
          rw [scanField_append hnot] at heq
          cases heq
          exact h⟩
      · refine iff_of_true (fun field rest heq => ?_) ?_
        · rw [scanField_eq_none.mpr hmem] at heq
          cases heq
        · rw [List.count_eq_zero_of_not_mem hmem]
          exact Nat.succ_pos n

/-! ## すべての繰り返し -/

/-- 一つの繰り返しの後に残る文字。 -/
theorem scanFields_next {α : Type} {todo : List α} {i : Nat} {field rest : List UInt8}
    (h : received.drop i = field ++ delimiter :: rest) :
    scanFields todo.length (received.drop (if todo = [] then i + field.length else i + field.length + 1)) =
      scanFields todo.length rest := by
  cases todo with
  | nil => rfl
  | cons t todo =>
      have hdrop : received.drop (i + field.length + 1) = rest := by
        rw [Nat.add_assoc, ← List.drop_drop, h, ← List.drop_drop, List.drop_left]
        rfl
      rw [if_neg (List.cons_ne_nil t todo), hdrop]

/-- 繰り返しの数だけの `,` があれば、すべての繰り返しが終わり、一時変数は `receiveParams` の読んだ文字になる。 -/
theorem steps_fields {todo : List T} {temps : T → List UInt8} {i : Nat} {fields : List (List UInt8)}
    (hnodup : todo.Nodup) (hempty : ∀ t ∈ todo, temps t = [])
    (h : scanFields todo.length (received.drop i) = some fields) :
    ∃ n temps' i', (Scanner.step received)^[n] ⟨temps, i, todo⟩ = ⟨temps', i', []⟩ ∧ todo.map temps' = fields ∧
      ∀ t ∉ todo, temps' t = temps t := by
  induction todo generalizing temps i fields with
  | nil =>
      cases h
      exact ⟨0, temps, i, rfl, rfl, fun _ _ => rfl⟩
  | cons t todo ih =>
      obtain ⟨field, rest, more, hfield, hmore, rfl⟩ := scanFields_succ_eq_some.mp h
      obtain ⟨hnot, hdrop⟩ := scanField_eq_some.mp hfield
      obtain ⟨ht, hrest⟩ := List.nodup_cons.mp hnodup
      have hfirst : (Scanner.step received)^[field.length + 1] ⟨temps, i, t :: todo⟩ = _ :=
        steps_field field hnot rfl hdrop
      have hempty' : ∀ u ∈ todo, Function.update temps t (temps t ++ field) u = [] := fun u hu => by
        rw [Function.update_of_ne (ne_of_mem_of_not_mem hu ht)]
        exact hempty u (List.mem_cons_of_mem _ hu)
      rw [← scanFields_next hdrop] at hmore
      obtain ⟨n, temps', i', hsteps, hmap, hframe⟩ := ih hrest hempty' hmore
      refine ⟨field.length + 1 + n, temps', i', ?_, ?_, fun u hu => ?_⟩
      · rw [← steps_add, hfirst, hsteps]
      · rw [List.map_cons, hmap, hframe t ht, Function.update_self, hempty t List.mem_cons_self, List.nil_append]
      · obtain ⟨hne, hnmem⟩ := not_or.mp (List.mem_cons.not.mp hu)
        rw [hframe u hnmem, Function.update_of_ne hne]

/-- 繰り返しの数だけの `,` がなければ、終わらない。 -/
theorem steps_unfinished {todo : List T} {temps : T → List UInt8} {i : Nat}
    (h : scanFields todo.length (received.drop i) = none) (n : Nat) :
    ((Scanner.step received)^[n] ⟨temps, i, todo⟩).todo ≠ [] := by
  induction todo generalizing temps i n with
  | nil => cases h
  | cons t todo ih =>
      by_cases hmem : delimiter ∈ received.drop i
      · obtain ⟨field, rest, hdrop, hnot⟩ := List.eq_append_cons_of_mem hmem
        have hrest : scanFields todo.length rest = none :=
          scanFields_succ_eq_none.mp h field rest (scanField_eq_some.mpr ⟨hnot, hdrop⟩)
        have hfirst : (Scanner.step received)^[field.length + 1] ⟨temps, i, t :: todo⟩ = _ :=
          steps_field field hnot rfl hdrop
        rw [← scanFields_next hdrop] at hrest
        intro hdone
        -- 終わった後は変わらないので、一つ目の繰り返しだけ余分に進めてもよい
        have hlater : ((Scanner.step received)^[n] ((Scanner.step received)^[field.length + 1]
            ⟨temps, i, t :: todo⟩)).todo = [] := by
          rw [steps_add, Nat.add_comm, steps_done hdone]
          exact hdone
        rw [hfirst] at hlater
        exact ih hrest n hlater
      · rw [steps_stuck rfl hmem]
        exact List.cons_ne_nil t todo

/-! ## 設定の受け取り -/

/-- 一時変数に重複がなく、`cells` の順に読んで、`cells` の順に書く。 -/
structure ParamTable.Aligned (table : ParamTable T) (cells : List Cell) : Prop where
  nodup : table.order.Nodup
  length : table.order.length = cells.length
  stores : table.stores = cells.zip table.order

theorem aligned_coreTable : coreTable.Aligned coreCells := ⟨by decide, rfl, rfl⟩

theorem aligned_gnTable : gnTable.Aligned gnCells := ⟨by decide, rfl, rfl⟩

theorem foldl_stores {T : Type} (temps : T → List UInt8) (cells : List Cell) (order : List T) :
    (cells.zip order).foldl (fun w p => p.1.update env (temps p.2) w) w =
      ((order.map temps).zip cells).foldl (fun w p => p.2.update env p.1 w) w := by
  rw [List.zip_map_left, List.foldl_map, ← List.zip_swap order cells, List.foldl_map]
  rfl

/-- 受け取りが終わるのは、文字列が空か、`,` が読む数だけあるときで、結果は `receiveParams` に等しい。 -/
theorem ParamTable.get_eq_some_iff {table : ParamTable T} {cells : List Cell} (h : table.Aligned cells) :
    (∃ fuel, table.get env fuel w = some w') ↔
      w' = receiveParams env cells table.request w ∧
        (env.received w.io = [] ∨ table.order.length ≤ (env.received w.io).count delimiter) := by
  have hio : (println table.request w).io = w.io := rfl
  simp only [ParamTable.get, receiveParams, hio, ← h.length]
  by_cases hnil : env.received w.io = []
  · simp only [hnil, if_true, true_or, and_true]
    exact ⟨fun h => (Option.some.inj h.choose_spec).symm, fun h => ⟨0, congrArg some h.symm⟩⟩
  · simp only [hnil, if_false, false_or]
    cases hfields : scanFields table.order.length (env.received w.io) with
    | none =>
        refine iff_of_false ?_ fun hand => absurd (scanFields_eq_none.mp hfields) (Nat.not_lt.mpr hand.2)
        rintro ⟨fuel, hget⟩
        have hstuck : (scan (env.received w.io) table.order fuel).todo ≠ [] := steps_unfinished hfields fuel
        rw [if_neg hstuck] at hget
        cases hget
    | some fields =>
        have hcount : table.order.length ≤ (env.received w.io).count delimiter :=
          Nat.not_lt.mp fun hlt => Option.some_ne_none fields (hfields.symm.trans (scanFields_eq_none.mpr hlt))
        obtain ⟨n, temps, i, hsteps, hmap, -⟩ : ∃ n temps i, scan (env.received w.io) table.order n = ⟨temps, i, []⟩ ∧
            table.order.map temps = fields ∧ ∀ t ∉ table.order, temps t = [] :=
          steps_fields h.nodup (fun _ _ => rfl) hfields
        have hresult : ∀ fuel, (scan (env.received w.io) table.order fuel).todo = [] →
            scan (env.received w.io) table.order fuel = ⟨temps, i, []⟩ := fun fuel hdone =>
          (steps_unique hdone (congrArg Scanner.todo hsteps)).trans hsteps
        rw [h.stores]
        simp only [foldl_stores, ← hmap]
        constructor
        · rintro ⟨fuel, hget⟩
          split at hget
          · rename_i hdone
            rw [hresult fuel hdone] at hget
            exact ⟨(Option.some.inj hget).symm, hcount⟩
          · cases hget
        · rintro ⟨rfl, -⟩
          refine ⟨n, ?_⟩
          rw [hsteps, if_pos rfl]

end Wagman.V2
