import Wagman.V3.Serial
import Wagman.V3.Lemmas.Step
import Mathlib.Data.List.TakeWhile

/-!
# 応答とホストの補題
-/

namespace Wagman.V3.Serial

open Machine

/-! ## 空白と印 -/

theorem ascii_of_all {l : List UInt8} (h : l.all (fun b => decide (b < 0x80)) = true) : ∀ b ∈ l, b < 0x80 :=
  fun b hb => of_decide_eq_true (List.all_eq_true.mp h b hb)

/-! ## 届いた行 -/

section Response

variable {r : Response} (hr : r.Good)

include hr

theorem Response.Good.ascii_header : 10 ∉ r.header ∧ ∀ b ∈ r.header, b < 0x80 := by
  have hgraph : ∀ b, isgraph b = true → b ≠ 10 ∧ b < 0x80 := by
    intro b hb
    simp only [isgraph, Bool.and_eq_true, decide_eq_true_eq, UInt8.le_iff_toNat_le, UInt8.reduceToNat] at hb
    constructor
    · rintro rfl
      exact absurd hb.1 (by decide)
    · exact UInt8.lt_iff_toNat_lt.mpr (Nat.lt_of_le_of_lt hb.2 (by decide))
  have hall : ∀ b ∈ r.header, b ≠ 10 ∧ b < 0x80 := by
    intro b hb
    rw [Response.header, List.mem_append, List.mem_append, List.mem_cons] at hb
    rcases hb with (hb | hb) | rfl | hb
    · have hall : beginSid.all (fun b => b != 10 && decide (b < 0x80)) = true := by decide
      simpa using List.all_eq_true.mp hall b hb
    · exact hgraph b (hr.sid b hb)
    · decide
    · exact hgraph b (hr.name.2 b hb)
  exact ⟨fun h => (hall 10 h).1 rfl, fun b hb => (hall b hb).2⟩

end Response

/-! ## 送る側と受け取る側 -/

section Wire

variable {d : Decoder} {xs : List (Response × List Line)} {ws : List Line}

theorem Decoder.valid_crlf (d : Decoder) {l : Line} (h : ∀ b ∈ l, b < 0x80) : d.valid (crlf l) = true := by
  refine d.ascii _ fun b hb => ?_
  rcases List.mem_append.mp hb with hb | hb
  · exact h b hb
  · exact ascii_of_all (by decide) b hb

/-- 読めない行を飛ばしても、同じ応答の並びである。 -/
theorem Wire.heard (hgood : ∀ r ∈ xs.map Prod.fst, r.Good) (h : Wire d xs ws) :
    Wire d (xs.map fun x => (x.1, x.2.filter fun l => d.valid (crlf l))) (ws.filter fun l => d.valid (crlf l)) := by
  induction h with
  | nil => exact .nil
  | @idle l xs ws hbegin hnl _ ih =>
      rw [List.filter_cons]
      split
      · exact .idle hbegin hnl (ih hgood)
      · exact ih hgood
  | @response r mid xs ws hmid hbody _ ih =>
      have hheader : d.valid (crlf r.header) = true := d.valid_crlf (hgood r List.mem_cons_self).ascii_header.2
      have hend : d.valid (crlf endMark) = true := d.valid_crlf (ascii_of_all (by decide))
      have hcarries : Carries d r (mid.filter fun l => d.valid (crlf l)) := by
        rw [Carries, ← hbody, List.filter_filter]
        refine List.filter_congr fun l _ => ?_
        rw [Bool.and_right_comm, Bool.and_self]
      rw [List.filter_append, List.filter_cons_of_pos (p := fun l => d.valid (crlf l)) hheader,
        List.filter_cons_of_pos (p := fun l => d.valid (crlf l)) hend]
      exact .response (fun l hl => hmid l (List.mem_filter.mp hl).1) hcarries
        (ih fun r hr => hgood r (List.mem_cons_of_mem _ hr))

/-- 応答の内容に、読めない行や `Logger` の行を加えられる。 -/
theorem Carries.cons {r : Response} {mid : List Line} (h : Carries d r mid) {l : Line}
    (hl : d.valid (crlf l) = true → logMark.isPrefixOf l = true) : Carries d r (l :: mid) := by
  have hskip : (d.valid (crlf l) && !logMark.isPrefixOf l) = false := by
    cases hvalid : d.valid (crlf l) with
    | true => rw [hl hvalid]; rfl
    | false => rfl
  rw [Carries, List.filter_cons, hskip]
  exact h

/-- 読める行は、`Logger` の行か、応答の内容の行である。 -/
theorem Carries.mem {r : Response} {mid : List Line} (h : Carries d r mid) {l : Line} (hl : l ∈ mid)
    (hvalid : d.valid (crlf l) = true) : logMark.isPrefixOf l = true ∨ logMark.isPrefixOf l = false ∧ l ∈ r.body := by
  cases hlog : logMark.isPrefixOf l with
  | true => exact .inl rfl
  | false =>
      refine .inr ⟨rfl, ?_⟩
      rw [← h, List.mem_filter]
      exact ⟨hl, by rw [hvalid, hlog]; rfl⟩

end Wire

end Wagman.V3.Serial
