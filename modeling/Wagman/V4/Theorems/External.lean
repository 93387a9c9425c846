import Wagman.V4.External

/-!
# 外付けの EEPROM とバイトの配列

素子が書き込みを終えるまで待ってから次の送信を始めるので、`ExternalEEPROM` を通した読み書きは、ただの配列の読み書きと同じ結果を
返す。
-/

namespace Wagman.V4.External

variable {capacity : Nat} {cycle : Nat → Nat} {fuel : Nat} {c : Chip} {m : Nat → UInt8}

/-! ## 送信 -/

/-- 素子の記憶は `m` であり、`fuel` 回呼び出せば応答する。 -/
structure Holds (fuel : Nat) (m : Nat → UInt8) (c : Chip) : Prop where
  mem : c.mem = m
  busy : c.busy < fuel

/-- 待った後の素子は、記憶を変えずに応答できる。 -/
theorem waitForDevice_eq (capacity : Nat) (cycle : Nat → Nat) (h : Holds fuel m c) :
    ∃ c', waitForDevice capacity cycle fuel c = some c' ∧ c'.mem = m ∧ c'.busy = 0 := by
  induction fuel generalizing c with
  | zero => exact absurd h.busy (Nat.not_lt_zero _)
  | succ fuel ih =>
      by_cases hb : 0 < c.busy
      · have hlt := h.busy
        have hrefuse : Holds fuel m c.refuse := ⟨h.mem, by simp only [Chip.refuse]; omega⟩
        obtain ⟨c', hwait, hc'⟩ := ih hrefuse
        refine ⟨c', ?_, hc'⟩
        simpa only [waitForDevice, endTransmission, if_pos hb, Bool.false_eq_true, if_false] using hwait
      · refine ⟨c, ?_, h.mem, by omega⟩
        simp only [waitForDevice, endTransmission, if_neg hb, Chip.receive, if_true]

/-- 二バイトに分けた番地を、素子はもとの番地として覚える。 -/
theorem writeAddress_eq (hcap : capacity ≤ 65536) {addr : Nat} (h : addr < capacity) :
    ((UInt8.ofNat (addr / 256)).toNat * 256 + (UInt8.ofNat addr).toNat) % capacity = addr := by
  have hparts : (UInt8.ofNat (addr / 256)).toNat * 256 + (UInt8.ofNat addr).toNat = addr := by
    rw [UInt8.toNat_ofNat', UInt8.toNat_ofNat']
    omega
  rw [hparts, Nat.mod_eq_of_lt h]

/-! ## 一バイトの読み書き -/

theorem read_eq (hcap : capacity ≤ 65536) (cycle : Nat → Nat) {addr : Nat} (ha : addr < capacity) (h : Holds fuel m c) :
    ∃ c', read capacity cycle fuel addr c = some (m addr, c') ∧ Holds fuel m c' := by
  obtain ⟨u, hwait, hmem, hbusy⟩ := waitForDevice_eq capacity cycle h
  have hidle : ¬0 < u.busy := by omega
  have hfuel : 0 < fuel := Nat.lt_of_le_of_lt (Nat.zero_le _) h.busy
  refine ⟨{ u with pointer := (addr + 1) % capacity }, ?_, hmem, by simpa only [hbusy] using hfuel⟩
  simp only [read, hwait, Option.bind_eq_bind, Option.bind_some, endTransmission, if_neg hidle, writeAddress,
    Chip.receive, if_true, requestFrom, writeAddress_eq hcap ha, hmem]

theorem write_eq (hcap : capacity ≤ 65536) (hc : ∀ k, cycle k < fuel) {addr : Nat} (ha : addr < capacity)
    (v : UInt8) (h : Holds fuel m c) :
    ∃ c', write capacity cycle fuel addr v c = some c' ∧ Holds fuel (Bytes.store addr v m) c' := by
  obtain ⟨u, hwait, hmem, hbusy⟩ := waitForDevice_eq capacity cycle h
  have hidle : ¬0 < u.busy := by omega
  refine ⟨u.receive capacity cycle (writeAddress addr ++ [v]), ?_, ?_, hc u.writes⟩
  · simp only [write, hwait, Option.bind_eq_bind, Option.bind_some, endTransmission, if_neg hidle]
  · simp only [writeAddress, List.cons_append, List.nil_append, Chip.receive, List.foldl_cons, List.foldl_nil,
      Chip.place, writeAddress_eq hcap ha, hmem]
    rfl

/-! ## 値の読み書き -/

theorem get_eq (hcap : capacity ≤ 65536) (cycle : Nat → Nat) {addr size : Nat} (ha : addr + size ≤ capacity)
    (h : Holds fuel m c) :
    ∃ c', get capacity cycle fuel addr size c = some (Bytes.get m addr size, c') ∧ Holds fuel m c' := by
  induction size generalizing addr c with
  | zero => exact ⟨c, rfl, h⟩
  | succ size ih =>
      obtain ⟨u, hread, hu⟩ := read_eq hcap cycle (by omega : addr < capacity) h
      obtain ⟨c', hget, hc'⟩ := ih (by omega : addr + 1 + size ≤ capacity) hu
      refine ⟨c', ?_, hc'⟩
      simp only [get, hread, hget, Option.bind_eq_bind, Option.bind_some, Bytes.get]

theorem put_eq (hcap : capacity ≤ 65536) (hc : ∀ k, cycle k < fuel) {addr size : Nat}
    (ha : addr + size ≤ capacity) (n : Nat) (h : Holds fuel m c) :
    ∃ c', put capacity cycle fuel addr size n c = some c' ∧ Holds fuel (Bytes.put Bytes.store addr size n m) c' := by
  induction size generalizing addr n c m with
  | zero => exact ⟨c, rfl, h⟩
  | succ size ih =>
      obtain ⟨u, hwrite, hu⟩ := write_eq hcap hc (by omega : addr < capacity) (UInt8.ofNat n) h
      obtain ⟨c', hput, hc'⟩ := ih (by omega : addr + 1 + size ≤ capacity) (n / 256) hu
      refine ⟨c', ?_, hc'⟩
      simp only [put, hwrite, hput, Option.bind_eq_bind, Option.bind_some]

/-! ## 読み書きの並び -/

theorem simulates (hcap : capacity ≤ 65536) (hc : ∀ k, cycle k < fuel) :
    Simulation.Simulates Access.apply (Access.perform capacity cycle fuel) (Holds fuel)
      (Access.Fits capacity) := by
  intro a m c ha h
  cases a with
  | get addr size =>
      obtain ⟨c', hget, hc'⟩ := get_eq hcap cycle ha h
      exact ⟨c', by rw [Access.perform, hget]; rfl, hc'⟩
  | put addr size n =>
      obtain ⟨c', hput, hc'⟩ := put_eq hcap hc ha n h
      exact ⟨c', by rw [Access.perform, hput]; rfl, hc'⟩

/-- どの書き込みも `fuel` 回より少ない呼び出しの間に終わるなら、素子の容量に収まるどの読み書きの並びも、止まらずに、ただの配列と同じ
値を返し、同じ記憶を残す。 -/
theorem external_refines (hcap : capacity ≤ 65536) (hc : ∀ k, cycle k < fuel) {accesses : List Access}
    (ha : ∀ a ∈ accesses, a.Fits capacity) (hb : c.busy < fuel) :
    ∃ c', Simulation.run (Access.perform capacity cycle fuel) accesses c =
        some ((Simulation.results Access.apply accesses c.mem).1, c') ∧
      c'.mem = (Simulation.results Access.apply accesses c.mem).2 := by
  obtain ⟨c', hrun, hc'⟩ := (simulates hcap hc).run ha (⟨rfl, hb⟩ : Holds fuel c.mem c)
  exact ⟨c', hrun, hc'.mem⟩

/-- 起動の回数を読み、増やして書き、また読む。 -/
def counting : List Access := [.get 8 4, .put 8 4 0x01020304, .get 8 4, .get 10 2]

/-- 書き込みの途中の素子で、書き込みが毎回違う時間かかっても、書いた値が読める。 -/
theorem external_refines_counting :
    ∃ c', Simulation.run (Access.perform 32768 (fun k => 3 + k % 4) 10) counting ⟨fun _ => 0, 0, 5, 0⟩ =
      some ([some 0, none, some 0x01020304, some 0x0102], c') ∧ c'.mem 8 = 4 := by
  have hcycle (k : Nat) : 3 + k % 4 < 10 := by omega
  have hfits : ∀ a ∈ counting, a.Fits 32768 := by
    simp only [counting, List.forall_mem_cons, List.not_mem_nil, false_implies, implies_true, and_true,
      Access.Fits]
    decide
  obtain ⟨c', hrun, hmem⟩ := external_refines (by decide) hcycle hfits
    (by decide : (⟨fun _ => 0, 0, 5, 0⟩ : Chip).busy < 10)
  refine ⟨c', ?_, ?_⟩
  · rw [hrun]
    rfl
  · rw [hmem]
    rfl

end Wagman.V4.External
