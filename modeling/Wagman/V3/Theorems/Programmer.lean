import Wagman.V3.Lemmas.Programmer

/-!
# ブートローダーの書き込みの手順の性質
-/

namespace Wagman.V3.Avr109

open Fetch

variable (chip : Chip)

/-! ## パケットへの分け方 -/

/-- どのように分けて送っても、`CDC_Task` は命令を一つずつ順に行う。 -/
theorem cdcTask_iterate_session {session : List (List UInt8 × List (List UInt8))}
    (h : ∀ c ∈ session, commandLength c.1 = c.1.length ∧ ∃ junk, Carries c.2 c.1 junk) (d : Device) :
    (cdcTask chip)^[session.length] (d, (session.map Prod.snd).flatten) =
      (performAll chip d (session.map Prod.fst), []) := by
  induction session generalizing d with
  | nil => rfl
  | cons c session ih =>
      obtain ⟨hlen, junk, hc⟩ := h c List.mem_cons_self
      rw [List.length_cons, Function.iterate_succ_apply, List.map_cons, List.flatten_cons,
        cdcTask_carries chip hlen hc]
      exact ih (fun c hc => h c (List.mem_cons_of_mem _ hc)) _

def blankChip : Chip := ⟨fun _ => 0, fun _ => 0⟩

def blankDevice : Device := ⟨fun _ => 0xff, Flash.Buffer.empty, false, fun _ => 0xff, 0, 0, []⟩

theorem cdcTask_iterate_session_split :
    (cdcTask blankChip)^[2] (blankDevice, [[code 'A', 1], [2, 9], [code 'd']]) =
      (performAll blankChip blankDevice [[code 'A', 1, 2], [code 'd']], []) :=
  @cdcTask_iterate_session blankChip [([code 'A', 1, 2], [[code 'A', 1], [2, 9]]), ([code 'd'], [[code 'd']])]
    (by
      intro c hc
      rcases List.mem_pair.mp hc with rfl | rfl
      · exact ⟨by decide, [9], ⟨[[code 'A', 1]], [2], rfl, rfl, by decide⟩⟩
      · exact ⟨by decide, [], ⟨[], [code 'd'], rfl, rfl, by decide⟩⟩)
    blankDevice

/-! ## 書き込みと読み出し -/

/-- EEPROM に書き込んだ並びは、読み出すときの分け方によらず、そのとおりに読み出され、フラッシュは変わらない。 -/
theorem performAll_eeprom {blocks : List (List UInt8)} {sizes : List Nat} {base : Nat}
    (hfits : base + blocks.flatten.length ≤ 1024) (hbase : base < 1024) (hsum : sizes.sum = blocks.flatten.length)
    (d : Device) :
    let d' := performAll chip d (setAddress (2 * base) :: (blocks.map fun p => blockCommand 'B' 'E' p.length ++ p) ++
      setAddress (2 * base) :: sizes.map (blockCommand 'g' 'E'))
    d'.eeprom = overlaid base blocks.flatten d.eeprom ∧ d'.flash = d.flash ∧
      d'.responses = d.responses ++ List.replicate (blocks.length + 2) ok ++ blocks.flatten := by
  have hlt : 2 * base < flashSize := by rw [flashSize]; omega
  have heven : 2 * base % 2 = 0 := Nat.mul_mod_right 2 base
  obtain ⟨he, hf, hr⟩ := performAll_writeEeprom chip (currAddress_perform_setAddress chip hlt heven d) hfits
  obtain ⟨he', hf', hr'⟩ := @performAll_readEeprom chip sizes _ _
    (currAddress_perform_setAddress chip hlt heven (performAll chip (perform chip d (setAddress (2 * base)))
      (blocks.map fun p => blockCommand 'B' 'E' p.length ++ p)))
    (by rw [hsum]; omega)
  rw [flash_perform_setAddress] at hf hf'
  rw [eeprom_perform_setAddress] at he he' hr'
  rw [responses_perform_setAddress] at hr hr'
  rw [he] at hr'
  rw [hr, hsum, map_overlaid] at hr'
  rw [performAll, List.foldl_append]
  refine ⟨he'.trans he, hf'.trans hf, hr'.trans ?_⟩
  rw [List.replicate_succ, List.replicate_succ', List.append_assoc, List.append_assoc, List.append_assoc]
  simp

theorem performAll_eeprom_two :
    let d' := performAll blankChip blankDevice
      (setAddress (2 * 5) :: ([[1], [2, 3]].map fun p => blockCommand 'B' 'E' p.length ++ p) ++
        setAddress (2 * 5) :: [3].map (blockCommand 'g' 'E'))
    d'.eeprom = overlaid 5 [1, 2, 3] (fun _ => 0xff) ∧ d'.flash = (fun _ => 0xff) ∧
      d'.responses = [] ++ List.replicate 4 ok ++ [1, 2, 3] :=
  @performAll_eeprom blankChip [[1], [2, 3]] [3] _ (by decide) (by decide) rfl blankDevice

/-! ## 途中で離れたホスト -/

/-- どのバイトがどのように届いても、ブロックやページを書くときの番地がブートローダーの前にある限り、ブートローダーは変わらない。 -/
theorem cdcTask_iterate_bootloader {n : Nat} {x : Device × List (List UInt8)}
    (h : ∀ k < n, Guarded ((cdcTask chip)^[k] x)) {a : Nat} (ha : bootStart ≤ a) :
    ((cdcTask chip)^[n] x).1.flash a = x.1.flash a := by
  induction n with
  | zero => rfl
  | succ n ih =>
      rw [Function.iterate_succ_apply']
      exact (cdcTask_sameBoot chip (h n (Nat.lt_succ_self n)) a ha).trans (ih fun k hk => h k (Nat.lt_succ_of_lt hk))

theorem cdcTask_iterate_bootloader_erase :
    ((cdcTask blankChip)^[1] (blankDevice, [[code 'e']])).1.flash 0x7000 = 0xff :=
  cdcTask_iterate_bootloader blankChip
    (fun k hk => by
      obtain rfl : k = 0 := by omega
      intro c _ _
      exact (by decide : flashAddress blankDevice.currAddress < bootStart))
    (Nat.le_refl _)

end Wagman.V3.Avr109
