import Wagman.V3.Programmer

/-!
# ブートローダーの命令の補題
-/

namespace Wagman.V3.Avr109

open Fetch Flash

section Program

variable (chip : Chip)

/-! ## 命令の長さ -/

theorem takes_fillFlash (n : Nat) (highByte : Bool) (lowByte : UInt8) (d : Device) :
    Takes n (fillFlash n highByte lowByte d) := by
  induction n generalizing highByte lowByte d with
  | zero => exact takes_pure _
  | succ n ih =>
      refine takes_fetch_bind fun b => ?_
      cases highByte with
      | false => exact ih true b d
      | true => exact ih false lowByte _

theorem takes_writeEeprom (n : Nat) (d : Device) : Takes n (writeEeprom n d) := by
  induction n generalizing d with
  | zero => exact takes_pure _
  | succ n ih => exact takes_fetch_bind fun b => ih _

theorem takes_writeBlock (memoryType : UInt8) (n : Nat) (d : Device) : Takes n (writeBlock memoryType n d) := by
  unfold writeBlock
  split
  · exact (takes_fillFlash n false 0 _).bind fun d => takes_pure _
  · exact (takes_writeEeprom n d).bind fun d => takes_pure _

theorem feed_readWriteMemoryBlock {c : UInt8} {args : List UInt8} (hc : c = code 'B' ∨ c = code 'g')
    (h : commandLength (c :: args) = (c :: args).length) (d : Device) :
    ∃ d', (readWriteMemoryBlock chip c d).feed args = some (d', []) := by
  have hA : ¬c = code 'A' := by rcases hc with rfl | rfl <;> decide
  have hT : ¬(c = code 'T' ∨ c = code 'C' ∨ c = code 'c' ∨ c = code 'D') := by rcases hc with rfl | rfl <;> decide
  rw [commandLength, if_neg hA, if_neg hT, if_pos hc] at h
  have hlen : 4 ≤ (c :: args).length := by
    rw [← h]
    dsimp only
    split
    · exact Nat.le_add_right 4 _
    · exact Nat.le_refl 4
  obtain _ | ⟨hi, _ | ⟨lo, _ | ⟨memoryType, data⟩⟩⟩ := args
  · simp at hlen
  · simp at hlen
  · simp at hlen
  · simp only [List.getD_cons_zero, List.getD_cons_succ, List.length_cons] at h
    rw [readWriteMemoryBlock, feed_fetch_bind, feed_fetch_bind, feed_fetch_bind]
    by_cases hm : memoryType = code 'E' ∨ memoryType = code 'F'
    · rw [if_neg (by tauto)]
      by_cases hg : c = code 'g'
      · rw [if_neg (by rw [hg]; exact fun hB => absurd hB.1 (by decide))] at h
        obtain rfl := List.eq_nil_of_length_eq_zero (show data.length = 0 by omega)
        rw [if_pos hg]
        exact ⟨_, feed_pure _ _⟩
      · rw [if_pos ⟨hc.resolve_right hg, hm⟩] at h
        rw [if_neg hg]
        exact takes_writeBlock memoryType _ d data (by omega)
    · rw [if_neg (fun hB => hm hB.2)] at h
      obtain rfl := List.eq_nil_of_length_eq_zero (show data.length = 0 by omega)
      rw [if_pos (by tauto)]
      exact ⟨_, feed_pure _ _⟩

theorem dispatch_address (d : Device) : dispatch chip (code 'A') d = (do
    let hi ← fetchNextCommandByte
    let lo ← fetchNextCommandByte
    return { d with currAddress := wordAddress hi lo }.writeNextResponseByte ok) := by
  simp +decide only [dispatch, if_true, if_false]

theorem dispatch_block {c : UInt8} (hc : c = code 'B' ∨ c = code 'g') (d : Device) :
    dispatch chip c d = readWriteMemoryBlock chip c { d with timeout := 0 } := by
  rcases hc with rfl | rfl
  · simp +decide only [dispatch, if_true, if_false]
  · simp +decide only [dispatch, if_true, if_false]

/-- バイトを一つ伴う命令。 -/
theorem takes_dispatch {c : UInt8} (hc : c = code 'T' ∨ c = code 'C' ∨ c = code 'c' ∨ c = code 'D') (d : Device) :
    Takes 1 (dispatch chip c d) := by
  rcases hc with rfl | rfl | rfl | rfl
  · simp +decide only [dispatch, if_true, if_false]
    exact takes_fetch_bind fun b => takes_pure _
  · simp +decide only [dispatch, if_true, if_false]
    exact takes_fetch_bind fun b => takes_pure _
  · simp +decide only [dispatch, if_true, if_false]
    exact takes_fetch_bind fun b => takes_pure _
  · simp +decide only [dispatch, if_true, if_false]
    exact takes_fetch_bind fun b => takes_pure _

theorem feed_dispatch {c : UInt8} {args : List UInt8} (h : commandLength (c :: args) = (c :: args).length)
    (d : Device) :
    ∃ d', (dispatch chip c d).feed args = some (d', []) := by
  have hlen := h
  rw [commandLength, List.length_cons] at hlen
  by_cases hA : c = code 'A'
  · rw [if_pos hA] at hlen
    subst hA
    rw [dispatch_address]
    exact (takes_fetch_bind fun hi => takes_fetch_bind fun lo => takes_pure _) args (by omega)
  rw [if_neg hA] at hlen
  by_cases hT : c = code 'T' ∨ c = code 'C' ∨ c = code 'c' ∨ c = code 'D'
  · rw [if_pos hT] at hlen
    exact takes_dispatch chip hT d args (by omega)
  rw [if_neg hT] at hlen
  by_cases hB : c = code 'B' ∨ c = code 'g'
  · rw [dispatch_block chip hB]
    exact feed_readWriteMemoryBlock chip hB h _
  rw [if_neg hB] at hlen
  obtain rfl := List.eq_nil_of_length_eq_zero (show args.length = 0 by omega)
  obtain ⟨hT, hC, hc, hD⟩ : c ≠ code 'T' ∧ c ≠ code 'C' ∧ c ≠ code 'c' ∧ c ≠ code 'D' := by tauto
  rw [dispatch, if_neg hT, if_neg hA, if_neg hB, if_neg hC, if_neg hc, if_neg hD]
  suffices h : Takes 0 _ from h [] rfl
  repeat refine takes_ite (takes_pure _) ?_
  exact takes_pure _

theorem feed_command {bs : List UInt8} (h : commandLength bs = bs.length) (d : Device) :
    (command chip d).feed bs = some (perform chip d bs, []) := by
  obtain _ | ⟨c, args⟩ := bs
  · cases h
  obtain ⟨d', hd'⟩ := feed_dispatch chip h d
  have hfeed : (command chip d).feed (c :: args) = some (d', []) := by rw [command, feed_fetch_bind, hd']
  rw [hfeed, perform, hfeed]
  rfl

theorem cdcTask_carries {bs junk : List UInt8} {ps qs : List (List UInt8)} (h : commandLength bs = bs.length)
    (hc : Carries ps bs junk) (d : Device) : cdcTask chip (d, ps ++ qs) = (perform chip d bs, qs) := by
  obtain _ | ⟨p, ps⟩ := ps
  · obtain ⟨init, body, hps, -, -⟩ := hc.full
    exact absurd hps.symm (List.append_ne_nil_of_right_ne_nil _ (List.cons_ne_nil _ _))
  · have hrun := run_carries (z := 0) hc (feed_command chip h d) qs
    rw [List.cons_append, cdcTask]
    dsimp only
    rw [hrun]

/-! ## 番地 -/

theorem toLong_natCast (n : Nat) : toLong n = UInt32.ofNat n := by
  rw [toLong, ← UInt32.toNat_inj, UInt32.toNat_ofNat', UInt32.toNat_ofNat']
  omega

/-- 上位のビットが立たない番地では、符号は広がらない。 -/
theorem toNat_wordAddress {a : Nat} (ha : a < flashSize) (heven : a % 2 = 0) :
    (wordAddress (UInt8.ofNat (a / 512)) (UInt8.ofNat (a / 2))).toNat = a := by
  rw [flashSize] at ha
  have hhi : (UInt8.ofNat (a / 512)).toNat = a / 512 := by
    rw [UInt8.toNat_ofNat']
    omega
  have hlo : (UInt8.ofNat (a / 2)).toNat * 2 = a % 512 := by
    rw [UInt8.toNat_ofNat']
    omega
  have hbmod : Int.bmod (((UInt8.ofNat (a / 512)).toNat : Int) * 512) (2 ^ 16) = ((2 ^ 9 * (a / 512) : Nat) : Int) := by
    rw [hhi, Int.bmod_eq_of_le_mul_two (by omega) (by omega)]
    omega
  have hlo' : ((UInt8.ofNat (a / 2)).toNat : Int) * 2 = ((a % 512 : Nat) : Int) := by omega
  rw [wordAddress, hbmod, hlo', toLong_natCast, toLong_natCast, UInt32.toNat_or, UInt32.toNat_ofNat',
    UInt32.toNat_ofNat',
    Nat.mod_eq_of_lt (by omega), Nat.mod_eq_of_lt (by omega), ← Nat.two_pow_add_eq_or_of_lt (by omega)]
  omega

/-! ## フラッシュへの書き込み -/

theorem perform_of_feed {bs : List UInt8} {d d' : Device} (h : (command chip d).feed bs = some (d', [])) :
    perform chip d bs = d' := by
  rw [perform, h]
  rfl

theorem perform_setAddress (a : Nat) (d : Device) : ∃ w, w = wordAddress (UInt8.ofNat (a / 512)) (UInt8.ofNat (a / 2)) ∧
    perform chip d (setAddress a) = { d with currAddress := w }.writeNextResponseByte ok := by
  refine ⟨_, rfl, perform_of_feed chip ?_⟩
  rw [setAddress, command, feed_fetch_bind, dispatch_address, feed_fetch_bind, feed_fetch_bind, feed_pure]

@[simp] theorem flash_perform_setAddress (a : Nat) (d : Device) : (perform chip d (setAddress a)).flash = d.flash := by
  obtain ⟨w, -, hw⟩ := perform_setAddress chip a d
  rw [hw]
  rfl

@[simp] theorem eeprom_perform_setAddress (a : Nat) (d : Device) :
    (perform chip d (setAddress a)).eeprom = d.eeprom := by
  obtain ⟨w, -, hw⟩ := perform_setAddress chip a d
  rw [hw]
  rfl

@[simp] theorem responses_perform_setAddress (a : Nat) (d : Device) :
    (perform chip d (setAddress a)).responses = d.responses ++ [ok] := by
  obtain ⟨w, -, hw⟩ := perform_setAddress chip a d
  rw [hw]
  rfl

theorem currAddress_perform_setAddress {a : Nat} (ha : a < flashSize) (heven : a % 2 = 0) (d : Device) :
    (perform chip d (setAddress a)).currAddress.toNat = a := by
  obtain ⟨w, rfl, hw⟩ := perform_setAddress chip a d
  rw [hw]
  exact toNat_wordAddress ha heven

/-- 二つのバイトに分けた大きさ。 -/
theorem blockSize_eq {n : Nat} (hn : n < 65536) : (UInt8.ofNat (n / 256)).toNat * 256 + (UInt8.ofNat n).toNat = n := by
  rw [UInt8.toNat_ofNat', UInt8.toNat_ofNat']
  omega

theorem feed_command_block {c memoryType : Char} {n : Nat} (hc : code c = code 'B' ∨ code c = code 'g') (d : Device)
    (data : List UInt8) :
    (command chip d).feed (blockCommand c memoryType n ++ data) =
      (readWriteMemoryBlock chip (code c) { d with timeout := 0 }).feed
        (UInt8.ofNat (n / 256) :: UInt8.ofNat n :: code memoryType :: data) := by
  rw [blockCommand, List.cons_append, command, feed_fetch_bind, dispatch_block chip hc]
  rfl

theorem eepromAddress_eq {d : Device} {base : Nat} (haddr : d.currAddress.toNat = 2 * base) (hbase : base < 1024) :
    d.eepromAddress = base := by
  rw [Device.eepromAddress, UInt32.toNat_shiftRight, haddr, Nat.shiftRight_eq_div_pow]
  show 2 * base / 2 % 2 ^ 16 = base
  omega

theorem toNat_add_two {a : UInt32} {base : Nat} (haddr : a.toNat = 2 * base) (hbase : base < 1024) :
    (a + 2).toNat = 2 * (base + 1) := by
  rw [UInt32.toNat_add, haddr]
  show (2 * base + 2) % 2 ^ 32 = _
  omega

theorem overlaid_cons (base : Nat) (v : UInt8) (data : List UInt8) (m : Nat → UInt8) :
    overlaid (base + 1) data (Function.update m base v) = overlaid base (v :: data) m := by
  funext x
  unfold overlaid
  rcases Nat.lt_trichotomy x base with hlt | rfl | hgt
  · rw [if_neg (by omega), if_neg (by omega), Function.update_of_ne (by omega)]
  · rw [if_neg (by omega), if_pos (Nat.le_refl x), Function.update_self, Nat.sub_self]
    rfl
  · rw [if_pos (show base + 1 ≤ x from hgt), if_pos hgt.le, Function.update_of_ne (by omega),
      show x - base = x - (base + 1) + 1 by omega]
    rfl

/-- 書いた並びが読み出される。 -/
theorem map_overlaid (base : Nat) (data : List UInt8) (m : Nat → UInt8) :
    (List.range' base data.length).map (overlaid base data m) = data := by
  refine List.ext_getElem (by rw [List.length_map, List.length_range']) fun i hi hi' => ?_
  rw [List.getElem_map, List.getElem_range', overlaid, if_pos (by omega), show base + 1 * i - base = i by omega,
    List.getElem?_eq_getElem hi']
  rfl

theorem feed_writeEeprom {data : List UInt8} {d : Device} {base : Nat} (haddr : d.currAddress.toNat = 2 * base)
    (hfits : base + data.length ≤ 1024) :
    ∃ d', (writeEeprom data.length d).feed data = some (d', []) ∧ d'.eeprom = overlaid base data d.eeprom ∧
      d'.currAddress.toNat = 2 * (base + data.length) ∧ d'.responses = d.responses ∧ d'.flash = d.flash := by
  induction data generalizing d base with
  | nil =>
      refine ⟨d, feed_pure d [], ?_, haddr, rfl, rfl⟩
      funext x
      exact (ite_self _).symm
  | cons v data ih =>
      rw [List.length_cons] at hfits
      rw [List.length_cons, writeEeprom, feed_fetch_bind]
      obtain ⟨d', hd', he, ha, hr, hf⟩ :=
        ih (d := (d.eepromWriteByte v).advance) (toNat_add_two haddr (by omega)) (by omega)
      refine ⟨d', hd', he.trans ?_, ha.trans (by omega), hr, hf⟩
      rw [← overlaid_cons, ← eepromAddress_eq haddr (by omega)]
      rfl

theorem readEeprom_eq {n base : Nat} {d : Device} (haddr : d.currAddress.toNat = 2 * base) (hfits : base + n ≤ 1024) :
    (readEeprom n d).eeprom = d.eeprom ∧ (readEeprom n d).flash = d.flash ∧
      (readEeprom n d).currAddress.toNat = 2 * (base + n) ∧
      (readEeprom n d).responses = d.responses ++ (List.range' base n).map d.eeprom := by
  induction n generalizing d base with
  | zero => exact ⟨rfl, rfl, haddr, (List.append_nil _).symm⟩
  | succ n ih =>
      rw [readEeprom, eepromAddress_eq haddr (by omega)]
      obtain ⟨he, hf, ha, hr⟩ := @ih (base + 1) (d.writeNextResponseByte (d.eeprom base)).advance
        (toNat_add_two haddr (by omega)) (by omega)
      refine ⟨he, hf, ha.trans (by omega), hr.trans ?_⟩
      rw [List.range'_succ, List.map_cons]
      exact List.append_assoc _ _ _

theorem perform_writeEeprom {data : List UInt8} {d : Device} {base : Nat} (haddr : d.currAddress.toNat = 2 * base)
    (hfits : base + data.length ≤ 1024) :
    let d' := perform chip d (blockCommand 'B' 'E' data.length ++ data)
    d'.eeprom = overlaid base data d.eeprom ∧ d'.currAddress.toNat = 2 * (base + data.length) ∧
      d'.responses = d.responses ++ [ok] ∧ d'.flash = d.flash := by
  obtain ⟨d', hd', he, ha, hr, hf⟩ := feed_writeEeprom (d := { d with timeout := 0 }) haddr hfits
  have hperform : perform chip d (blockCommand 'B' 'E' data.length ++ data) = d'.writeNextResponseByte ok := by
    refine perform_of_feed chip ?_
    rw [feed_command_block chip (.inl rfl), readWriteMemoryBlock, feed_fetch_bind, feed_fetch_bind, feed_fetch_bind,
      if_neg (by decide), if_neg (by decide), blockSize_eq (by omega), writeBlock, if_neg (by decide), feed_bind, hd']
    exact feed_pure _ _
  rw [hperform]
  exact ⟨he, ha, congrArg (· ++ [ok]) hr, hf⟩

theorem perform_readEeprom {n : Nat} {d : Device} {base : Nat} (haddr : d.currAddress.toNat = 2 * base)
    (hfits : base + n ≤ 1024) :
    let d' := perform chip d (blockCommand 'g' 'E' n)
    d'.eeprom = d.eeprom ∧ d'.flash = d.flash ∧ d'.currAddress.toNat = 2 * (base + n) ∧
      d'.responses = d.responses ++ (List.range' base n).map d.eeprom := by
  have hperform : perform chip d (blockCommand 'g' 'E' n) =
      readEeprom n (Device.bootRwwEnable { d with timeout := 0 }) := by
    refine perform_of_feed chip ?_
    rw [← List.append_nil (blockCommand 'g' 'E' n), feed_command_block chip (.inr rfl), readWriteMemoryBlock,
      feed_fetch_bind, feed_fetch_bind, feed_fetch_bind, if_neg (by decide), if_pos rfl, feed_pure, readBlock]
    rw [if_neg (by decide), blockSize_eq (by omega)]
  rw [hperform]
  exact readEeprom_eq haddr hfits

theorem overlaid_append (base : Nat) (l l' : List UInt8) (m : Nat → UInt8) :
    overlaid (base + l.length) l' (overlaid base l m) = overlaid base (l ++ l') m := by
  induction l generalizing base m with
  | nil =>
      have hnil : overlaid base [] m = m := by
        funext x
        exact ite_self _
      rw [hnil]
      rfl
  | cons v l ih =>
      rw [← overlaid_cons, List.cons_append, ← overlaid_cons, ← ih, List.length_cons, Nat.add_right_comm,
        Nat.add_assoc]

theorem performAll_writeEeprom {blocks : List (List UInt8)} {base : Nat} {d : Device}
    (haddr : d.currAddress.toNat = 2 * base) (hfits : base + blocks.flatten.length ≤ 1024) :
    let d' := performAll chip d (blocks.map fun p => blockCommand 'B' 'E' p.length ++ p)
    d'.eeprom = overlaid base blocks.flatten d.eeprom ∧ d'.flash = d.flash ∧
      d'.responses = d.responses ++ List.replicate blocks.length ok := by
  induction blocks generalizing base d with
  | nil =>
      refine ⟨?_, rfl, (List.append_nil _).symm⟩
      funext x
      exact (ite_self _).symm
  | cons p blocks ih =>
      rw [List.flatten_cons, List.length_append] at hfits
      obtain ⟨he, ha, hr, hf⟩ := @perform_writeEeprom chip p d base haddr (by omega)
      obtain ⟨he', hf', hr'⟩ := ih ha (by omega)
      rw [List.map_cons, performAll, List.foldl_cons]
      refine ⟨he'.trans ?_, hf'.trans hf, hr'.trans ?_⟩
      · rw [he, overlaid_append, List.flatten_cons]
      · rw [hr, List.append_assoc, List.length_cons, List.replicate_succ]
        rfl

theorem performAll_readEeprom {sizes : List Nat} {base : Nat} {d : Device} (haddr : d.currAddress.toNat = 2 * base)
    (hfits : base + sizes.sum ≤ 1024) :
    let d' := performAll chip d (sizes.map (blockCommand 'g' 'E'))
    d'.eeprom = d.eeprom ∧ d'.flash = d.flash ∧
      d'.responses = d.responses ++ (List.range' base sizes.sum).map d.eeprom := by
  induction sizes generalizing base d with
  | nil => exact ⟨rfl, rfl, (List.append_nil _).symm⟩
  | cons n sizes ih =>
      rw [List.sum_cons] at hfits
      obtain ⟨he, hf, ha, hr⟩ := perform_readEeprom chip (n := n) haddr (by omega)
      obtain ⟨he', hf', hr'⟩ := ih ha (by omega)
      rw [List.map_cons, performAll, List.foldl_cons]
      refine ⟨he'.trans he, hf'.trans hf, hr'.trans ?_⟩
      rw [he, hr, List.sum_cons, List.append_assoc, ← List.map_append, ← List.range'_append_1]

/-! ## ブートローダーの領域 -/

/-- ブートローダーの領域が同じである。 -/
def SameBoot (d d' : Device) : Prop := ∀ x, bootStart ≤ x → d'.flash x = d.flash x

theorem sameBoot_of_flash {d d' : Device} (h : d'.flash = d.flash) : SameBoot d d' := fun x _ => congrFun h x

theorem sameBoot_writeNextResponseByte (v : UInt8) (d : Device) : SameBoot d (d.writeNextResponseByte v) :=
  fun _ _ => rfl

theorem SameBoot.trans {d d' d'' : Device} (h : SameBoot d d') (h' : SameBoot d' d'') : SameBoot d d'' :=
  fun x hx => (h' x hx).trans (h x hx)

theorem page_ne {a x : Nat} (ha : a < bootStart) (hx : bootStart ≤ x) : x / pageSize ≠ a / pageSize := by
  rw [bootStart, pageSize] at *
  omega

theorem sameBoot_bootPageErase {a : UInt32} (ha : flashAddress a < bootStart) (d : Device) :
    SameBoot d (d.bootPageErase a) :=
  fun _ hx => erase_of_ne (page_ne ha hx) _

theorem sameBoot_bootPageWrite {a : UInt32} (ha : flashAddress a < bootStart) (d : Device) :
    SameBoot d (d.bootPageWrite a) :=
  fun _ hx => program_of_ne (page_ne ha hx) _ _

theorem sameBoot_eraseAll (d : Device) : SameBoot d (eraseAll d) := by
  refine List.foldlRecOn (motive := SameBoot d) _ _ (sameBoot_of_flash rfl) fun d' h k hk => ?_
  have ha : flashAddress (UInt32.ofNat (k * pageSize)) < bootStart := by
    have hlt := List.mem_range.mp hk
    rw [flashAddress, UInt32.toNat_ofNat', flashSize]
    rw [bootStart, pageSize] at *
    omega
  exact (h.trans (sameBoot_bootPageErase ha d')).trans (sameBoot_bootPageWrite ha _)

@[simp] theorem flash_respond (bs : List UInt8) (d : Device) : (d.respond bs).flash = d.flash :=
  List.foldlRecOn (motive := fun d' : Device => d'.flash = d.flash) bs _ rfl fun _ h _ _ => h

theorem ensures_fillFlash (n : Nat) (highByte : Bool) (lowByte : UInt8) (d : Device) :
    Ensures (fun d' => d'.flash = d.flash) (fillFlash n highByte lowByte d) := by
  induction n generalizing highByte lowByte d with
  | zero => exact ensures_pure rfl
  | succ n ih =>
      refine ensures_fetch_bind fun b => ?_
      cases highByte with
      | false => exact ih true b d
      | true => exact ih false lowByte (d.bootPageFill d.currAddress (Buffer.word lowByte b)).advance

theorem ensures_writeEeprom (n : Nat) (d : Device) : Ensures (fun d' => d'.flash = d.flash) (writeEeprom n d) := by
  induction n generalizing d with
  | zero => exact ensures_pure rfl
  | succ n ih => exact ensures_fetch_bind fun b => ih (d.eepromWriteByte b).advance

theorem flash_readFlash (n : Nat) (highByte : Bool) (d : Device) : (readFlash chip n highByte d).flash = d.flash := by
  induction n generalizing highByte d with
  | zero => rfl
  | succ n ih =>
      refine (ih _ _).trans ?_
      cases highByte with
      | false => rfl
      | true => rfl

theorem flash_readEeprom (n : Nat) (d : Device) : (readEeprom n d).flash = d.flash := by
  induction n generalizing d with
  | zero => rfl
  | succ n ih => exact ih _

theorem ensures_writeBlock (memoryType : UInt8) (n : Nat) {d : Device} (ha : flashAddress d.currAddress < bootStart) :
    Ensures (SameBoot d) (writeBlock memoryType n d) := by
  unfold writeBlock
  split
  · refine (ensures_fillFlash n false 0 _).bind fun d' hd' => ensures_pure ?_
    exact (sameBoot_bootPageErase ha d).trans ((sameBoot_of_flash hd').trans (sameBoot_bootPageWrite ha d'))
  · exact (ensures_writeEeprom n d).bind fun d' hd' => ensures_pure (sameBoot_of_flash hd')

theorem ensures_readWriteMemoryBlock {c : UInt8} {d : Device}
    (hc : c = code 'g' ∨ flashAddress d.currAddress < bootStart) :
    Ensures (SameBoot d) (readWriteMemoryBlock chip c d) := by
  refine ensures_fetch_bind fun hi => ensures_fetch_bind fun lo => ensures_fetch_bind fun memoryType => ?_
  refine ensures_ite (fun _ => ensures_pure (sameBoot_of_flash rfl)) fun _ => ?_
  refine ensures_ite (fun _ => ensures_pure (sameBoot_of_flash ?_)) fun hg => ?_
  · unfold readBlock
    split
    · exact flash_readFlash chip _ _ _
    · exact flash_readEeprom _ _
  · exact ensures_writeBlock memoryType _ (hc.resolve_left hg)

theorem ensures_dispatch {c : UInt8} {d : Device}
    (hc : c = code 'B' ∨ c = code 'm' → flashAddress d.currAddress < bootStart) :
    Ensures (SameBoot d) (dispatch chip c d) := by
  have hsame : ∀ d' : Device, d'.flash = d.flash → Ensures (SameBoot d) (pure d' : Fetch UInt8 Device) :=
    fun d' h => ensures_pure (sameBoot_of_flash h)
  have hfetch : ∀ f : UInt8 → Device, (∀ b, (f b).flash = d.flash) →
      Ensures (SameBoot d) (do let b ← fetchNextCommandByte; return f b) :=
    fun f h => ensures_fetch_bind fun b => hsame _ (h b)
  have haddr : ∀ f : UInt8 → UInt8 → UInt32, Ensures (SameBoot d) (do
      let hi ← fetchNextCommandByte
      let lo ← fetchNextCommandByte
      return { d with currAddress := f hi lo }.writeNextResponseByte ok) :=
    fun f => ensures_fetch_bind fun hi => ensures_fetch_bind fun lo => hsame _ rfl
  unfold dispatch
  refine ensures_ite (fun _ => hsame _ rfl) fun _ => ?_
  refine ensures_ite (fun _ => hfetch _ fun b => rfl) fun _ => ?_
  refine ensures_ite (fun _ => hsame _ rfl) fun _ => ?_
  refine ensures_ite (fun _ => hsame _ (flash_respond _ d)) fun _ => ?_
  refine ensures_ite (fun _ => hsame _ rfl) fun _ => ?_
  refine ensures_ite (fun _ => haddr _) fun _ => ?_
  refine ensures_ite (fun _ => hsame _ rfl) fun _ => ?_
  refine ensures_ite (fun _ => hsame _ (flash_respond _ d)) fun _ => ?_
  refine ensures_ite (fun _ => hsame _ (flash_respond _ d)) fun _ => ?_
  refine ensures_ite (fun _ => hsame _ (flash_respond _ d)) fun _ => ?_
  refine ensures_ite (fun _ => ?_) fun _ => ?_
  · exact ensures_pure ((sameBoot_eraseAll d).trans (sameBoot_writeNextResponseByte ok _))
  refine ensures_ite (fun _ => hsame _ rfl) fun _ => ?_
  refine ensures_ite (fun _ => hsame _ rfl) fun _ => ?_
  refine ensures_ite (fun _ => hsame _ rfl) fun _ => ?_
  refine ensures_ite (fun _ => hsame _ rfl) fun _ => ?_
  refine ensures_ite (fun _ => hsame _ (flash_respond _ d)) fun _ => ?_
  refine ensures_ite (fun h => ?_) fun _ => ?_
  · show Ensures (SameBoot { d with timeout := 0 }) _
    exact ensures_readWriteMemoryBlock chip (h.symm.imp id fun hB => hc (.inl hB))
  refine ensures_ite (fun _ => hfetch _ fun b => rfl) fun _ => ?_
  refine ensures_ite (fun _ => hfetch _ fun b => rfl) fun _ => ?_
  refine ensures_ite (fun h => ?_) fun _ => ?_
  · exact ensures_pure ((sameBoot_bootPageWrite (hc (.inr h)) d).trans (sameBoot_writeNextResponseByte ok _))
  refine ensures_ite (fun _ => hsame _ (flash_respond _ d)) fun _ => ?_
  refine ensures_ite (fun _ => hfetch _ fun b => rfl) fun _ => ?_
  refine ensures_ite (fun _ => hsame _ rfl) fun _ => ?_
  refine ensures_ite (fun _ => hsame _ rfl) fun _ => ?_
  exact hsame d rfl

theorem cdcTask_sameBoot {x : Device × List (List UInt8)} (h : Guarded x) : SameBoot x.1 (cdcTask chip x).1 := by
  obtain ⟨d, _ | ⟨p, ps⟩⟩ := x
  · exact sameBoot_of_flash rfl
  · show SameBoot d ((command chip d).run 0 ⟨p, ps, true⟩).1
    have hrun : (command chip d).run 0 ⟨p, ps, true⟩ =
        (dispatch chip (take 0 (p :: ps)).1 d).run 0 (take 0 (p :: ps)).2 := rfl
    rw [hrun]
    refine (ensures_dispatch chip fun hc => ?_).run _ _
    rcases take_flatten 0 (p :: ps) with ⟨-, htake⟩ | ⟨a, bank, queue, hflat, htake⟩
    · rw [htake] at hc
      exact absurd hc (by decide)
    · rw [htake] at hc
      exact h a (by rw [hflat]; rfl) hc

end Program

end Wagman.V3.Avr109
