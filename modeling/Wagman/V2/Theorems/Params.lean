import Wagman.V2.Lemmas.Scan
import Mathlib.Data.List.TakeWhile

/-!
# 設定の受け取り

受け取りは、文字列に `,` がパラメーターの数だけあれば終わり、足りなければ終わらない。終われば、十進法の数の並びは、書かれた順に、それぞれの
変数に書かれる。
-/

namespace Wagman.V2

open Machine

variable {env : Env} {w w' : World} {T : Type} [DecidableEq T]

/-! ## 受け取りの終わり -/

/-- 受け取りは終わり、EEPROM を変えるのは、`,` で終わる数がすべて届いたときだけである。 -/
structure ParamTable.Safe (env : Env) (table : ParamTable T) (w : World) : Prop where
  terminates : ∃ fuel w', table.get env fuel w = some w'
  whole : ∀ fuel w', table.get env fuel w = some w' → w'.hw.eeprom ≠ w.hw.eeprom →
    table.order.length ≤ (env.received w.io).count delimiter

theorem receiveParams_of_nil {cells : List Cell} {request : String} (h : env.received w.io = []) :
    (receiveParams env cells request w).hw = w.hw := by
  have hread : env.received (println request w).io = [] := h
  simp only [receiveParams, hread, if_true]
  rfl

theorem ParamTable.Aligned.safe_iff {table : ParamTable T} {cells : List Cell} (h : table.Aligned cells) (env : Env)
    (w : World) :
    table.Safe env w ↔ env.received w.io = [] ∨ table.order.length ≤ (env.received w.io).count delimiter := by
  constructor
  · rintro ⟨⟨fuel, w', hget⟩, -⟩
    exact ((get_eq_some_iff h).mp ⟨fuel, hget⟩).2
  · intro hready
    obtain ⟨fuel, hget⟩ := (get_eq_some_iff h).mpr ⟨rfl, hready⟩
    refine ⟨⟨fuel, _, hget⟩, fun fuel w' hget hchanged => ?_⟩
    obtain ⟨rfl, hnil | hcount⟩ := (get_eq_some_iff h).mp ⟨fuel, hget⟩
    · exact absurd (congrArg Hardware.eeprom (receiveParams_of_nil hnil)) hchanged
    · exact hcount

/-- 受け取りに問題がないのは、文字列が空か、`,` がパラメーターの数だけあるときである。 -/
theorem params_safe_iff (env : Env) (w : World) :
    (coreTable.Safe env w ↔ env.received w.io = [] ∨ 35 ≤ (env.received w.io).count delimiter) ∧
      (gnTable.Safe env w ↔ env.received w.io = [] ∨ 24 ≤ (env.received w.io).count delimiter) :=
  ⟨aligned_coreTable.safe_iff env w, aligned_gnTable.safe_iff env w⟩

/-- `,` のない一文字が届く環境。 -/
def Env.cut : Env := { Env.ideal with received := fun _ => ascii ['1'] }

/-- どれだけ待っても、受け取りは終わらない。 -/
theorem params_not_safe :
    ¬coreTable.Safe Env.cut (powerOn Eeprom.ready) ∧ ¬gnTable.Safe Env.cut (powerOn Eeprom.ready) := by
  constructor
  · rw [aligned_coreTable.safe_iff]
    decide
  · rw [aligned_gnTable.safe_iff]
    decide

/-! ## 十進法の数 -/

/-- 整数の十進法の表記。 -/
def numeral : Int → List UInt8
  | .ofNat n => ascii (Nat.toDigits 10 n)
  | .negSucc n => ascii ('-' :: Nat.toDigits 10 (n + 1))

/-- 設定の数を書かれた順に並べた文字列。どの数にも `,` が続く。 -/
def message (ints : List Int) : List UInt8 := ints.flatMap fun n => numeral n ++ [delimiter]

theorem digits_snoc {s : List UInt8} (hs : s.all isdigit = true) {c : UInt8} (hc : isdigit c = true) :
    digits (s ++ [c]) = 10 * digits s + (c.toNat - 0x30) := by
  have hself : s.takeWhile isdigit = s := List.takeWhile_eq_self_iff.mpr (List.all_eq_true.mp hs)
  have hwhole : (s ++ [c]).takeWhile isdigit = s ++ [c] := by
    rw [List.takeWhile_append_of_pos (List.all_eq_true.mp hs), List.takeWhile_cons_of_pos hc, List.takeWhile_nil]
  rw [digits, digits, hself, hwhole, List.foldl_append]
  rfl

theorem isdigit_digitChar {d : Nat} (hd : d < 10) :
    isdigit (UInt8.ofNat (Nat.digitChar d).toNat) = true ∧ (UInt8.ofNat (Nat.digitChar d).toNat).toNat = 0x30 + d := by
  rw [Nat.toNat_digitChar_of_lt_ten hd]
  have hval : (UInt8.ofNat (48 + d)).toNat = 48 + d := by
    rw [UInt8.toNat_ofNat']
    omega
  refine ⟨?_, hval⟩
  simp only [isdigit, Bool.and_eq_true, decide_eq_true_eq, UInt8.le_iff_toNat_le, hval, UInt8.reduceToNat]
  omega

/-- 十進法の表記を読むと、元の数になる。桁の数についての帰納法による。 -/
theorem digits_toDigits (n : Nat) :
    (ascii (Nat.toDigits 10 n)).all isdigit = true ∧ digits (ascii (Nat.toDigits 10 n)) = n := by
  induction n using Nat.strongRecOn with
  | _ n ih =>
      rcases Nat.lt_or_ge n 10 with hlt | hge
      · obtain ⟨hdigit, hval⟩ := isdigit_digitChar hlt
        rw [Nat.toDigits_of_lt_base hlt]
        have hone : digits ([] ++ [UInt8.ofNat (Nat.digitChar n).toNat]) = _ := digits_snoc rfl hdigit
        refine ⟨by rw [ascii, List.map_singleton, List.all_cons, hdigit]; rfl, hone.trans ?_⟩
        rw [hval, Nat.add_sub_cancel_left]
        exact Nat.zero_add n
      · obtain ⟨hall, hdigits⟩ := ih (n / 10) (by omega)
        obtain ⟨hdigit, hval⟩ := isdigit_digitChar (Nat.mod_lt n (by omega : 0 < 10))
        rw [Nat.toDigits_of_base_le (by omega) hge, ascii, List.map_append, List.map_singleton, ← ascii]
        refine ⟨by rw [List.all_append, hall, List.all_cons, hdigit]; rfl, ?_⟩
        rw [digits_snoc hall hdigit, hdigits, hval]
        omega

theorem toInt_of_digits {c : UInt8} {s : List UInt8} (hall : (c :: s).all isdigit = true) :
    toInt (c :: s) = Int.bmod (digits (c :: s)) (2 ^ 32) := by
  have hc : isdigit c = true := List.all_eq_true.mp hall c List.mem_cons_self
  rw [toInt, List.dropWhile_cons_of_neg (by simp [isspace_of_isdigit hc])]
  -- 先頭は符号ではない
  split
  · rename_i heq
    rw [(List.cons.inj heq).1] at hc
    exact absurd hc (by decide)
  · rename_i heq
    rw [(List.cons.inj heq).1] at hc
    exact absurd hc (by decide)
  · rfl

/-- `toInt` は、十進法の表記を 32 ビットの整数に変える。 -/
theorem toInt_numeral (n : Int) : toInt (numeral n) = Int.bmod n (2 ^ 32) := by
  cases n with
  | ofNat n =>
      obtain ⟨hall, hdigits⟩ := digits_toDigits n
      have hne : ascii (Nat.toDigits 10 n) ≠ [] := List.map_eq_nil_iff.not.mpr Nat.toDigits_ne_nil
      obtain ⟨c, s, hs⟩ := List.exists_cons_of_ne_nil hne
      rw [numeral, hs, toInt_of_digits (by rw [← hs]; exact hall), ← hs, hdigits]
      rfl
  | negSucc n =>
      obtain ⟨-, hdigits⟩ := digits_toDigits (n + 1)
      have hsign : toInt (numeral (.negSucc n)) = Int.bmod (-digits (ascii (Nat.toDigits 10 (n + 1)))) (2 ^ 32) := rfl
      rw [hsign, hdigits]
      rfl

theorem delimiter_notMem_numeral (n : Int) : delimiter ∉ numeral n := by
  have hdigit : ∀ m, delimiter ∉ ascii (Nat.toDigits 10 m) := fun m hmem =>
    absurd (List.all_eq_true.mp (digits_toDigits m).1 delimiter hmem) (by decide)
  cases n with
  | ofNat n => exact hdigit n
  | negSucc n => exact fun hmem => (List.mem_cons.mp hmem).elim (by decide) (hdigit (n + 1))

theorem scanFields_message (ints : List Int) : scanFields ints.length (message ints) = some (ints.map numeral) := by
  induction ints with
  | nil => rfl
  | cons n ints ih =>
      have hfirst : message (n :: ints) = numeral n ++ delimiter :: message ints := by
        rw [message, List.flatMap_cons, List.append_assoc]
        rfl
      rw [hfirst]
      exact scanFields_succ_eq_some.mpr
        ⟨numeral n, message ints, ints.map numeral, scanField_append (delimiter_notMem_numeral n) _, ih, rfl⟩

/-! ## 変数の値 -/

/-- 変数が取る値の範囲。`word` は符号の有無を問わない。 -/
def Cell.InRange (n : Int) : Cell → Prop
  | .byte _ => 0 ≤ n ∧ n ≤ 255
  | .word _ => -32768 ≤ n ∧ n ≤ 65535
  | .usartBaud => 0 ≤ n ∧ n ≤ 2 ^ 31 - 1

instance (n : Int) : (c : Cell) → Decidable (c.InRange n)
  | .byte _ => inferInstanceAs (Decidable (_ ∧ _))
  | .word _ => inferInstanceAs (Decidable (_ ∧ _))
  | .usartBaud => inferInstanceAs (Decidable (_ ∧ _))

/-- 変数のビット数。 -/
def Cell.width : Cell → Nat
  | .byte _ => 8
  | .word _ => 16
  | .usartBaud => 32

/-- 変数を符号のない数として読んだ値。 -/
def Cell.value (e : Eeprom) : Cell → Nat
  | .byte c => (e.byte c).toNat
  | .word c => (e.word c).toNat
  | .usartBaud => e.usartBaud.toNat

/-- `width` ビットの二の補数。 -/
def twosComplement (width : Nat) (n : Int) : Int := if n < 0 then n + 2 ^ width else n

/-- 変数の値が `n` である。 -/
def Cell.Holds (e : Eeprom) (n : Int) (c : Cell) : Prop := (c.value e : Int) = twosComplement c.width n

theorem value_of_writes {C : Cell → Prop} (h : Trail (Event.Writes C) w w') {c : Cell} (hc : ¬C c) :
    c.value w'.hw.eeprom = c.value w.hw.eeprom := by
  refine h.hw_induct (P := fun s => c.value s.eeprom = c.value w.hw.eeprom) ?_ rfl
  intro e s he hs
  have hne : ∀ q, C q → c ≠ q := fun q hq heq => hc (heq ▸ hq)
  cases e with
  | byte q v =>
      cases c with
      | byte c =>
          have hcell : c ≠ q := fun heq => hne _ he (congrArg Cell.byte heq)
          simpa [Effect.apply, Cell.value, Function.update_of_ne hcell] using hs
      | _ => exact hs
  | word q v =>
      cases c with
      | word c =>
          have hcell : c ≠ q := fun heq => hne _ he (congrArg Cell.word heq)
          simpa [Effect.apply, Cell.value, Function.update_of_ne hcell] using hs
      | _ => exact hs
  | usartBaud v =>
      cases c with
      | usartBaud => exact absurd rfl (hne _ he)
      | _ => exact hs
  | _ => exact hs

theorem value_update (field : List UInt8) (c : Cell) (w : World) :
    (c.value (c.update env field w).hw.eeprom : Int) = toInt field % 2 ^ c.width := by
  cases c with
  | byte c =>
      have hcell : (toByte (toInt field)).toNat = (toInt field % 2 ^ 8).toNat % 2 ^ 8 := UInt8.toNat_ofNat'
      rw [Cell.value, Cell.update, updateByte, emit_hw]
      simp only [Effect.apply, Function.update_self, Cell.width, hcell]
      omega
  | word c =>
      have hcell : (toWord (toInt field)).toNat = (toInt field % 2 ^ 16).toNat % 2 ^ 16 := UInt16.toNat_ofNat'
      rw [Cell.value, Cell.update, updateWord, emit_hw]
      simp only [Effect.apply, Function.update_self, Cell.width, hcell]
      omega
  | usartBaud =>
      have hcell : (toLong (toInt field)).toNat = (toInt field % 2 ^ 32).toNat % 2 ^ 32 := UInt32.toNat_ofNat'
      rw [Cell.value, Cell.update, emit_hw]
      simp only [Effect.apply, Cell.width, hcell]
      omega

theorem holds_update {n : Int} {c : Cell} (hn : c.InRange n) (w : World) :
    c.Holds (c.update env (numeral n) w).hw.eeprom n := by
  have hdvd : (2 ^ c.width : Int) ∣ 2 ^ 32 := pow_dvd_pow 2 (by cases c <;> simp [Cell.width])
  have hmod : Int.bmod n (2 ^ 32) % (2 ^ 32) = n % 2 ^ 32 := Int.bmod_emod
  rw [Cell.Holds, value_update, toInt_numeral, ← Int.emod_emod_of_dvd _ hdvd, hmod, Int.emod_emod_of_dvd _ hdvd,
    twosComplement]
  cases c with
  | byte c =>
      obtain ⟨hlo, hhi⟩ := hn
      simp only [Cell.width]
      omega
  | word c =>
      obtain ⟨hlo, hhi⟩ := hn
      simp only [Cell.width]
      omega
  | usartBaud =>
      obtain ⟨hlo, hhi⟩ := hn
      simp only [Cell.width]
      omega

/-- 重複のない変数に順に書くと、どの変数も、それに対応する数を持つ。 -/
theorem holds_foldl {cells : List Cell} {ints : List Int} (hnodup : cells.Nodup)
    (h : List.Forall₂ (fun c n => c.InRange n) cells ints) (w : World) :
    List.Forall₂ (fun c n => c.Holds
      (((ints.map numeral).zip cells).foldl (fun w p => p.2.update env p.1 w) w).hw.eeprom n) cells ints := by
  induction h generalizing w with
  | nil => exact .nil
  | @cons c n cells ints hn hrest ih =>
      obtain ⟨hc, hnodup⟩ := List.nodup_cons.mp hnodup
      have hstill : Still (Event.Writes (· ∈ cells)) (c.update env (numeral n) w)
          (((ints.map numeral).zip cells).foldl (fun w p => p.2.update env p.1 w) (c.update env (numeral n) w)) :=
        Still.foldl (fun _ _ hp => writes_update (List.of_mem_zip hp).2 _) _
      refine .cons ?_ (ih hnodup _)
      rw [Cell.Holds, List.map_cons, List.zip_cons_cons, List.foldl_cons, value_of_writes hstill.trail hc]
      exact holds_update hn w

/-- 変数 `cells` が順に `ints` の値を持ち、ほかの変数は変わらない。 -/
structure Stored (cells : List Cell) (ints : List Int) (e e' : Eeprom) : Prop where
  holds : List.Forall₂ (fun c n => c.Holds e' n) cells ints
  frame : ∀ c ∉ cells, c.value e' = c.value e

theorem ParamTable.Aligned.decodes {table : ParamTable T} {cells : List Cell} (h : table.Aligned cells)
    (hcells : cells ≠ []) (hnodup : cells.Nodup) {ints : List Int}
    (hints : List.Forall₂ (fun c n => c.InRange n) cells ints) (hmessage : env.received w.io = message ints) :
    ∃ fuel w', table.get env fuel w = some w' ∧ Stored cells ints w.hw.eeprom w'.hw.eeprom := by
  have hfields : scanFields cells.length (env.received w.io) = some (ints.map numeral) := by
    rw [hmessage, hints.length_eq, scanFields_message]
  have hready : table.order.length ≤ (env.received w.io).count delimiter :=
    Nat.not_lt.mp fun hlt => nomatch hfields.symm.trans (scanFields_eq_none.mpr (h.length ▸ hlt))
  have hne : env.received w.io ≠ [] := fun hnil => by
    rw [hnil, List.count_nil, h.length] at hready
    exact hcells (List.length_eq_zero_iff.mp (Nat.le_zero.mp hready))
  have hreceive : receiveParams env cells table.request w =
      ((ints.map numeral).zip cells).foldl (fun w p => p.2.update env p.1 w)
        (ioRead env (println table.request w)) := by
    have hread : env.received (println table.request w).io = env.received w.io := rfl
    simp only [receiveParams, hread, if_neg hne, hfields]
  obtain ⟨fuel, hget⟩ := (get_eq_some_iff h).mpr ⟨rfl, .inr hready⟩
  refine ⟨fuel, _, hget, ?_, fun c hc => value_of_writes (sets_receiveParams cells table.request).trail hc⟩
  rw [hreceive]
  exact holds_foldl hnodup hints _

/-- 範囲の中の数の十進法の表記を並べて受け取ると、数は順に、それぞれの変数に書かれ、ほかの変数は変わらない。 -/
theorem params_decoded (env : Env) (w : World) :
    (∀ ints, List.Forall₂ (fun c n => c.InRange n) coreCells ints → env.received w.io = message ints →
        ∃ fuel w', coreTable.get env fuel w = some w' ∧ Stored coreCells ints w.hw.eeprom w'.hw.eeprom) ∧
      ∀ ints, List.Forall₂ (fun c n => c.InRange n) gnCells ints → env.received w.io = message ints →
        ∃ fuel w', gnTable.get env fuel w = some w' ∧ Stored gnCells ints w.hw.eeprom w'.hw.eeprom :=
  ⟨fun _ => aligned_coreTable.decodes (by decide) (by decide), fun _ => aligned_gnTable.decodes (by decide) (by decide)⟩

/-- 負の温度を含む、`get_params_core` の設定。 -/
def coldCore : List Int :=
  [57600, 200, 30, 5, 5, 5, 60, 0, 40, 180, 15, 5, 5, 5, 5, 5, 5, 5, 5, 5, -20, 100, -20, 100, 115, 969, 417, 969,
    0, 100, 0, 100, 5000, 2500, 40000]

def coldGNs : List Int :=
  [1, 1, 0, 10, 10, 10, 5, 5, 5, 5, 5, 5, 5, 5, 5, -5, 969, 417, 969, 417, 969, 1500, 1500, 1500]

/-- 設定 `ints` が届く環境。 -/
def Env.sends (ints : List Int) : Env := { Env.ideal with received := fun _ => message ints }

theorem params_decoded_cold :
    (∃ fuel w', coreTable.get (Env.sends coldCore) fuel (powerOn Eeprom.ready) = some w' ∧
      Stored coreCells coldCore (powerOn Eeprom.ready).hw.eeprom w'.hw.eeprom) ∧
    ∃ fuel w', gnTable.get (Env.sends coldGNs) fuel (powerOn Eeprom.ready) = some w' ∧
      Stored gnCells coldGNs (powerOn Eeprom.ready).hw.eeprom w'.hw.eeprom :=
  ⟨(params_decoded (Env.sends coldCore) _).1 coldCore (by decide) rfl,
    (params_decoded (Env.sends coldGNs) _).2 coldGNs (by decide) rfl⟩

end Wagman.V2
