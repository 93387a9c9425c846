import Wagman.V2.Lemmas.Monitor
import Wagman.V2.Lemmas.Setup
import Mathlib.Data.List.TakeWhile

/-!
# 起動の失敗の回数

`setup` は、`boot_primary` が失敗すると `E_NUM_PRIMARY_BOOT_ATTEMPTS` を増やし、上限に達していれば 0 に戻して止まる。成功しても
0 に戻さない。`init_primary` にある 0 に戻す行は、注釈にされている。
-/

namespace Wagman.V2

open Machine

/-! ## 起動の履歴 -/

/-- 一回の起動の結果。`failure` と `sleep` は、`boot_primary` が失敗したときである。 -/
inductive Outcome
  | success
  | failure
  | sleep
  deriving DecidableEq, Repr

/-- `setup` の終わりの段階から分かる結果。終わらない繰り返しに入れば、結果はない。 -/
def outcome (w : World) : Option Outcome :=
  match w.ram.stage with
  | .running => some .success
  | .restarting => some .failure
  | .asleep => some .sleep
  | .hung => none

/-- 一回の起動。`stored` は、起動の前の `E_NUM_PRIMARY_BOOT_ATTEMPTS` である。 -/
structure Attempt where
  stored : UInt8
  outcome : Outcome
  deriving DecidableEq

/-- `set_default_eeprom` の後の起動の履歴と、その後の EEPROM。新しい起動を先頭に置く。起動の後は `loop` が何回でも行われ、
その途中のどの時点で次の起動になってもよい。上限は `max` のままである。 -/
inductive History (max : UInt8) : List Attempt → Eeprom → Prop
  | fresh {e : Eeprom} : e.byte .numPrimaryBootAttempts = 0 → e.byte .firstBoot = 0 →
      e.byte .maxNumPrimaryBootAttempts = max → History max [] e
  | boot {as : List Attempt} {e : Eeprom} {env : Env} {o : Outcome} {ops : List Op} {h : Hardware} :
      History max as e → outcome (setup env (powerOn e)) = some o →
      readByte .maxNumPrimaryBootAttempts (setup env (powerOn e)) = max →
      During (setup env (powerOn e)) (run env ops (setup env (powerOn e))) h →
      History max (⟨e.byte .numPrimaryBootAttempts, o⟩ :: as) h.eeprom

/-- 直前の `max` 回の起動が、どれも失敗した。 -/
def Exhausted (max : UInt8) (as : List Attempt) : Prop :=
  max.toNat ≤ as.length ∧ ∀ a ∈ as.take max.toNat, a.outcome ≠ .success

/-- 成功した起動は、どれも `E_NUM_PRIMARY_BOOT_ATTEMPTS` が 0 のときに行われた。 -/
def Clean (as : List Attempt) : Prop := ∀ a ∈ as, a.outcome = .success → a.stored = 0

/-! ## 回数の変化 -/

/-- 結果が `o` の起動による、失敗の回数の変化。 -/
inductive Advances (max n : UInt8) : Outcome → UInt8 → Prop
  | success : Advances max n .success n
  | failure : n + 1 < max → Advances max n .failure (n + 1)
  | sleep : max ≤ n + 1 → Advances max n .sleep 0

/-- 失敗の回数だけを見た履歴。 -/
inductive Trace (max : UInt8) : List Attempt → UInt8 → Prop
  | nil : Trace max [] 0
  | cons {as : List Attempt} {n n' : UInt8} {o : Outcome} :
      Trace max as n → Advances max n o n' → Trace max (⟨n, o⟩ :: as) n'

variable {env : Env} {max n : UInt8} {as l : List Attempt} {o : Outcome} {e : Eeprom} {w : World}

/-- 止まらずに続けて失敗した、最近の起動の回数。 -/
def failures (as : List Attempt) : Nat := (as.takeWhile fun a => a.outcome = .failure).length

theorem failures_take {k : Nat} (hk : k ≤ failures l) : ∀ a ∈ l.take k, a.outcome = .failure := by
  intro a ha
  have hlead : l.take k <+: l.takeWhile fun a => a.outcome = .failure :=
    List.prefix_of_prefix_length_le (List.take_prefix k l) (List.takeWhile_prefix _)
      (Nat.le_trans (List.length_take_le k l) hk)
  simpa using List.mem_takeWhile_imp (hlead.subset ha)

theorem le_failures {k : Nat} (h : List.replicate k Outcome.failure <+: l.map Attempt.outcome) : k ≤ failures l := by
  induction k generalizing l with
  | zero => exact Nat.zero_le _
  | succ k ih =>
      cases l with
      | nil => simp at h
      | cons a l =>
          rw [List.replicate_succ, List.map_cons, List.cons_prefix_cons] at h
          obtain ⟨ha, hl⟩ := h
          have hle := ih hl
          simp only [failures, List.takeWhile_cons, ← ha, decide_true, if_true, List.length_cons] at hle ⊢
          omega

theorem toNat_succ (h : n < max) : (n + 1).toNat = n.toNat + 1 := by
  have hlt := UInt8.lt_iff_toNat_lt.mp h
  have hmax := max.toNat_lt
  rw [UInt8.toNat_add, UInt8.toNat_one]
  omega

/-- 保存された回数は上限より小さく、最近続けて失敗した回数以上である。成功した起動がどれも 0 から始まれば、二つは等しい。 -/
theorem Trace.counter (hmax : 1 ≤ max) (h : Trace max as n) :
    n < max ∧ failures as ≤ n.toNat ∧ (Clean as → n.toNat = failures as) := by
  induction h with
  | nil => exact ⟨UInt8.lt_iff_toNat_lt.mpr (UInt8.le_iff_toNat_le.mp hmax), Nat.zero_le _, fun _ => rfl⟩
  | @cons as n n' o ht ha ih =>
      obtain ⟨hlt, hle, hclean⟩ := ih
      cases ha with
      | success =>
          refine ⟨hlt, Nat.zero_le _, fun hc => ?_⟩
          have hzero : n = 0 := hc ⟨n, .success⟩ (by simp) rfl
          simp [hzero, failures]
      | failure hm =>
          have hadd := toNat_succ hlt
          have hfail : failures (⟨n, .failure⟩ :: as) = failures as + 1 := by simp [failures]
          refine ⟨hm, by omega, fun hc => ?_⟩
          rw [hadd, hfail, hclean fun a ha => hc a (by simp [ha])]
      | sleep hm =>
          exact ⟨UInt8.lt_iff_toNat_lt.mpr (UInt8.le_iff_toNat_le.mp hmax), Nat.zero_le _,
            fun _ => by simp [failures]⟩

theorem Trace.of_suffix {a : Attempt} (h : Trace max as n) (hs : a :: l <:+ as) :
    ∃ n', Trace max l a.stored ∧ Advances max a.stored a.outcome n' := by
  induction h with
  | nil => simp at hs
  | @cons as n n' o ht ha ih =>
      rcases List.suffix_cons_iff.mp hs with heq | hs
      · cases heq
        exact ⟨n', ht, ha⟩
      · exact ih hs

/-! ## `setup` の結果 -/

/-- 初めてでない起動で、`boot_primary` が `c` を変えない条件。 -/
theorem keeps_bootPrimary {c : ByteCell} (hfirst : readByte .firstBoot w = 0) (hinit : .byte c ∉ initCells)
    (hnc : c ≠ .ncEnabled) (hconfig : (bootPrimary env w).1 = true → .byte c ∉ configCells) :
    Sets (· ≠ .byte c) w (bootPrimary env w).2 := by
  refine sets_bootPrimary ?_ ?_ ?_ ?_
  · rintro q hq rfl
    exact hinit hq
  · exact fun h => absurd hfirst h
  · exact fun h => hnc (Cell.byte.inj h).symm
  · rintro hr q hq rfl
    exact hconfig hr hq

theorem advances_failBoot (ho : outcome (failBoot env w) = some o) :
    Advances (readByte .maxNumPrimaryBootAttempts w) (readByte .numPrimaryBootAttempts w) o
        (readByte .numPrimaryBootAttempts (failBoot env w)) ∧
      readByte .firstBoot (failBoot env w) = readByte .firstBoot w := by
  have hmax : ∀ v, readByte .maxNumPrimaryBootAttempts (updateByte env .numPrimaryBootAttempts v w) =
      readByte .maxNumPrimaryBootAttempts w := fun _ => rfl
  simp only [failBoot, hmax] at ho ⊢
  split at ho
  · rename_i hlt
    cases ho
    rw [if_pos hlt]
    exact ⟨Advances.failure hlt, rfl⟩
  · rename_i hge
    cases ho
    rw [if_neg hge]
    exact ⟨Advances.sleep (UInt8.not_lt.mp hge), rfl⟩

theorem keeps_bootGNs {c : ByteCell} (hc : ∀ g, c ≠ .gnEnabled g) :
    Sets (· ≠ .byte c) w (bootGN env 2 (bootGN env 1 (bootGN env 0 w).2).2).2 := by
  have hgn : ∀ (g : GN) (v : World), Sets (· ≠ .byte c) v (bootGN env g v).2 := fun g _ =>
    Sets.boot (d := .gn g) fun h => hc g (Cell.byte.inj h).symm
  exact (hgn 0 _).trans ((hgn 1 _).trans (hgn 2 _))

theorem keeps_setup {c : ByteCell} (hfirst : readByte .firstBoot w = 0) (hr : (bootPrimary env w).1 = true)
    (hinit : .byte c ∉ initCells) (hnc : c ≠ .ncEnabled) (hgns : ∀ g, c ≠ .gnEnabled g)
    (hconfig : .byte c ∉ configCells) : Sets (· ≠ .byte c) w (setup env w) := by
  have hkeeps : Sets (· ≠ .byte c) w (bootPrimary env w).2 := keeps_bootPrimary hfirst hinit hnc fun _ => hconfig
  simp only [setup, hr, Bool.true_eq_false, if_false]
  split
  · exact hkeeps.trans (keeps_bootGNs hgns)
  · exact hkeeps

/-- 初めてでない起動は、結果に応じて失敗の回数を変え、`E_FIRST_BOOT` を変えない。 -/
theorem advances_setup (hfirst : readByte .firstBoot w = 0) (hrun : w.ram.stage = .running)
    (ho : outcome (setup env w) = some o) :
    Advances (readByte .maxNumPrimaryBootAttempts w) (readByte .numPrimaryBootAttempts w) o
        (readByte .numPrimaryBootAttempts (setup env w)) ∧
      readByte .firstBoot (setup env w) = 0 := by
  cases hr : (bootPrimary env w).1 with
  | false =>
      have hsetup : setup env w = failBoot env (bootPrimary env w).2 := by simp only [setup, hr, if_true]
      have hkeeps : ∀ c : ByteCell, .byte c ∉ initCells → c ≠ .ncEnabled →
          readByte c (bootPrimary env w).2 = readByte c w := fun c hinit hnc =>
        byte_of_writes (keeps_bootPrimary hfirst hinit hnc fun h => by simp [hr] at h).trail (by simp)
      rw [hsetup] at ho ⊢
      obtain ⟨hadv, hfb⟩ := advances_failBoot ho
      rw [hkeeps .numPrimaryBootAttempts (by decide) (by decide),
        hkeeps .maxNumPrimaryBootAttempts (by decide) (by decide)] at hadv
      rw [hkeeps .firstBoot (by decide) (by decide)] at hfb
      exact ⟨hadv, hfb.trans hfirst⟩
  | true =>
      have hnum : Sets (· ≠ .byte .numPrimaryBootAttempts) w (setup env w) :=
        keeps_setup hfirst hr (by decide) (by decide) (by decide) (by decide)
      have hfb : Sets (· ≠ .byte .firstBoot) w (setup env w) :=
        keeps_setup hfirst hr (by decide) (by decide) (by decide) (by decide)
      rw [byte_of_writes hnum.trail (by simp), byte_of_writes hfb.trail (by simp)]
      refine ⟨?_, hfirst⟩
      rw [outcome] at ho
      cases hnum.stage with
      | inl h =>
          rw [h, hrun] at ho
          cases ho
          exact Advances.success
      | inr h =>
          rw [h] at ho
          cases ho

/-- 起動の履歴は、失敗の回数だけを見た履歴である。 -/
theorem History.trace (h : History max as e) :
    Trace max as (e.byte .numPrimaryBootAttempts) ∧ e.byte .firstBoot = 0 ∧
      e.byte .maxNumPrimaryBootAttempts = max := by
  induction h with
  | fresh hnum hfirst hmax => exact ⟨hnum ▸ Trace.nil, hfirst, hmax⟩
  | @boot as e env o ops h _ ho hfix hcut ih =>
      obtain ⟨htrace, hfirst, hmax⟩ := ih
      obtain ⟨hadv, hfb⟩ := advances_setup (w := powerOn e) hfirst rfl ho
      have hsame : ∀ c : ByteCell, (∀ d : Device, c ≠ d.enabled) →
          h.eeprom.byte c = readByte c (setup env (powerOn e)) := fun c hc =>
        hcut.induct (trail_run ops) (P := fun s => s.eeprom.byte c = readByte c (setup env (powerOn e)))
          (fun _ s he hs => (byte_of_monitors he hc s).trans hs) rfl
      have hne : ∀ c : ByteCell, c = .numPrimaryBootAttempts ∨ c = .firstBoot ∨ c = .maxNumPrimaryBootAttempts →
          ∀ d : Device, c ≠ d.enabled := by
        rintro c (rfl | rfl | rfl) d <;> cases d <;> exact nofun
      rw [hsame _ (hne _ (Or.inl rfl)), hsame _ (hne _ (Or.inr (Or.inl rfl))),
        hsame _ (hne _ (Or.inr (Or.inr rfl)))]
      rw [← hmax] at htrace ⊢
      exact ⟨htrace.cons hadv, hfb, hfix.trans hmax.symm⟩

/-! ## 止まるとき -/

theorem failures_le_length (l : List Attempt) : failures l ≤ l.length := (List.takeWhile_prefix _).length_le

/-- 直前の `max - 1` 回が続けて失敗した後に止まれば、直前の `max` 回が失敗している。 -/
theorem exhausted_of_sleep {a : Attempt} (hle : max.toNat ≤ failures l + 1) (ha : a.outcome = .sleep) :
    Exhausted max (a :: l) := by
  have hlen := failures_le_length l
  refine ⟨by rw [List.length_cons]; omega, fun b hb => ?_⟩
  cases hm : max.toNat with
  | zero => simp [hm] at hb
  | succ k =>
      rw [hm, List.take_succ_cons] at hb
      rcases List.mem_cons.mp hb with rfl | hb
      · simp [ha]
      · simp [failures_take (by omega) b hb]

/-- 成功した起動がどれも失敗の回数が 0 のときに行われれば、SysMon が止まるのは、直前の `max` 回の起動がどれも失敗したときだけで
ある。`max` 回続けて失敗すれば、必ず止まる。 -/
theorem sleeps_after_failures (hmax : 1 ≤ max) (h : History max as e) :
    (Clean as → ∀ a l, a :: l <:+ as → a.outcome = .sleep → Exhausted max (a :: l)) ∧
      ∀ a l, a :: l <:+ as → a.outcome ≠ .success →
        List.replicate (max.toNat - 1) Outcome.failure <+: l.map Attempt.outcome → a.outcome = .sleep := by
  obtain ⟨htrace, -, -⟩ := h.trace
  constructor
  · intro hclean a l hs hsleep
    obtain ⟨n', hl, ha⟩ := htrace.of_suffix hs
    obtain ⟨hlt, -, heq⟩ := hl.counter hmax
    have hstored : a.stored.toNat = failures l := heq fun b hb => hclean b (hs.subset (by simp [hb]))
    rw [hsleep] at ha
    cases ha with
    | sleep hge =>
        have hnat := UInt8.le_iff_toNat_le.mp hge
        rw [toNat_succ hlt, hstored] at hnat
        exact exhausted_of_sleep hnat hsleep
  · intro a l hs hfail hlead
    obtain ⟨n', hl, ha⟩ := htrace.of_suffix hs
    obtain ⟨hlt, hle, -⟩ := hl.counter hmax
    have hk := le_failures hlead
    cases ho : a.outcome with
    | success => exact absurd ho hfail
    | failure =>
        rw [ho] at ha
        cases ha with
        | failure hm =>
            -- 保存された回数は `max - 1` 以上なので、この起動の失敗で上限に達する
            have hnat := UInt8.lt_iff_toNat_lt.mp hm
            rw [toNat_succ hlt] at hnat
            omega
    | sleep => rfl

/-- 電流計が応答しない環境。`boot_SysMon` が失敗する。 -/
def Env.silent : Env := { Env.ideal with current := fun _ _ => none }

/-- 上限が 2 の、設定の済んだ EEPROM。 -/
def Eeprom.two : Eeprom :=
  { Eeprom.ready with byte := Function.update Eeprom.ready.byte .maxNumPrimaryBootAttempts 2 }

theorem History.next (h : History max as e) (env : Env) (ho : outcome (setup env (powerOn e)) = some o)
    (hfix : readByte .maxNumPrimaryBootAttempts (setup env (powerOn e)) = max) :
    History max (⟨e.byte .numPrimaryBootAttempts, o⟩ :: as) (setup env (powerOn e)).hw.eeprom := by
  have hstop : During (setup env (powerOn e)) (run env [] (setup env (powerOn e))) (setup env (powerOn e)).hw :=
    During.stop (trail_run [])
  exact h.boot ho hfix hstop

/-- 二回続けて失敗すると止まる。 -/
theorem sleeps_after_failures_silent : ∃ e, History 2 [⟨1, .sleep⟩, ⟨0, .failure⟩] e ∧
    Exhausted 2 [⟨1, .sleep⟩, ⟨0, .failure⟩] := by
  have h₀ : History 2 [] Eeprom.two := History.fresh (by decide) (by decide) (by decide)
  have h₁ := h₀.next (o := .failure) Env.silent (by decide +kernel) (by decide +kernel)
  have h₂ := h₁.next (o := .sleep) Env.silent (by decide +kernel) (by decide +kernel)
  refine ⟨_, h₂, (sleeps_after_failures (by decide) h₂).1 ?_ _ _ (List.suffix_refl _) rfl⟩
  simp [Clean]

/-- 一度失敗した後の成功は、失敗の回数を 0 に戻さない。次の失敗で、上限に達したとして止まる。 -/
theorem sleeps_after_success : ∃ as e, History 2 as e ∧
    ∃ a l, a :: l <:+ as ∧ a.outcome = .sleep ∧ ¬ Exhausted 2 (a :: l) := by
  have h₀ : History 2 [] Eeprom.two := History.fresh (by decide) (by decide) (by decide)
  have h₁ := h₀.next (o := .failure) Env.silent (by decide +kernel) (by decide +kernel)
  have h₂ := h₁.next (o := .success) Env.ideal (by decide +kernel) (by decide +kernel)
  have h₃ := h₂.next (o := .sleep) Env.silent (by decide +kernel) (by decide +kernel)
  refine ⟨_, _, h₃, _, _, List.suffix_refl _, rfl, ?_⟩
  simp [Exhausted]

end Wagman.V2
