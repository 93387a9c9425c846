import Wagman.V3.Lemmas.Bootloader

/-!
# ブートローダーと媒体の選択

ラッチが立ち上がるまでの文は、選んだ媒体とリレーの値を `PORTD` に用意する。その後で選択かリレーの値を失うのは、繰り返しの初めの二つの文の
一方か、`StartSketch` の文を実行するときだけである。
-/

namespace Wagman.V3.Caterina

variable {pid : Nat} {m : Media} {s s' : State} {usb : Option Packet} {i : Instr} {v : BitVec 8}

/-! ## ラッチが立ち上がるまで -/

/-- `PORTD` の値が `v` のときに始める文の並びは、正しい値でラッチを立ち上げ、その後は `boot_setting_nc` を読まない。 -/
def prepares (m : Media) : Nat → List Instr → BitVec 8 → Bool
  | n + 1, .bootSetting :: rest, v => prepares m n (bootNC m.flag ++ rest) v
  | n + 1, i :: rest, v =>
      i.plain && decide (i.Spares m) &&
        if rises v ((i.portD v).getD v) then decide (Good m ((i.portD v).getD v) ∧ Listed m rest)
        else prepares m n rest ((i.portD v).getD v)
  | _, _, _ => false

theorem prepares_cons {n : Nat} {rest : List Instr} (hi : i.plain = true) :
    prepares m (n + 1) (i :: rest) v =
      (decide (i.Spares m) && if rises v ((i.portD v).getD v) then decide (Good m ((i.portD v).getD v) ∧ Listed m rest)
        else prepares m n rest ((i.portD v).getD v)) := by
  cases i with
  | bootSetting => cases hi
  | _ => rw [prepares, hi, Bool.true_and]; exact nofun

/-- `PORTD` に書かない文は飛ばしてよい。 -/
theorem prepares_skip {n : Nat} {rest : List Instr} (hi : i.plain = true) (hput : i.portD v = none) :
    prepares m (n + 1) (i :: rest) v = prepares m n rest v := by
  have hrises : rises v v = false := Bool.not_and_self _
  rw [prepares_cons hi, hput, Option.getD_none, hrises, decide_eq_true (spares_of_portD_none hput), Bool.true_and]
  rfl

theorem prepares_main (pid : Nat) (m : Media) (mcusr : UInt8) : prepares m 40 (main pid mcusr) 0 = true := by
  have hskip : prepares m 40 (main pid mcusr) 0 =
      prepares m 37 (setupHardware pid ++ [.bootSetting, .nop, .sei, .timeout 0, .loop]) 0 :=
    (prepares_skip rfl rfl).trans ((prepares_skip rfl rfl).trans (prepares_skip rfl rfl))
  rw [hskip]
  unfold setupHardware txLED rxLED led
  cases m with
  | sd =>
      cases decide (pid = 0x37) with
      | true => decide +kernel
      | false => decide +kernel
  | emmc =>
      cases decide (pid = 0x37) with
      | true => decide +kernel
      | false => decide +kernel

/-- ラッチが立ち上がる前の、準備の途中で、これから文 `code` を実行する。 -/
structure Early (m : Media) (code : List Instr) (s : State) : Prop where
  quiet : s.interrupts = false
  unrisen : since s.trace = []
  last : s.trace.head? = some (s.reg .portD)
  setting : s.eeprom 0x40 = m.flag
  ready : ∃ n, prepares m n code (s.reg .portD) = true

theorem early_reset (pid : Nat) {eeprom : Nat → UInt8} (h : eeprom 0x40 = m.flag) (mcusr : UInt8) :
    Early m (main pid mcusr) (reset pid eeprom mcusr) where
  quiet := rfl
  unrisen := rfl
  last := rfl
  setting := h
  ready := ⟨40, prepares_main pid m mcusr⟩

/-- ラッチが立ち上がり、媒体 `m` を選び続けている。これから実行する文は `boot_setting_nc` を読まない。 -/
structure Looping (m : Media) (s : State) : Prop extends Risen m s where
  listed : Listed m s.code

theorem since_cons_of_nil {l : List (BitVec 8)} {u : BitVec 8} (h : since l = []) (hu : l.head? = some u) :
    since (v :: l) = if rises u v then [v] else [] := by
  rw [since, h, hu]
  simp

theorem early_exec (h : Early m (i :: s.code) s) (hi : i.plain = true) :
    i.Spares m ∧ (Early m (exec pid usb i s).code (exec pid usb i s) ∨ Looping m (exec pid usb i s)) := by
  obtain ⟨n, hready⟩ := h.ready
  cases n with
  | zero => cases hready
  | succ n =>
      rw [prepares_cons hi, Bool.and_eq_true, decide_eq_true_eq] at hready
      obtain ⟨hspares, hready⟩ := hready
      obtain ⟨hcode, hquiet, hsetting⟩ : (exec pid usb i s).code = s.code ∧ _ := exec_plain hi h.quiet
      obtain ⟨htrace, hportD⟩ : Puts _ s (exec pid usb i s) := puts_exec i s
      refine ⟨hspares, ?_⟩
      cases hput : i.portD (s.reg .portD) with
      | none =>
          rw [hput] at htrace hportD hready
          have hrises : rises (s.reg .portD) (s.reg .portD) = false := Bool.not_and_self _
          rw [Option.getD_none, hrises] at hready
          rw [Option.getD_none] at hportD
          exact .inl
            { quiet := hquiet
              unrisen := by rw [htrace]; exact h.unrisen
              last := by rw [htrace, hportD]; exact h.last
              setting := by rw [hsetting, h.setting]
              ready := ⟨n, by rw [hcode, hportD]; exact hready⟩ }
      | some v =>
          rw [hput] at htrace hportD hready
          rw [Option.getD_some] at hready hportD
          have hsince : since (exec pid usb i s).trace = if rises (s.reg .portD) v then [v] else [] := by
            rw [htrace]
            exact since_cons_of_nil h.unrisen h.last
          split at hready
          · rename_i hrises
            obtain ⟨hgood, hlisted⟩ := of_decide_eq_true hready
            rw [if_pos hrises] at hsince
            exact .inr
              { rose := by rw [hsince]; exact List.cons_ne_nil v []
                keeps := fun u hu => by
                  rw [hsince, List.mem_singleton] at hu
                  exact hu ▸ hgood
                good := by rw [hportD]; exact hgood
                listed := by rw [hcode]; exact hlisted }
          · rename_i hrises
            exact .inl
              { quiet := hquiet
                unrisen := by rw [hsince, if_neg hrises]
                last := by rw [htrace, hportD]; rfl
                setting := by rw [hsetting, h.setting]
                ready := ⟨n, by rw [hcode, hportD]; exact hready⟩ }

theorem prepares_plain {n : Nat} {rest : List Instr} (h : prepares m n (i :: rest) v = true) :
    i.plain = true ∨ i = .bootSetting := by
  cases n with
  | zero => cases h
  | succ n =>
      cases i with
      | bootSetting => exact .inr rfl
      | _ =>
          rw [prepares, Bool.and_eq_true, Bool.and_eq_true] at h
          · exact .inl h.1.1
          · exact nofun

theorem early_step {o : Op} (h : Early m s.code s) (hstep : step pid o s = some s') :
    o.Avoids m s ∧ (Early m s'.code s' ∨ Looping m s') := by
  cases o with
  | timer programmed =>
      obtain ⟨hon, -⟩ := step_timer.mp hstep
      rw [h.quiet] at hon
      cases hon
  | main usb =>
      obtain ⟨i, rest, hcode, rfl⟩ := step_main.mp hstep
      rw [hcode] at h
      have hpopped : Early m (i :: rest) { s with code := rest } := ⟨h.quiet, h.unrisen, h.last, h.setting, h.ready⟩
      obtain ⟨n, hready⟩ := h.ready
      rw [avoids_main hcode]
      rcases prepares_plain hready with hplain | rfl
      · obtain ⟨hspares, hnext⟩ : i.Spares m ∧ (_ ∨ Looping m (exec pid usb i { s with code := rest })) :=
          early_exec hpopped hplain
        exact ⟨fun hslip => not_spares_of_mem_slips hslip hspares, hnext⟩
      · refine ⟨fun hslip => not_spares_of_mem_slips hslip trivial, .inl ⟨h.quiet, h.unrisen, h.last, h.setting, ?_⟩⟩
        cases n with
        | zero => cases hready
        | succ n =>
            rw [prepares] at hready
            simp only [exec, h.setting]
            exact ⟨n, hready⟩

/-! ## 実行 -/

namespace Looping

/-- 失う文を実行しない一歩の後も、選び続けている。 -/
theorem next {o : Op} (h : Looping m s) (ho : o.Avoids m s) (hstep : step pid o s = some s') : Looping m s' := by
  cases o with
  | timer programmed =>
      obtain ⟨-, rfl⟩ := step_timer.mp hstep
      exact ⟨(Sound.isr programmed h.good).risen h.toRisen, by rw [code_isr]; exact h.listed⟩
  | main usb =>
      obtain ⟨i, rest, hcode, rfl⟩ := step_main.mp hstep
      rw [avoids_main hcode] at ho
      have hlisted : Listed m (i :: rest) := hcode ▸ h.listed
      have hpopped : Risen m { s with code := rest } := ⟨h.rose, h.keeps, h.good⟩
      have hspares : i.Spares m := (hlisted i List.mem_cons_self).elim (fun hslip => absurd hslip ho) And.right
      exact ⟨(Sound.exec hpopped.good hspares).risen hpopped, listed_exec (s := { s with code := rest }) hlisted⟩

/-- 失う文を実行する一歩の後は、選び続けていない。 -/
theorem lose {o : Op} (h : Looping m s) (ho : ¬o.Avoids m s) (hstep : step pid o s = some s') : ¬Keeps m s' := by
  cases o with
  | timer programmed => exact absurd trivial ho
  | main usb =>
      obtain ⟨i, rest, hcode, rfl⟩ := step_main.mp hstep
      rw [avoids_main hcode, not_not] at ho
      have hspares := not_spares_of_mem_slips ho
      have htrace : (exec pid usb i { s with code := rest }).trace = (i.portD (s.reg .portD)).toList ++ s.trace :=
        (puts_exec i { s with code := rest }).trace
      cases hput : i.portD (s.reg .portD) with
      | none => exact absurd (spares_of_portD_none hput) hspares
      | some v =>
          rw [hput] at htrace
          intro hkeeps
          refine hspares ((good_portD h.good hput).mp (hkeeps v ?_))
          rw [htrace, since_append h.rose]
          exact List.mem_cons_self

end Looping

/-- 選び続けているのは、失う文を実行しないときである。 -/
theorem keeps_iff {os : List Op} (h : Early m s.code s ∨ Looping m s) (hr : Run.run (step pid) os s = some s') :
    Keeps m s' ↔ Run.Meets (step pid) (Op.Avoids m) os s := by
  refine Run.iff_meets (I := fun s => Early m s.code s ∨ Looping m s) ?_ ?_ ?_ ?_ hr h
  · rintro s (hearly | hlooping)
    · intro v hv
      rw [hearly.unrisen] at hv
      cases hv
    · exact hlooping.keeps
  · rintro o s t (hearly | hlooping) havoids ht
    · exact (early_step hearly ht).2
    · exact .inr (hlooping.next havoids ht)
  · rintro o s t (hearly | hlooping) hslip ht
    · exact absurd (early_step hearly ht).1 hslip
    · exact hlooping.lose hslip ht
  · exact fun o s t ht hkeeps => hkeeps.of_suffix (trace_step ht)

/-! ## アプリケーションに移るまで -/

/-- アプリケーションに移る前に、`StartSketch` が `PORTD` に 0 を書く。 -/
def Bound (s : State) : Prop := (∃ before, s.code = before ++ [.loop]) ∨ .out .portD 0x00 ∈ s.code

theorem bound_reset (pid : Nat) (eeprom : Nat → UInt8) (mcusr : UInt8) : Bound (reset pid eeprom mcusr) :=
  .inl ⟨[.out .ddrD 0xff, .nop, .eepromWriteByte 0x41 mcusr] ++ setupHardware pid ++
    [.bootSetting, .nop, .sei, .timeout 0], by simp [reset, main]⟩

/-- 繰り返しを続けるか、`StartSketch` を始める。 -/
theorem bound_loop (usb : Option Packet) (s : State) (h : s.code = []) : Bound (exec pid usb .loop s) := by
  cases hrun : s.runBootloader with
  | true => exact .inl ⟨loopBody, by simp [exec, hrun, h]⟩
  | false => exact .inr (by simp [exec, hrun, startSketch])

theorem out_mem_slips (m : Media) : .out .portD 0x00 ∈ slips m := by cases m <;> decide

theorem Bound.step {o : Op} (h : Bound s) (ho : o.Avoids m s) (hstep : step pid o s = some s') : Bound s' := by
  cases o with
  | timer programmed =>
      obtain ⟨-, rfl⟩ := step_timer.mp hstep
      rw [Bound, code_isr]
      exact h
  | main usb =>
      obtain ⟨i, rest, hcode, rfl⟩ := step_main.mp hstep
      rw [avoids_main hcode] at ho
      obtain ⟨added, hadded⟩ : rest <:+ (exec pid usb i { s with code := rest }).code :=
        code_exec i { s with code := rest }
      rw [Bound, hcode] at h
      rcases h with ⟨before, hbefore⟩ | hmem
      · cases before with
        | nil =>
            cases hbefore
            exact bound_loop usb _ rfl
        | cons j before =>
            obtain ⟨-, rfl⟩ := List.cons.inj hbefore
            exact .inl ⟨added ++ before, hadded.symm.trans (List.append_assoc added before _).symm⟩
      · rcases List.mem_cons.mp hmem with rfl | hmem
        · exact absurd (out_mem_slips m) ho
        · exact .inr (hadded ▸ List.mem_append_right added hmem)

theorem Bound.code_ne_nil (h : Bound s) : s.code ≠ [] := by
  intro hnil
  rw [Bound, hnil] at h
  rcases h with ⟨before, hbefore⟩ | hmem
  · exact List.append_ne_nil_of_right_ne_nil before (List.cons_ne_nil _ _) hbefore.symm
  · cases hmem

/-- リセットからのどの実行でも、媒体の選択とリレーの値を保つのは、それらを失う文を実行しないときである。アプリケーションに移った実行は
保たない。 -/
theorem bootloader_keeps_iff (pid : Nat) (m : Media) (eeprom : Nat → UInt8) (mcusr : UInt8)
    (hflag : eeprom 0x40 = m.flag) (os : List Op) (s : State)
    (hr : Run.run (step pid) os (reset pid eeprom mcusr) = some s) :
    (Keeps m s ↔ Run.Meets (step pid) (Op.Avoids m) os (reset pid eeprom mcusr)) ∧ (s.code = [] → ¬Keeps m s) := by
  have hiff := keeps_iff (.inl (early_reset pid hflag mcusr)) hr
  refine ⟨hiff, fun hnil hkeeps => ?_⟩
  have hbound : Bound s := Run.run_induct_of_meets (fun _ _ _ ho h hstep => h.step ho hstep) hr (hiff.mp hkeeps)
    (bound_reset pid eeprom mcusr)
  exact hbound.code_ne_nil hnil

/-- 0x40 番地が媒体 `m` を選ぶ EEPROM。 -/
def flagged (m : Media) : Nat → UInt8 := Function.update (fun _ => 0xff) 0x40 m.flag

/-- 割り込みも USB からの命令もない実行。 -/
def idle (n : Nat) : List Op := List.replicate n (.main none)

theorem bootloader_keeps_idle :
    ∃ s, Run.run (step 0x37) (idle 28) (reset 0x37 (flagged .emmc) 1) = some s ∧
      (Keeps .emmc s ↔ Run.Meets (step 0x37) (Op.Avoids .emmc) (idle 28) (reset 0x37 (flagged .emmc) 1)) ∧
      (s.code = [] → ¬Keeps .emmc s) := by
  have hruns : (Run.run (step 0x37) (idle 28) (reset 0x37 (flagged .emmc) 1)).isSome = true := by decide +kernel
  obtain ⟨s, hs⟩ := Option.isSome_iff_exists.mp hruns
  exact ⟨s, hs, bootloader_keeps_iff 0x37 .emmc (flagged .emmc) 1 (by decide) (idle 28) s hs⟩

/-- 繰り返しの初めの文で uSD の選択を、次の文で eMMC の選択を失う。 -/
theorem bootloader_loses_media :
    (∃ s, Run.run (step 0x37) (idle 29) (reset 0x37 (flagged .sd) 1) = some s ∧ ¬Keeps .sd s) ∧
    ∃ s, Run.run (step 0x37) (idle 30) (reset 0x37 (flagged .emmc) 1) = some s ∧ ¬Keeps .emmc s := by
  have hsd : (Run.run (step 0x37) (idle 29) (reset 0x37 (flagged .sd) 1)).any
      (fun s => decide (¬Keeps .sd s)) = true := by decide +kernel
  have hemmc : (Run.run (step 0x37) (idle 30) (reset 0x37 (flagged .emmc) 1)).any
      (fun s => decide (¬Keeps .emmc s)) = true := by decide +kernel
  obtain ⟨s, hs, hlost⟩ := (Option.any_eq_true _ _).mp hsd
  obtain ⟨s', hs', hlost'⟩ := (Option.any_eq_true _ _).mp hemmc
  exact ⟨⟨s, hs, of_decide_eq_true hlost⟩, s', hs', of_decide_eq_true hlost'⟩

end Wagman.V3.Caterina
