import Wagman.V3.Bootloader

/-!
# 一歩と `PORTD`

文も割り込みも、`PORTD` に書く値を高々一つ加える。第 3 ビットと第 4 ビットを変えない文は、正しい値から正しい値を書く。
-/

namespace Wagman.V3

/-- 媒体を選んで `NC` を起動させる、EEPROM の 0x40 番地の値。 -/
def Media.flag : Media → UInt8
  | .sd => 1
  | .emmc => 2

namespace Caterina

variable {pid : Nat} {m : Media} {s s' : State} {usb : Option Packet} {i : Instr} {v v' : BitVec 8}

/-! ## 保つべきこと -/

/-- ラッチが立ち上がる。 -/
def rises (before after : BitVec 8) : Bool := !before.getLsbD 2 && after.getLsbD 2

/-- ラッチが初めて立ち上がってからの `PORTD` の値。新しいものが先頭である。 -/
def since : List (BitVec 8) → List (BitVec 8)
  | [] => []
  | v :: l => if since l ≠ [] ∨ l.head?.any (rises · v) then v :: since l else []

/-- `PORTD` の値が、媒体 `m` を選び、リレーの値を 1 にしている。 -/
def Good (m : Media) (v : BitVec 8) : Prop := v.getLsbD 3 = m.level ∧ v.getLsbD 4 = true

/-- ラッチが立ち上がってから、媒体 `m` を選び続けている。 -/
def Keeps (m : Media) (s : State) : Prop := ∀ v ∈ since s.trace, Good m v

instance (m : Media) (v : BitVec 8) : Decidable (Good m v) := inferInstanceAs (Decidable (_ ∧ _))

instance (m : Media) (s : State) : Decidable (Keeps m s) := inferInstanceAs (Decidable (∀ _ ∈ _, _))

/-- 文 `i` は、媒体 `m` の選択とリレーの値を変えない。 -/
def Instr.Spares (m : Media) : Instr → Prop
  | .out r v => r = .portD → Good m v
  | .sbi r b => r = .portD → b = 3 → m.level = true
  | .cbi r b => r = .portD → b ≠ 4 ∧ (b = 3 → m.level = false)
  | _ => True

instance (m : Media) : (i : Instr) → Decidable (i.Spares m)
  | .out _ _ => inferInstanceAs (Decidable (_ → _))
  | .sbi _ _ => inferInstanceAs (Decidable (_ → _ → _))
  | .cbi _ _ => inferInstanceAs (Decidable (_ → _ ∧ (_ → _)))
  | .eepromWriteByte _ _ | .sei | .cli | .timsk1 _ | .txLEDPulse _ | .rxLEDPulse _ | .timeout _ | .bootSetting
  | .loop | .cdcTask | .checkTimeout | .ledPulse | .nop => isTrue trivial

/-- 媒体 `m` を選んだときに、その選択かリレーの値を失う文。繰り返しの初めの二つの文の一方と、`StartSketch` の文である。 -/
def slips : Media → List Instr
  | .sd => [ncEMMC, .out .portD 0x00]
  | .emmc => [.out .portD 0x10, .out .portD 0x00]

/-- 次に実行する文が、媒体 `m` の選択もリレーの値も失わない。 -/
def Op.Avoids (m : Media) : Op → State → Prop
  | .main _, s => ∀ i ∈ s.code.head?, i ∉ slips m
  | .timer _, _ => True

/-! ## `PORTD` への書き込み -/

/-- `PORTD` の値が `v` のときに文 `i` が書く値。 -/
def Instr.portD (v : BitVec 8) : Instr → Option (BitVec 8)
  | .out r v' => if r = .portD then some v' else none
  | .sbi r b => if r = .portD then some (setBit b v) else none
  | .cbi r b => if r = .portD then some (clearBit b v) else none
  | _ => none

theorem getLsbD_setBit (b k : Nat) (hk : k < 8) : (setBit b v).getLsbD k = (v.getLsbD k || decide (k = b)) := by
  simp [setBit, hk]

theorem getLsbD_clearBit (b k : Nat) (hk : k < 8) : (clearBit b v).getLsbD k = (v.getLsbD k && !decide (k = b)) := by
  simp [clearBit, hk]

/-- 正しい値から、`PORTD` に書く文が正しい値を書くのは、その文が選択とリレーの値を変えないときである。 -/
theorem good_portD (h : Good m v) (hi : i.portD v = some v') : Good m v' ↔ i.Spares m := by
  obtain ⟨h₃, h₄⟩ := h
  cases i with
  | out r x =>
      obtain ⟨hr, heq⟩ := Option.ite_none_right_eq_some.mp hi
      cases heq
      exact ⟨fun hx _ => hx, fun hx => hx hr⟩
  | sbi r b =>
      obtain ⟨hr, heq⟩ := Option.ite_none_right_eq_some.mp hi
      cases heq
      rw [Good, getLsbD_setBit b 3 (by decide), getLsbD_setBit b 4 (by decide), h₃, h₄]
      cases hm : m.level with
      | true => simp [Instr.Spares, hm]
      | false => simp [Instr.Spares, hm, hr, eq_comm (a := 3), eq_comm (a := 4)]
  | cbi r b =>
      obtain ⟨hr, heq⟩ := Option.ite_none_right_eq_some.mp hi
      cases heq
      rw [Good, getLsbD_clearBit b 3 (by decide), getLsbD_clearBit b 4 (by decide), h₃, h₄]
      cases hm : m.level with
      | true => simp [Instr.Spares, hm, hr, eq_comm (a := 3), eq_comm (a := 4), and_comm]
      | false => simp [Instr.Spares, hm, hr, eq_comm (a := 3), eq_comm (a := 4)]
  | _ => cases hi

theorem spares_of_portD_none (hi : i.portD v = none) : i.Spares m := by
  cases i with
  | out r x => exact fun hr => nomatch (if_pos hr).symm.trans hi
  | sbi r b => exact fun hr => nomatch (if_pos hr).symm.trans hi
  | cbi r b => exact fun hr => nomatch (if_pos hr).symm.trans hi
  | _ => trivial

/-- `s` から `s'` までに、`PORTD` に高々一つの値 `o` が書かれる。 -/
structure Puts (o : Option (BitVec 8)) (s s' : State) : Prop where
  trace : s'.trace = o.toList ++ s.trace
  portD : s'.reg .portD = o.getD (s.reg .portD)

theorem reg_setReg (r : Reg) (v : BitVec 8) (s : State) : (s.setReg r v).reg = Function.update s.reg r v := rfl

theorem puts_setReg (r : Reg) (f : BitVec 8 → BitVec 8) (s : State) :
    Puts (if r = .portD then some (f (s.reg .portD)) else none) s (s.setReg r (f (s.reg r))) := by
  by_cases h : r = .portD
  · subst h
    rw [if_pos rfl]
    exact ⟨rfl, by rw [reg_setReg, Function.update_self]; rfl⟩
  · rw [if_neg h]
    exact ⟨if_neg h, by rw [reg_setReg, Function.update_of_ne (Ne.symm h)]; rfl⟩

theorem puts_exec (i : Instr) (s : State) : Puts (i.portD (s.reg .portD)) s (exec pid usb i s) := by
  cases i with
  | out r x => exact puts_setReg r (fun _ => x) s
  | sbi r b => exact puts_setReg r (setBit b) s
  | cbi r b => exact puts_setReg r (clearBit b) s
  | ledPulse =>
      have hled : Puts none { s with lledPulse := s.lledPulse + 1 } (exec pid usb .ledPulse s) :=
        puts_setReg .portC (fun v => if lledOn (s.lledPulse + 1) then setBit 7 v else clearBit 7 v)
          { s with lledPulse := s.lledPulse + 1 }
      exact ⟨hled.trace, hled.portD⟩
  | _ => exact ⟨rfl, rfl⟩

theorem not_spares_of_mem_slips (h : i ∈ slips m) : ¬i.Spares m := by
  cases m with
  | sd =>
      rcases List.mem_cons.mp h with rfl | h
      · exact fun hs => nomatch hs rfl rfl
      · rw [List.mem_singleton.mp h]
        exact fun hs => absurd (hs rfl).2 (by decide)
  | emmc =>
      rcases List.mem_cons.mp h with rfl | h
      · exact fun hs => absurd (hs rfl).1 (by decide)
      · rw [List.mem_singleton.mp h]
        exact fun hs => absurd (hs rfl).2 (by decide)

/-! ## 一歩 -/

theorem step_main : step pid (.main usb) s = some s' ↔
    ∃ i rest, s.code = i :: rest ∧ s' = exec pid usb i { s with code := rest } := by
  cases hcode : s.code with
  | nil => simp [step, hcode]
  | cons i rest => simp [step, hcode, eq_comm]

theorem step_timer {programmed : Bool} : step pid (.timer programmed) s = some s' ↔
    (s.interrupts && s.timsk1) = true ∧ s' = isr pid programmed s := by
  rw [step, Option.ite_none_right_eq_some, Option.some.injEq, eq_comm (b := s')]

theorem avoids_main {rest : List Instr} (h : s.code = i :: rest) : Op.Avoids m (.main usb) s ↔ i ∉ slips m := by
  simp [Op.Avoids, h]

/-! ## ラッチが立ち上がった後 -/

/-- ラッチが立ち上がり、媒体 `m` を選び続けている。 -/
structure Risen (m : Media) (s : State) : Prop where
  rose : since s.trace ≠ []
  keeps : Keeps m s
  good : Good m (s.reg .portD)

/-- `s` から `s'` までに、`PORTD` に正しい値だけを書く。 -/
structure Sound (m : Media) (s s' : State) : Prop where
  trace : ∃ vs, s'.trace = vs ++ s.trace ∧ ∀ v ∈ vs, Good m v
  good : Good m (s'.reg .portD)

theorem since_append {l : List (BitVec 8)} (h : since l ≠ []) (vs : List (BitVec 8)) :
    since (vs ++ l) = vs ++ since l := by
  induction vs with
  | nil => rfl
  | cons v vs ih =>
      have hne : since (vs ++ l) ≠ [] := by
        rw [ih]
        exact List.append_ne_nil_of_right_ne_nil vs h
      rw [List.cons_append, since, if_pos (.inl hne), ih, List.cons_append]

theorem since_suffix (vs l : List (BitVec 8)) : since l <:+ since (vs ++ l) := by
  by_cases h : since l = []
  · rw [h]
    exact List.nil_suffix
  · rw [since_append h]
    exact List.suffix_append vs _

theorem Keeps.of_suffix (h : Keeps m s') (hs : s.trace <:+ s'.trace) : Keeps m s := by
  obtain ⟨vs, hvs⟩ := hs
  intro v hv
  refine h v ?_
  rw [← hvs]
  exact (since_suffix vs s.trace).subset hv

namespace Sound

/-- `PORTD` に書かない。 -/
theorem of_eq (h : Good m (s.reg .portD)) (ht : s'.trace = s.trace) (hp : s'.reg .portD = s.reg .portD) :
    Sound m s s' := ⟨⟨[], ht, nofun⟩, hp ▸ h⟩

theorem trans {s'' : State} (h₁ : Sound m s s') (h₂ : Sound m s' s'') : Sound m s s'' := by
  obtain ⟨⟨vs, hvs, hgood⟩, -⟩ := h₁
  obtain ⟨⟨vs', hvs', hgood'⟩, hlast⟩ := h₂
  refine ⟨⟨vs' ++ vs, by rw [hvs', hvs, List.append_assoc], fun v hv => ?_⟩, hlast⟩
  exact (List.mem_append.mp hv).elim (hgood' v) (hgood v)

theorem exec (h : Good m (s.reg .portD)) (hi : i.Spares m) : Sound m s (exec pid usb i s) := by
  obtain ⟨htrace, hportD⟩ : Puts _ s (Caterina.exec pid usb i s) := puts_exec i s
  cases hput : i.portD (s.reg .portD) with
  | none =>
      rw [hput] at htrace hportD
      exact of_eq h htrace hportD
  | some v =>
      have hgood : Good m v := (good_portD h hput).mpr hi
      rw [hput] at htrace hportD
      exact ⟨⟨[v], htrace, by simpa using hgood⟩, hportD ▸ hgood⟩

theorem risen (h : Risen m s) (hs : Sound m s s') : Risen m s' := by
  obtain ⟨⟨vs, hvs, hgood⟩, hlast⟩ := hs
  have hsince : since s'.trace = vs ++ since s.trace := by rw [hvs, since_append h.rose]
  refine ⟨?_, fun v hv => ?_, hlast⟩
  · rw [hsince]
    exact List.append_ne_nil_of_right_ne_nil vs h.rose
  · rw [hsince] at hv
    exact (List.mem_append.mp hv).elim (hgood v) (h.keeps v)

end Sound

/-! ## タイマーの割り込み -/

theorem spares_txLED (on : Bool) : (txLED pid on).Spares m := by
  unfold txLED led
  split
  · exact fun _ h => absurd h (by decide)
  · exact fun _ => ⟨by decide, fun h => absurd h (by decide)⟩

theorem spares_rxLED (on : Bool) : (rxLED pid on).Spares m := by
  unfold rxLED led
  split
  · exact fun h => nomatch h
  · exact fun h => nomatch h

theorem Sound.expire {pulse : UInt16} (h : Good m (s.reg .portD)) (hi : i.Spares m) :
    Sound m s (expire pid pulse i s) := by
  unfold Caterina.expire
  split
  · exact Sound.exec h hi
  · exact Sound.of_eq h rfl rfl

theorem Sound.isr (programmed : Bool) (h : Good m (s.reg .portD)) : Sound m s (isr pid programmed s) := by
  have hdec : Sound m s { s with txLEDPulse := s.txLEDPulse - if s.txLEDPulse = 0 then 0 else 1 } :=
    Sound.of_eq h rfl rfl
  have htx : Sound m s (Caterina.expire pid s.txLEDPulse (txLED pid false) _) :=
    hdec.trans (Sound.expire hdec.good (spares_txLED false))
  unfold Caterina.isr
  simp only
  generalize Caterina.expire pid s.txLEDPulse (txLED pid false) _ = t at htx ⊢
  have hdec' : Sound m s { t with rxLEDPulse := s.rxLEDPulse - if s.rxLEDPulse = 0 then 0 else 1 } :=
    htx.trans (Sound.of_eq htx.good rfl rfl)
  have hrx : Sound m s (Caterina.expire pid s.rxLEDPulse (rxLED pid false) _) :=
    hdec'.trans (Sound.expire hdec'.good (spares_rxLED false))
  split
  · exact hrx.trans (Sound.of_eq hrx.good rfl rfl)
  · exact hrx

/-! ## 書いた値と残りの文 -/

theorem trace_exec (i : Instr) (s : State) : s.trace <:+ (exec pid usb i s).trace := by
  obtain ⟨htrace, -⟩ : Puts _ s (exec pid usb i s) := puts_exec i s
  rw [htrace]
  exact List.suffix_append _ _

theorem trace_expire (pulse : UInt16) (i : Instr) (s : State) : s.trace <:+ (expire pid pulse i s).trace := by
  unfold expire
  split
  · exact trace_exec i s
  · exact List.suffix_refl _

theorem trace_isr (programmed : Bool) (s : State) : s.trace <:+ (isr pid programmed s).trace := by
  have htx : s.trace <:+ (expire pid s.txLEDPulse (txLED pid false)
      { s with txLEDPulse := s.txLEDPulse - if s.txLEDPulse = 0 then 0 else 1 }).trace :=
    trace_expire s.txLEDPulse (txLED pid false)
      { s with txLEDPulse := s.txLEDPulse - if s.txLEDPulse = 0 then 0 else 1 }
  unfold isr
  simp only
  generalize expire pid s.txLEDPulse (txLED pid false) _ = t at htx ⊢
  have hrx : s.trace <:+ (expire pid s.rxLEDPulse (rxLED pid false)
      { t with rxLEDPulse := s.rxLEDPulse - if s.rxLEDPulse = 0 then 0 else 1 }).trace :=
    htx.trans (trace_expire s.rxLEDPulse (rxLED pid false)
      { t with rxLEDPulse := s.rxLEDPulse - if s.rxLEDPulse = 0 then 0 else 1 })
  split
  · exact hrx
  · exact hrx

theorem trace_step {o : Op} (h : step pid o s = some s') : s.trace <:+ s'.trace := by
  cases o with
  | timer programmed =>
      obtain ⟨-, rfl⟩ := step_timer.mp h
      exact trace_isr programmed s
  | main usb =>
      obtain ⟨i, rest, hcode, rfl⟩ := step_main.mp h
      exact trace_exec i { s with code := rest }

theorem code_expire (pulse : UInt16) (r : Reg) (b : Nat) (on : Bool) (s : State) :
    (expire pid pulse (led pid r b on) s).code = s.code := by
  unfold expire led
  split
  · split
    · rfl
    · rfl
  · rfl

theorem code_isr (programmed : Bool) (s : State) : (isr pid programmed s).code = s.code := by
  unfold isr txLED rxLED
  simp only
  split
  · rw [code_expire, code_expire]
  · rw [code_expire, code_expire]

/-- 文の実行は、残りの文の前に文を加えるだけである。 -/
theorem code_exec (i : Instr) (s : State) : s.code <:+ (exec pid usb i s).code := by
  cases i with
  | bootSetting => exact List.suffix_append _ _
  | loop => exact List.suffix_append _ _
  | cdcTask => exact List.suffix_append _ _
  | _ => exact List.suffix_refl _

/-- 割り込みを許さず、実行する文を変えず、0x40 番地に書かない。 -/
def Instr.plain : Instr → Bool
  | .sei | .loop | .cdcTask | .bootSetting => false
  | .eepromWriteByte addr _ => addr != 0x40
  | _ => true

/-- 文が準備のための文なら、残りの文も割り込みの禁止も 0x40 番地も変わらない。 -/
theorem exec_plain (hi : i.plain = true) (hq : s.interrupts = false) :
    (exec pid usb i s).code = s.code ∧ (exec pid usb i s).interrupts = false ∧
      (exec pid usb i s).eeprom 0x40 = s.eeprom 0x40 := by
  cases i with
  | eepromWriteByte addr v =>
      have hne : 0x40 ≠ addr := Ne.symm (bne_iff_ne.mp hi)
      exact ⟨rfl, hq, Function.update_of_ne hne _ _⟩
  | cli => exact ⟨rfl, rfl, rfl⟩
  | sei => cases hi
  | loop => cases hi
  | cdcTask => cases hi
  | bootSetting => cases hi
  | _ => exact ⟨rfl, hq, rfl⟩

/-! ## 繰り返しで実行する文 -/

/-- 選択もリレーの値も変えず、`boot_setting_nc` を読まない。 -/
def Harmless (m : Media) (i : Instr) : Prop := i ≠ .bootSetting ∧ i.Spares m

/-- 選択かリレーの値を失う文のほかは、それらを変えない。 -/
def Listed (m : Media) (code : List Instr) : Prop := ∀ i ∈ code, i ∈ slips m ∨ Harmless m i

theorem harmless_led (on : Bool) : Harmless m (txLED pid on) ∧ Harmless m (rxLED pid on) := by
  refine ⟨⟨?_, spares_txLED on⟩, ?_, spares_rxLED on⟩
  · unfold txLED led
    split <;> nofun
  · unfold rxLED led
    split <;> nofun

theorem harmless_respond (p : Packet) (n : Nat) : ∀ i ∈ respond pid p n, Harmless m i := by
  intro i hi
  obtain ⟨k, -, hi⟩ := List.mem_flatMap.mp hi
  split at hi
  · rcases List.mem_cons.mp hi with rfl | hi
    · exact (harmless_led true).1
    · rw [List.mem_singleton.mp hi]
      exact ⟨nofun, trivial⟩
  · cases hi

theorem harmless_cons {code : List Instr} (hi : Harmless m i) (h : ∀ j ∈ code, Harmless m j) :
    ∀ j ∈ i :: code, Harmless m j := List.forall_mem_cons.mpr ⟨hi, h⟩

theorem harmless_readWriteMemoryBlock (p : Packet) : ∀ i ∈ readWriteMemoryBlock pid p, Harmless m i := by
  have hnext : ∀ {body : List Instr}, (∀ i ∈ body, Harmless m i) →
      ∀ i ∈ [.timsk1 false] ++ body ++ [.timsk1 true], Harmless m i := fun hbody =>
    List.forall_mem_append.mpr ⟨harmless_cons ⟨nofun, trivial⟩ hbody, harmless_cons ⟨nofun, trivial⟩ nofun⟩
  simp only [readWriteMemoryBlock]
  split
  · exact harmless_respond p 1
  · split
    · exact hnext (harmless_respond p _)
    · split
      · refine hnext (List.forall_mem_append.mpr ⟨fun i hi => ?_, harmless_respond p 1⟩)
        obtain ⟨k, -, rfl⟩ := List.mem_map.mp hi
        exact ⟨nofun, trivial⟩
      · exact hnext (harmless_respond p 1)

theorem harmless_command (p : Packet) : ∀ i ∈ command pid p, Harmless m i := by
  unfold command
  split
  · exact harmless_cons ⟨nofun, trivial⟩ (harmless_respond p 1)
  · split
    · exact harmless_respond p 2
    · split
      · exact harmless_respond p 7
      · split
        · exact harmless_respond p 3
        · split
          · exact harmless_cons ⟨nofun, trivial⟩ (harmless_readWriteMemoryBlock p)
          · split
            · exact harmless_cons ⟨nofun, trivial⟩ (harmless_respond p 1)
            · split
              · nofun
              · exact harmless_respond p 1

/-- USB からどの命令が届いても、選択もリレーの値も変えない。 -/
theorem harmless_cdcTask (usb : Option Packet) : ∀ i ∈ cdcTask pid usb, Harmless m i := by
  cases usb with
  | none => nofun
  | some p => exact harmless_cons (harmless_led true).2 (harmless_cons ⟨nofun, trivial⟩ (harmless_command p))

instance (m : Media) (i : Instr) : Decidable (Harmless m i) := inferInstanceAs (Decidable (_ ∧ _))

instance (m : Media) (code : List Instr) : Decidable (Listed m code) := inferInstanceAs (Decidable (∀ _ ∈ _, _))

theorem listed_loop (pid : Nat) (m : Media) :
    Listed m (loopBody ++ [.loop]) ∧ Listed m (.nop :: startSketch pid) := by
  unfold startSketch txLED rxLED led
  cases m with
  | sd =>
      cases decide (pid = 0x37) with
      | true => decide
      | false => decide
  | emmc =>
      cases decide (pid = 0x37) with
      | true => decide
      | false => decide

theorem Listed.append {code code' : List Instr} (h : Listed m code) (h' : Listed m code') : Listed m (code ++ code') :=
  List.forall_mem_append.mpr ⟨h, h'⟩

/-- `boot_setting_nc` を読まない文の並びは、実行しても、読まない文の並びになる。 -/
theorem listed_exec (h : Listed m (i :: s.code)) : Listed m (exec pid usb i s).code := by
  obtain ⟨hi, hrest⟩ := List.forall_mem_cons.mp h
  cases i with
  | bootSetting =>
      rcases hi with hslip | hharmless
      · exact absurd trivial (not_spares_of_mem_slips hslip)
      · exact absurd rfl hharmless.1
  | loop =>
      obtain ⟨hbody, hsketch⟩ := listed_loop pid m
      simp only [exec]
      split
      · exact hbody.append hrest
      · exact hsketch.append hrest
  | cdcTask => exact Listed.append (fun j hj => .inr (harmless_cdcTask usb j hj)) hrest
  | _ => exact hrest

end Caterina

end Wagman.V3
