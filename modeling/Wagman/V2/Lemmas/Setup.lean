import Wagman.V2.Lemmas.Effects

/-!
# `setup` の作用

`setup` の各部分は、決まった変数だけに書く。監視の検査を評価せず、対処もせず、続けて失敗した回数を変えない。
-/

namespace Wagman.V2

open Machine

variable {env : Env} {w w' w'' : World} {C D : Cell → Prop}

/-! ## 書く変数 -/

/-- EEPROM への書き込みが `C` の変数に限られる事象。評価にも対処にも当たらない。 -/
def Event.Writes (C : Cell → Prop) : Event → Prop
  | .byte c _ => C (.byte c)
  | .word c _ => C (.word c)
  | .usartBaud _ => C .usartBaud
  | .evaluated _ _ | .reaction _ => False
  | _ => True

theorem Event.Passive.writes {e : Event} (h : e.Passive) : e.Writes C := by
  cases e with
  | heartbeat d ok => trivial
  | problem text => trivial
  | print text => trivial
  | setTime t => trivial
  | _ => exact h.elim

theorem Event.Boots.writes {e : Event} {d : Device} (h : e.Boots d) (hd : C (.byte d.enabled)) : e.Writes C := by
  cases e with
  | relay q on => trivial
  | byte c v =>
      cases h
      exact hd
  | _ => exact Event.Passive.writes h

theorem byte_of_writes (h : Trail (Event.Writes C) w w') {c : ByteCell} (hc : ¬ C (.byte c)) :
    readByte c w' = readByte c w := by
  refine h.hw_induct (P := fun s => s.eeprom.byte c = w.hw.eeprom.byte c) ?_ rfl
  intro e s he hs
  cases e with
  | byte q v =>
      have hne : c ≠ q := fun heq => hc (heq ▸ he)
      simpa [Effect.apply, Function.update_of_ne hne] using hs
  | _ => exact hs

/-- `C` の変数だけに書き、続けて失敗した回数を変えない。段階は、変わるなら、終わらない繰り返しになる。 -/
structure Sets (C : Cell → Prop) (w w' : World) : Prop where
  trail : Trail (Event.Writes C) w w'
  counts : w'.ram.countTimeout = w.ram.countTimeout
  stage : w'.ram.stage = w.ram.stage ∨ w'.ram.stage = .hung

namespace Sets

theorem trans (h₁ : Sets C w w') (h₂ : Sets C w' w'') : Sets C w w'' where
  trail := h₁.trail.trans h₂.trail
  counts := h₂.counts.trans h₁.counts
  stage := by
    cases h₂.stage with
    | inl h => rw [h]; exact h₁.stage
    | inr h => exact Or.inr h

theorem mono (hCD : ∀ c, C c → D c) (h : Sets C w w') : Sets D w w' where
  trail := by
    refine h.trail.mono fun e he => ?_
    cases e with
    | byte c v => exact hCD _ he
    | word c v => exact hCD _ he
    | usartBaud v => exact hCD _ he
    | evaluated c ok => exact he.elim
    | reaction c => exact he.elim
    | _ => trivial
  counts := h.counts
  stage := h.stage

theorem ofStill (h : Still (Event.Writes C) w w') : Sets C w w' :=
  ⟨h.trail, by rw [h.ram], Or.inl (by rw [h.ram])⟩

theorem ofPassive (h : Still Event.Passive w w') : Sets C w w' := ofStill (h.mono fun _ he => he.writes)

theorem hang : Sets C w (enterStage .hung w) := ⟨(Trail.refl w).setRam _, rfl, Or.inr rfl⟩

theorem boot {d : Device} (hd : C (.byte d.enabled)) : Sets C w (boot env d w).2 := by
  have hboots : Boots d w (V2.boot env d w).2 := boots_boot d
  obtain ⟨ht, b, hr⟩ := hboots
  exact ⟨ht.mono fun _ he => he.writes hd, by rw [hr], Or.inl (by rw [hr])⟩

end Sets

theorem writes_updateByte {c : ByteCell} (hc : C (.byte c)) (v : UInt8) :
    Still (Event.Writes C) w (updateByte env c v w) := by
  have he : Event.Writes C (.byte c v) := hc
  exact Still.emit _ he w

/-! ## `boot_primary` の部分 -/

theorem writes_update {c : Cell} (hc : C c) (field : List UInt8) :
    Still (Event.Writes C) w (c.update env field w) := by
  cases c with
  | byte c => exact writes_updateByte hc _
  | word c =>
      have he : Event.Writes C (.word c (toWord (toInt field))) := hc
      exact Still.emit _ he w
  | usartBaud =>
      have he : Event.Writes C (.usartBaud (toLong (toInt field))) := hc
      exact Still.emit _ he w

theorem writes_set {c : Cell} (hc : C c) (n : Nat) : Still (Event.Writes C) w (c.set env n w) := by
  cases c with
  | byte c => exact writes_updateByte hc _
  | word c =>
      have he : Event.Writes C (.word c (UInt16.ofNat n)) := hc
      exact Still.emit _ he w
  | usartBaud =>
      have he : Event.Writes C (.usartBaud (UInt32.ofNat n)) := hc
      exact Still.emit _ he w

theorem sets_setDefaultEeprom : Sets (· ∈ defaults.map Prod.fst) w (setDefaultEeprom env w) :=
  Sets.ofStill (Still.foldl (fun _ _ hp => writes_set (List.mem_map_of_mem hp) _) w)

theorem sets_receiveParams (cells : List Cell) (request : String) :
    Sets (· ∈ cells) w (receiveParams env cells request w) := by
  have hread : ∀ v : World, Sets (· ∈ cells) v (ioRead env (println request v)) := fun _ =>
    Sets.ofPassive ((passive_println _).trans still_ioRead)
  simp only [receiveParams]
  split
  · exact hread w
  · split
    · exact (hread w).trans (Sets.ofStill
        (Still.foldl (fun _ _ hp => writes_update (List.of_mem_zip hp).2 _) _))
    · exact (hread w).trans Sets.hang

/-- `init_primary` が書く変数。 -/
def initCells : List Cell := [.byte .postResult, .byte .numSOSBootAttempts, .byte .timerTestIncomplete]

theorem sets_initPrimary : Sets (· ∈ initCells) w (initPrimary env w) :=
  Sets.ofStill ((writes_updateByte (by simp [initCells]) 0).trans
    ((writes_updateByte (by simp [initCells]) 0).trans (writes_updateByte (by simp [initCells]) 0)))

theorem passive_bootSysMon : Still Event.Passive w (bootSysMon env w).2 := by
  have hpower : ∀ v : World, Still Event.Passive v (twice (checkPowerSysMon env) (delay env 1000) v).2 := fun _ =>
    still_twice (fun _ => still_checkPower _ _) fun _ => still_delay 1000
  have henviron : ∀ v : World, Still Event.Passive v (twice (checkEnvironSysMon env) (delay env 5000) v).2 := fun _ =>
    still_twice (fun _ => still_checkEnviron _ _ _ _) fun _ => still_delay 5000
  simp only [bootSysMon]
  split
  · exact hpower w
  · exact (hpower w).trans (henviron _)

/-- `boot_primary` のうち、`boot_NC` の後の部分が書く変数。 -/
def configCells : List Cell := coreCells ++ gnCells ++ [.byte .switchEnabled]

theorem sets_configure : Sets (· ∈ configCells) w (configure env w) := by
  have htime : Sets (· ∈ configCells) w (getTimeNC env (delay env 20000 w)) :=
    Sets.ofPassive ((still_delay 20000).trans passive_getTimeNC)
  have hcore : ∀ v : World, Sets (· ∈ configCells) v (getParamsCore env v) := fun _ =>
    (sets_receiveParams coreCells "$").mono fun c hc => by simp [configCells, hc]
  have hgns : ∀ v : World, Sets (· ∈ configCells) v (getParamsGNs env v) := fun _ =>
    (sets_receiveParams gnCells "^").mono fun c hc => by simp [configCells, hc]
  have hswitch : Cell.byte Device.switch.enabled ∈ configCells := by simp [configCells, Device.enabled]
  simp only [configure]
  split
  · split
    · exact htime.trans ((hcore _).trans ((hgns _).trans (Sets.boot (d := .switch) hswitch)))
    · exact htime.trans ((hcore _).trans (hgns _))
  · exact htime.trans (hcore _)

/-- `set_default_eeprom` は初めての起動のときだけ、設定の受け取りは `boot_NC` が成功したときだけ行われる。 -/
theorem sets_bootPrimary (hinit : ∀ c ∈ initCells, C c)
    (hdefault : readByte .firstBoot w ≠ 0 → ∀ c ∈ defaults.map Prod.fst, C c) (hnc : C (.byte .ncEnabled))
    (hconfig : (bootPrimary env w).1 = true → ∀ c ∈ configCells, C c) : Sets C w (bootPrimary env w).2 := by
  have hprimary : Sets (· ∈ initCells) w (initPrimary env w) := sets_initPrimary
  have hstart : Sets C w (initPrimary env w) := hprimary.mono hinit
  have hfirst : readByte .firstBoot (initPrimary env w) = readByte .firstBoot w :=
    byte_of_writes hprimary.trail (by simp [initCells])
  have hself : ∀ v : World, Sets C v (bootSysMon env v).2 := fun _ => Sets.ofPassive passive_bootSysMon
  have hboot : ∀ v : World, Sets C v (bootNCVoid env v).2 := fun _ => Sets.boot (d := .nc) hnc
  revert hconfig
  simp only [bootPrimary]
  generalize hv : (if readByte .firstBoot (initPrimary env w) ≠ 0 then setDefaultEeprom env (initPrimary env w)
    else initPrimary env w) = v
  have hfill : Sets C w v := by
    rw [← hv]
    split
    · rename_i h
      exact hstart.trans (sets_setDefaultEeprom.mono (hdefault (hfirst ▸ h)))
    · exact hstart
  split
  · exact fun _ => hfill.trans (hself v)
  · split
    · exact fun _ => hfill.trans ((hself v).trans (hboot _))
    · exact fun hconfig => hfill.trans ((hself v).trans ((hboot _).trans
        (sets_configure.mono (hconfig rfl))))

/-! ## `setup` の全体 -/

theorem trail_sleepSysMon : Trail (Event.Writes C) w (sleepSysMon env w) :=
  (Still.foldl (fun v _ _ => Still.emit _ trivial v) w).trail.setRam _

theorem trail_failBoot : Trail (Event.Writes fun _ => True) w (failBoot env w) ∧
    (failBoot env w).ram.countTimeout = w.ram.countTimeout := by
  have hbyte : ∀ (c : ByteCell) (v : UInt8) (u : World),
      Trail (Event.Writes fun _ => True) u (updateByte env c v u) := fun c v u =>
    (writes_updateByte (c := c) trivial v).trail
  simp only [failBoot]
  split
  · exact ⟨(hbyte _ _ _).setRam _, rfl⟩
  · exact ⟨(hbyte _ _ _).trans ((hbyte _ _ _).trans (((Trail.refl _).elapse _ _).trans trail_sleepSysMon)), rfl⟩

/-- `setup` は、監視の検査を評価せず、対処もせず、続けて失敗した回数を変えない。 -/
theorem trail_setup : Trail (Event.Writes fun _ => True) w (setup env w) ∧
    (setup env w).ram.countTimeout = w.ram.countTimeout := by
  have hprimary : Sets (fun _ => True) w (bootPrimary env w).2 :=
    sets_bootPrimary (fun _ _ => trivial) (fun _ _ _ => trivial) trivial fun _ _ _ => trivial
  have hgn : ∀ (g : GN) (v : World), Sets (fun _ => True) v (bootGN env g v).2 := fun g _ =>
    Sets.boot (d := .gn g) trivial
  simp only [setup]
  split
  · exact ⟨hprimary.trail.trans trail_failBoot.1, trail_failBoot.2.trans hprimary.counts⟩
  · split
    · have hgns := hprimary.trans ((hgn 0 _).trans ((hgn 1 _).trans (hgn 2 _)))
      exact ⟨hgns.trail, hgns.counts⟩
    · exact ⟨hprimary.trail, hprimary.counts⟩

end Wagman.V2
