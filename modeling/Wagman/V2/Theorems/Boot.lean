import Wagman.V2.Lemmas.Effects

/-!
# 起動し直すことと、リレーの状態

`boot_switch` と `boot_GN` は、まずリレーを切り、動いていないとしてから始める。`loop` が呼ぶ `boot_NC` は `POWER_ON_BOOT` で、
その部分を行わない。
-/

namespace Wagman.V2

open Machine

variable {env : Env} {d : Device} {w w' : World}

/-- `loop` による機器 `d` の起動が、リレーを入れる前に必ず切り、終わりには、動いていることと、リレーが入っていることと、
最後まで進んだことが一致する。 -/
structure CleanBoot (env : Env) (d : Device) (w : World) : Prop where
  lowFirst : ∀ x l, Cut w (boot env d w).2 (x :: l) → x.event = .relay d true → ∃ y ∈ l, y.event = .relay d false
  running : (boot env d w).2.ram.running d = true ↔ (boot env d w).2.hw.relay d = true
  success : (boot env d w).2.hw.relay d = true ↔ (boot env d w).1 = true

/-- `boot_NC` が、電源を入れる前に失敗する。 -/
def Refused (env : Env) (w : World) : Prop :=
  readByte .ncEnabled w = 0 ∨ (twice (checkEnvironNC env) (delay env 5000) w).1 = false ∨
    (checkTempNC env (twice (checkEnvironNC env) (delay env 5000) w).2).1 = false

instance : Decidable (Refused env w) := inferInstanceAs (Decidable (_ ∨ _ ∨ _))

/-- まずリレーを切れば、その後は何をしても、入れる前に切っている。 -/
theorem lowFirst_of_rest {A : Event → Prop} (h : Trail A (restDevice env d w) w') {x : Entry Event} {l : Log}
    (hcut : Cut w w' (x :: l)) (hx : x.event = .relay d true) : ∃ y ∈ l, y.event = .relay d false := by
  obtain ⟨new, hn, hs⟩ := hcut
  obtain ⟨after, ha, -, -⟩ := h.log
  have hrest : (restDevice env d w).log = [⟨w.now, .relay d false⟩] ++ w.log := rfl
  rw [hrest, ← List.append_assoc, hn] at ha
  obtain rfl : new = after ++ [⟨w.now, .relay d false⟩] := List.append_cancel_right ha
  rcases List.suffix_or_suffix_of_suffix hs (List.suffix_append after _) with hl | ⟨t, ht⟩
  · rcases List.suffix_cons_iff.mp hl with heq | hnil
    · cases heq
      cases hx
    · cases List.suffix_nil.mp hnil
  · cases t with
    | nil =>
        cases ht
        cases hx
    | cons y t =>
        obtain ⟨rfl, rfl⟩ := List.cons.inj ht
        exact ⟨_, List.mem_append_right t (List.mem_singleton_self _), rfl⟩

theorem cleanBoot_of_finishes (h : Finishes d (restDevice env d w) (boot env d w)) : CleanBoot env d w where
  lowFirst x l hcut hx := lowFirst_of_rest h.boots.trail hcut hx
  running := by rw [h.running, h.relay]
  success := by rw [h.relay]

theorem cleanBoot_switch : CleanBoot env .switch w := cleanBoot_of_finishes finishes_bootSwitch

theorem cleanBoot_gn (g : GN) : CleanBoot env (.gn g) w := cleanBoot_of_finishes (finishes_bootGN g)

/-! ## `boot_NC` -/

/-- 装置の状態と入出力の回数が等しい。 -/
structure Alike (w w' : World) : Prop where
  hw : w'.hw = w.hw
  io : w'.io = w.io

theorem Alike.delay (ms : Nat) (h : Alike w w') : Alike (delay env ms w) (delay env ms w') :=
  ⟨h.hw, by simp only [V2.delay, elapse, h.io]⟩

theorem Alike.ioRead (h : Alike w w') : Alike (ioRead env w) (ioRead env w') := h.delay 0

/-- 検査の結果は、装置の状態と入出力の回数だけで決まる。 -/
def Determined (check : World → Bool × World) : Prop :=
  ∀ w w', Alike w w' → (check w').1 = (check w).1 ∧ Alike (check w).2 (check w').2

theorem determined_checkEnvironNC : Determined (checkEnvironNC env) := by
  intro w w' h
  have hread : Alike (ioRead env (ioRead env w)) (ioRead env (ioRead env w')) := h.ioRead.ioRead
  refine ⟨decide_eq_decide.mpr ?_, hread⟩
  have hio : (ioRead env w').io = (ioRead env w).io := h.ioRead.io
  simp only [readWord, readByte, hread.hw, h.io, hio]

theorem determined_checkTempNC : Determined (checkTempNC env) := by
  intro w w' h
  refine ⟨decide_eq_decide.mpr ?_, h.ioRead⟩
  simp only [readWord, h.hw, h.io]

theorem Determined.twice {check : World → Bool × World} {ms : Nat} (hc : Determined check) :
    Determined (twice check (delay env ms)) := by
  intro w w' h
  obtain ⟨h₁, ha⟩ := hc w w' h
  simp only [V2.twice, h₁]
  split
  · exact ⟨h₁, ha⟩
  · exact hc _ _ (ha.delay ms)

theorem admitTempNC_debug (w : World) : (admitTempNC env true w).1 = (checkTempNC env w).1 := by
  unfold admitTempNC
  simp only
  split
  · rfl
  · rename_i h
    exact (Bool.eq_false_of_not_eq_true h).symm

theorem refused_iff : (admitNC env true (say true "BNC0" w)).1 = false ↔ Refused env w := by
  have hsay : Alike w (say true "BNC3" (say true "BNC2" (say true "BNC0" w))) := ⟨rfl, rfl⟩
  have hdet : Determined (twice (checkEnvironNC env) (delay env 5000)) := determined_checkEnvironNC.twice
  obtain ⟨h₁, ha⟩ := hdet _ _ hsay
  have h₂ : ∀ v v' : World, Alike v v' → (admitTempNC env true (say true "BNC4" v')).1 = (checkTempNC env v).1 := by
    intro v v' hv
    rw [admitTempNC_debug]
    exact (determined_checkTempNC _ _ ⟨hv.hw, hv.io⟩).1
  have hbyte : readByte .ncEnabled (say true "BNC2" (say true "BNC0" w)) = readByte .ncEnabled w := rfl
  simp only [admitNC, hbyte, h₁, Refused]
  split
  · rename_i h
    simp [h]
  · rename_i h
    split
    · rename_i he
      simp [h, he, h₂ _ _ ha]
    · rename_i he
      simp [he]

/-- `loop` による `boot_NC` は、電源を入れる前に失敗し、それまで動いておらずリレーも切れていたときに限って、起動の約束を
満たす。 -/
theorem cleanBoot_nc_iff : CleanBoot env .nc w ↔
    Refused env w ∧ w.ram.running .nc = false ∧ w.hw.relay .nc = false := by
  have hboot : boot env .nc w = bootNC env true .powerOnBoot (say true "BNC0" w) := rfl
  by_cases hr : Refused env w
  · have hallowed : Still Event.Passive w (boot env .nc w).2 := by
      rw [hboot, bootNC_of_refused (refused_iff.mpr hr)]
      exact (passive_say true _).trans (passive_admitNC true)
    have hfalse : (boot env .nc w).1 = false := by
      rw [hboot, bootNC_of_refused (refused_iff.mpr hr)]
      exact refused_iff.mpr hr
    have hrelay := relay_of_passive hallowed .nc
    have hrunning : (boot env .nc w).2.ram.running .nc = w.ram.running .nc := by rw [hallowed.ram]
    constructor
    · intro h
      have hoff : w.hw.relay .nc = false := by
        rw [← hrelay, Bool.eq_false_iff]
        intro ht
        have ht' := h.success.mp ht
        rw [hfalse] at ht'
        cases ht'
      refine ⟨hr, ?_, hoff⟩
      rw [← hrunning, Bool.eq_false_iff]
      intro ht
      have ht' := h.running.mp ht
      rw [hrelay, hoff] at ht'
      cases ht'
    · rintro ⟨-, hrun, hoff⟩
      refine ⟨fun x l hcut hx => ?_, by simp [hrunning, hrun, hrelay, hoff], by simp [hrelay, hoff, hfalse]⟩
      have hpassive := hcut.forall hallowed.trail x (by simp)
      rw [hx] at hpassive
      exact hpassive.elim
  · have hyes : (admitNC env true (say true "BNC0" w)).1 = true := by
      rw [← Bool.not_eq_false, refused_iff]
      exact hr
    refine ⟨fun h => ?_, fun h => absurd h.1 hr⟩
    have hallowed : Still Event.Passive w (say true "BNC5" (admitNC env true (say true "BNC0" w)).2) :=
      (passive_say true _).trans ((passive_admitNC true).trans (passive_say true _))
    obtain ⟨l, hcut, hl⟩ := Cut.of_log hallowed.trail rfl (bootNC_of_admitted hyes).trail
    obtain ⟨y, hy, hlow⟩ := h.lowFirst _ l hcut rfl
    have hpassive := hl y hy
    rw [hlow] at hpassive
    exact hpassive.elim

/-- `loop` による機器の起動は、`boot_NC` が電源を入れようとするとき、または、それまで `NC` が動いていたかリレーが入っていたときを
除いて、起動の約束を満たす。 -/
theorem clean_boot_iff (env : Env) (d : Device) (w : World) : CleanBoot env d w ↔
    (d = .nc → Refused env w ∧ w.ram.running .nc = false ∧ w.hw.relay .nc = false) := by
  cases d with
  | nc => simp [cleanBoot_nc_iff]
  | switch => simp [cleanBoot_switch]
  | gn g => simp [cleanBoot_gn]

/-- 起動に成功した直後に `NC` の再起動を求められると、`boot_NC` は、入っているリレーをもう一度入れるだけである。 -/
theorem boot_nc_not_clean : ∃ w, w = setup Env.ideal (powerOn Eeprom.ready) ∧ w.ram.stage = .running ∧
    ¬ CleanBoot Env.ideal .nc w := by
  have hstage : (setup Env.ideal (powerOn Eeprom.ready)).ram.stage = .running := by decide +kernel
  have hrun : (setup Env.ideal (powerOn Eeprom.ready)).ram.running .nc = true := by decide +kernel
  refine ⟨_, rfl, hstage, fun h => ?_⟩
  have hdown := (cleanBoot_nc_iff.mp h).2.1
  rw [hrun] at hdown
  cases hdown

end Wagman.V2
