import Wagman.V3.Lemmas.Step

/-!
# 番号の引数

ポートの番号を取る七つの命令が、引数と直前の状態に応じて、どの機器に触れるか。同じ値を書き込むときも、EEPROM の記録やリレーには
触れたものとする。
-/

namespace Wagman.V3

open Machine

/-! ## 命令と機器 -/

/-- ポートの番号を引数に取る命令。 -/
def portCommands : List Command := [.ping, .start, .stop, .enable, .disable, .bs, .watch]

/-- 番号の引数。 -/
def portArgs (c : Command) (argv : List (List UInt8)) : List (List UInt8) :=
  match c with
  | .enable | .disable => argv.drop 1
  | _ => (argv.drop 1).take 1

/-- ポート `p` を表す十進法の数字の並び。 -/
def Numeral (s : List UInt8) (p : Port) : Prop := s ≠ [] ∧ s.all isdigit = true ∧ digits s = p

/-- `devices[p]`、リレー、EEPROM の記録に触れるか、`deviceWantsStart` を `p` に変える。 -/
def Affected (p : Port) (w w' : World) : Prop :=
  ¬Frame p w w' ∨ w'.ram.deviceWantsStart.toNat = p ∧ w.ram.deviceWantsStart.toNat ≠ p

/-- `stop` が受け付けるときの `stopTimeout`。 -/
def stopDelay (argv : List (List UInt8)) : UInt32 :=
  if argv.length = 2 then 60000 else toLong (atoi (arg argv 2)) * 1000

/-- `watch` の最後の引数。 -/
def watchMode (argv : List (List UInt8)) : Bool := decide (arg argv 3 = ascii ['t'])

/-- 命令が、番号 `p` と読んだ引数によって行うこと。 -/
def Touches (c : Command) (argv : List (List UInt8)) (w : World) (p : Port) : Prop :=
  match c with
  | .ping => argv.length = 2 ∧ portArg (arg argv 1) = some p
  | .start => argv.length = 2 ∧ portArg (arg argv 1) = some p ∧ w.ram.deviceWantsStart.toNat ≠ p
  | .stop => (argv.length = 2 ∨ argv.length = 3) ∧ portArg (arg argv 1) = some p ∧
      ((dev w p).state = .started ∨ (dev w p).stopTimeout ≠ stopDelay argv)
  | .enable => ∃ s ∈ argv.drop 1, portArg s = some p
  | .disable => (∃ s ∈ argv.drop 1, portArg s = some p) ∧ ¬(p = 0 ∧ (dev w p).state = .disabled)
  | .bs => argv.length = 3 ∧ portArg (arg argv 1) = some p ∧
      ((arg argv 2 = ascii ['s', 'd'] ∧ ¬((dev w p).shouldForceBootMedia = true ∧ (dev w p).forceBootMedia = .sd)) ∨
        (arg argv 2 = ascii ['e', 'm', 'm', 'c'] ∧
          ¬((dev w p).shouldForceBootMedia = true ∧ (dev w p).forceBootMedia = .emmc)))
  | .watch => argv.length = 4 ∧ portArg (arg argv 1) = some p ∧
      ((arg argv 2 = ascii ['h', 'b'] ∧ (dev w p).watchHeartbeat ≠ watchMode argv) ∨
        (arg argv 2 ≠ ascii ['h', 'b'] ∧ arg argv 2 ≠ ascii ['c', 'u'] ∧ (dev w p).watchCurrent ≠ watchMode argv))
  | _ => False

/-! ## 番号の読み取り -/

section Numeral

variable {s : List UInt8} {p : Port}

theorem portArg_eq_some_iff : portArg s = some p ↔ (atoi s % 256).toNat = p := by
  have hbyte : (toByte (atoi s)).toNat = (atoi s % 256).toNat := by
    rw [toByte, UInt8.toNat_ofNat']
    omega
  rw [portArg, port?, hbyte]
  constructor
  · intro h
    split at h
    · exact congrArg Fin.val (Option.some.inj h)
    · cases h
  · intro h
    rw [dif_pos (h ▸ p.isLt)]
    exact congrArg some (Fin.ext h)

theorem atoi_of_digits (hne : s ≠ []) (hall : s.all isdigit = true) : atoi s = Int.bmod (digits s) (2 ^ 16) := by
  cases s with
  | nil => exact absurd rfl hne
  | cons c s =>
      rw [List.all_cons, Bool.and_eq_true] at hall
      have hspace := isspace_of_isdigit hall.1
      rw [atoi, List.dropWhile_cons_of_neg (by simp [hspace])]
      -- 先頭は符号ではない
      split
      · rename_i heq
        rw [(List.cons.inj heq).1] at hall
        exact absurd hall.1 (by decide)
      · rename_i heq
        rw [(List.cons.inj heq).1] at hall
        exact absurd hall.1 (by decide)
      · rfl

/-- 数字の並びは、表すとおりの番号として読まれる。 -/
theorem portArg_of_numeral (h : Numeral s p) : portArg s = some p := by
  have hp := p.isLt
  rw [portArg_eq_some_iff, atoi_of_digits h.1 h.2.1, h.2.2, Int.bmod_eq_of_le (by omega) (by omega)]
  omega

end Numeral

/-! ## 触れたことの証拠 -/

section Mentions

variable {p : Port} {w v w' : World}

/-- `w` から `w'` までの間に、ポート `p` に関わる事象が起きている。 -/
def Mentions (p : Port) (w w' : World) : Prop := ∃ x l, w.log <:+ l ∧ x :: l <:+ w'.log ∧ x.event.About p

theorem Mentions.not_frame (h : Mentions p w w') : ¬Frame p w w' := by
  obtain ⟨x, l, ⟨n, rfl⟩, ⟨m, hm⟩, hx⟩ := h
  intro hf
  have hlog : w'.log = (m ++ x :: n) ++ w.log := by rw [← hm, List.append_assoc, List.cons_append]
  exact (hf.trail.of_log hlog).2 x (by simp) hx

theorem Mentions.of_suffix (h : Mentions p v w') (hs : w.log <:+ v.log) : Mentions p w w' := by
  obtain ⟨x, l, hl, hx, ha⟩ := h
  exact ⟨x, l, hs.trans hl, hx, ha⟩

theorem Mentions.extend (h : Mentions p w v) (hs : v.log <:+ w'.log) : Mentions p w w' := by
  obtain ⟨x, l, hl, hx, ha⟩ := h
  exact ⟨x, l, hl, hx.trans hs, ha⟩

theorem mentions_cons {x : Entry Event} (hx : x.event.About p) (h : x :: w.log <:+ w'.log) : Mentions p w w' :=
  ⟨x, w.log, List.suffix_refl _, h, hx⟩

/-- 基本の操作は、記録を消さない。 -/
theorem Act.suffix {env : Env} {i : Port} (h : Act env i w w') : w.log <:+ w'.log := by
  by_cases hi : i = 0
  · exact (h.prim.frame (p := 1) (by rw [hi]; decide)).trail.suffix
  · exact (h.prim.frame (p := 0) (Ne.symm hi)).trail.suffix

end Mentions

/-! ## `deviceWantsStart` -/

section Wants

variable {env : Env} {i : Port} {w : World}

theorem wants_driveRelay (t s : UInt8) (on : Bool) :
    (Device.driveRelay env i t on s w).ram.deviceWantsStart = w.ram.deviceWantsStart := by
  have hstill : Still (fun _ => True) w (Device.driveRelay env i t on s w) :=
    still_driveRelay trivial (fun _ _ => trivial) fun _ => trivial
  rw [hstill.ram]

theorem wants_kill : (Device.kill env i w).2.ram.deviceWantsStart = w.ram.deviceWantsStart := by
  unfold Device.kill
  split
  · rfl
  · exact wants_driveRelay _ _ _

theorem wants_disable : (Device.disable env i w).ram.deviceWantsStart = w.ram.deviceWantsStart := by
  by_cases hi : i = 0
  · simp only [Device.disable, hi, ne_eq, not_true_eq_false, if_false]
    exact wants_kill
  · simp only [Device.disable, ne_eq, hi, not_false_eq_true, if_true]
    exact wants_kill (w := Record.setDeviceEnabled env i false w)

theorem wants_onHeartbeat : (Device.onHeartbeat env i w).ram.deviceWantsStart = w.ram.deviceWantsStart := by
  unfold Device.onHeartbeat
  simp only
  split
  · exact wants_disable
  · rfl
  · rfl
  · rfl
  · rfl

theorem wants_stop : (Device.stop i w).2.ram.deviceWantsStart = w.ram.deviceWantsStart := by
  unfold Device.stop
  split
  · rfl
  · rfl

theorem wants_setNextBootMedia (m : Media) :
    (Device.setNextBootMedia env i m w).ram.deviceWantsStart = w.ram.deviceWantsStart := by
  have hstill : ∀ (n : Nat) (w : World), Still (fun _ => True) w (setBootMedia env n m w) := fun n w =>
    still_setBootMedia fun _ _ => trivial
  simp only [Device.setNextBootMedia]
  rw [(hstill _ _).ram]
  rfl

end Wants

/-! ## 一つの機器の操作 -/

section Own

variable {env : Env} {p : Port} {w : World}

theorem frame_setDev_iff (d : Device) : Frame p w (setDev p d w) ↔ d = dev w p := by
  constructor
  · intro h
    rw [← h.dev, dev_setDev_self]
  · rintro rfl
    refine Frame.setRam ?_
    rw [Ram.setDevice_devices_self]
    rfl

/-- 状態を変えれば、ポートに関わる事象が起きる。 -/
theorem mentions_changeState {v : World} (st : State) (h : w.log <:+ v.log) :
    Mentions p w (Device.changeState p st v) :=
  ⟨⟨v.now, .state p st⟩, v.log, h, List.suffix_refl _, rfl⟩

theorem suffix_kill : w.log <:+ (Device.kill env p w).2.log :=
  act_kill (P := fun v => w.log <:+ v.log) (fun _ _ ha h => h.trans ha.suffix) (List.suffix_refl _)

theorem mentions_kill (h : (dev w p).state ≠ .disabled) : Mentions p w (Device.kill env p w).2 := by
  have hstill : Still (fun _ => True) w (Device.driveRelay env p relayTurningOff false relayOff w) :=
    still_driveRelay trivial (fun _ _ => trivial) fun _ => trivial
  rw [Device.kill, if_neg h]
  exact mentions_changeState .stopped hstill.trail.suffix

theorem mentions_onHeartbeat : Mentions p w (Device.onHeartbeat env p w) := by
  refine mentions_cons (x := ⟨w.now, .heartbeat p⟩) rfl ?_
  have hbeat : (Device.beat p w).log = ⟨w.now, .heartbeat p⟩ :: w.log := rfl
  rw [← hbeat, Device.onHeartbeat]
  split
  · exact Act.suffix .disable
  · exact List.suffix_cons _ _
  · exact List.suffix_cons _ _
  · exact List.suffix_refl _
  · exact List.suffix_refl _

theorem mentions_enable : Mentions p w (Device.enable env p w) :=
  mentions_changeState .stopped ⟨[_, _], rfl⟩

theorem mentions_disable (h : ¬(p = 0 ∧ (dev w p).state = .disabled)) : Mentions p w (Device.disable env p w) := by
  by_cases hp : p = 0
  · simp only [Device.disable, hp, ne_eq, not_true_eq_false, if_false]
    exact mentions_kill fun hs => h ⟨hp, hp ▸ hs⟩
  · simp only [Device.disable, ne_eq, hp, not_false_eq_true, if_true]
    exact mentions_changeState .disabled
      ((List.suffix_cons _ _).trans (suffix_kill (w := Record.setDeviceEnabled env p false w)))

theorem disable_of_disabled (h : p = 0 ∧ (dev w p).state = .disabled) : Device.disable env p w = w := by
  obtain ⟨rfl, hs⟩ := h
  simp only [Device.disable, ne_eq, not_true_eq_false, if_false, Device.kill, hs, if_true]

theorem frame_stop_iff (t : UInt32) : Frame p w (Device.stop p (Device.setStopTimeout p t w)).2 ↔
    ¬((dev w p).state = .started ∨ (dev w p).stopTimeout ≠ t) := by
  have hstate : (dev (Device.setStopTimeout p t w) p).state = (dev w p).state := by
    rw [Device.setStopTimeout, dev_setDev_self]
  by_cases hs : (dev w p).state = .started
  · have hm : Mentions p w (Device.changeState p .stopping (Device.setStopTimeout p t w)) :=
      mentions_changeState .stopping (List.suffix_refl _)
    rw [Device.stop, if_neg (by rw [hstate, hs]; decide)]
    exact ⟨fun hf => absurd hf hm.not_frame, fun hn => absurd (.inl hs) hn⟩
  · rw [Device.stop, if_pos (by rwa [hstate]), Device.setStopTimeout, frame_setDev_iff]
    constructor
    · intro h hor
      exact hor.elim hs fun ht => ht (congrArg Device.stopTimeout h).symm
    · intro hn
      have ht : (dev w p).stopTimeout = t := Decidable.of_not_not fun ht => hn (.inr ht)
      rw [← ht]

theorem frame_setNextBootMedia_iff (m : Media) (out : Out) :
    Frame p w (println env out (Device.setNextBootMedia env p m w)) ↔
      (dev w p).shouldForceBootMedia = true ∧ (dev w p).forceBootMedia = m := by
  let d : Device := { dev w p with shouldForceBootMedia := true, forceBootMedia := m }
  have hquiet : Quiet (setDev p d w) (println env out (Device.setNextBootMedia env p m w)) :=
    (Quiet.ofStill (still_setBootMedia Event.global_pin)).trans (quiet_println out)
  constructor
  · intro h
    have hd : d = dev w p := by
      rw [← h.dev, (hquiet.frame p).dev, dev_setDev_self]
    exact ⟨(congrArg Device.shouldForceBootMedia hd).symm, (congrArg Device.forceBootMedia hd).symm⟩
  · rintro ⟨hforce, hm⟩
    have hd : d = dev w p := by
      simp only [d, ← hforce, ← hm]
    exact ((frame_setDev_iff d).mpr hd).trans (hquiet.frame p)

end Own

/-! ## 引数の並び -/

section EachArg

variable {env : Env} {p : Port} {w : World} {f : Port → World → World} {Idle : Device → Prop}

theorem frame_eachArg (hne : ∀ i v, p ≠ i → Frame p v (f i v)) (hself : ∀ v, Idle (dev v p) → Frame p v (f p v))
    (argv : List (List UInt8)) (h : (∃ s ∈ argv.drop 1, portArg s = some p) → Idle (dev w p)) :
    Frame p w (eachArg argv w f) := by
  unfold eachArg
  generalize argv.drop 1 = args at h
  induction args generalizing w with
  | nil => exact Frame.refl w
  | cons s args ih =>
      rw [List.foldl_cons]
      have hrest : (∃ s' ∈ args, portArg s' = some p) → Idle (dev w p) := fun ⟨s', hs', hp⟩ =>
        h ⟨s', List.mem_cons_of_mem _ hs', hp⟩
      cases hs : portArg s with
      | none => exact ih hrest
      | some i =>
          have hstep : Frame p w (f i w) := by
            by_cases hp : p = i
            · subst hp
              exact hself w (h ⟨s, List.mem_cons_self, hs⟩)
            · exact hne i w hp
          exact hstep.trans (ih fun he => hstep.dev.symm ▸ hrest he)

theorem mentions_eachArg (hne : ∀ i v, p ≠ i → Frame p v (f i v)) (hgrow : ∀ i v, v.log <:+ (f i v).log)
    (hself : ∀ v, ¬Idle (dev v p) → Mentions p v (f p v)) (argv : List (List UInt8))
    (h : ∃ s ∈ argv.drop 1, portArg s = some p) (hidle : ¬Idle (dev w p)) : Mentions p w (eachArg argv w f) := by
  have hfold : ∀ (args : List (List UInt8)) (v : World), v.log <:+ (eachArg ([] :: args) v f).log := by
    intro args v
    refine List.foldlRecOn (motive := fun (u : World) => v.log <:+ u.log) args _ (List.suffix_refl _)
      fun u hu s _ => ?_
    split
    · exact hu.trans (hgrow _ _)
    · exact hu
  unfold eachArg
  generalize argv.drop 1 = args at h
  induction args generalizing w with
  | nil =>
      obtain ⟨s, hs, -⟩ := h
      cases hs
  | cons s args ih =>
      rw [List.foldl_cons]
      cases hs : portArg s with
      | none =>
          obtain ⟨s', hs', hp⟩ := h
          rcases List.mem_cons.mp hs' with rfl | hs'
          · rw [hs] at hp
            cases hp
          · exact ih hidle ⟨s', hs', hp⟩
      | some i =>
          by_cases hp : p = i
          · subst hp
            exact (hself w hidle).extend (hfold args _)
          · have hf := hne i w hp
            obtain ⟨s', hs', hp'⟩ := h
            rcases List.mem_cons.mp hs' with rfl | hs'
            · exact absurd (Option.some.inj (hp'.symm.trans hs)) hp
            · exact (ih (by rwa [hf.dev]) ⟨s', hs', hp'⟩).of_suffix (hgrow i w)

end EachArg

end Wagman.V3
