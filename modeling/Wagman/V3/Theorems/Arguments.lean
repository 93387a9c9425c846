import Wagman.V3.Lemmas.Arguments

/-!
# 命令が触れる機器

引数は、`atoi` の下位の一バイトが 0 から 4 までであれば、番号として使われる。数字でない引数は 0 になり、範囲の外の数も
折り返して番号になるので、名指していない機器に触れることがある。`watch` は、`hb` でも `cu` でもない名前で `watchCurrent` を
変え、`cu` では何も変えない。
-/

namespace Wagman.V3

open Machine

section Affected

variable {env : Env} {p : Port} {w w' : World} {argv : List (List UInt8)}

theorem affected_iff_of_wants (h : w'.ram.deviceWantsStart = w.ram.deviceWantsStart) :
    Affected p w w' ↔ ¬Frame p w w' := by
  rw [Affected, h]
  exact ⟨fun ha => ha.elim id fun hw => absurd hw.1 hw.2, .inl⟩

theorem not_affected_refl : ¬Affected p w w := fun h => (affected_iff_of_wants rfl).mp h (Frame.refl w)

theorem frame_act {i : Port} (hp : p ≠ i) {v v' : World} (ha : Act env i v v') (h : Frame p w v) : Frame p w v' :=
  h.trans (ha.prim.frame hp)

theorem affected_ping_iff : Affected p w (commandPing env argv w).2 ↔ Touches .ping argv w p := by
  by_cases hl : argv.length = 2
  · cases ha : portArg (arg argv 1) with
    | none => simpa [commandPing, Touches, hl, ha] using not_affected_refl
    | some i =>
        have hw : (Device.onHeartbeat env i w).ram.deviceWantsStart = w.ram.deviceWantsStart := wants_onHeartbeat
        simp only [commandPing, Touches, hl, ha, ne_eq, not_true_eq_false, if_false, Device.sendExternalHeartbeat,
          affected_iff_of_wants hw, true_and, Option.some.injEq]
        by_cases hp : p = i
        · subst hp
          simpa using mentions_onHeartbeat.not_frame
        · have hf : Frame p w (Device.onHeartbeat env i w) := act_onHeartbeat (fun _ _ => frame_act hp) (Frame.refl w)
          simp [hf, Ne.symm hp]
  · simpa [commandPing, Touches, hl] using not_affected_refl

theorem affected_start_iff : Affected p w (commandStart argv w).2 ↔ Touches .start argv w p := by
  by_cases hl : argv.length = 2
  · cases ha : portArg (arg argv 1) with
    | none => simpa [commandStart, Touches, hl, ha] using not_affected_refl
    | some i =>
        have hf : Frame p w (w.setRam { w.ram with deviceWantsStart := UInt8.ofNat i }) := Frame.setRam rfl
        have hval : (UInt8.ofNat i).toNat = i := by
          rw [UInt8.toNat_ofNat']
          omega
        simp only [commandStart, Touches, hl, ha, ne_eq, not_true_eq_false, if_false, Affected, hf, false_or,
          Machine.setRam_ram, hval, true_and, Option.some.injEq, Fin.ext_iff]
  · simpa [commandStart, Touches, hl] using not_affected_refl

theorem affected_stopAfter_iff (i : Port) (t : UInt32) :
    Affected p w (Device.stop i (Device.setStopTimeout i t w)).2 ↔
      i = p ∧ ((dev w p).state = .started ∨ (dev w p).stopTimeout ≠ t) := by
  have hw : (Device.stop i (Device.setStopTimeout i t w)).2.ram.deviceWantsStart = w.ram.deviceWantsStart :=
    wants_stop.trans rfl
  rw [affected_iff_of_wants hw]
  by_cases hp : p = i
  · subst hp
    rw [frame_stop_iff, not_not]
    exact ⟨fun h => ⟨rfl, h⟩, And.right⟩
  · have hf : Frame p w (Device.stop i (Device.setStopTimeout i t w)).2 := by
      rw [Device.stop]
      split
      · exact Frame.setDev _ hp
      · exact (Frame.setDev _ hp).trans (Frame.changeState .stopping hp)
    exact ⟨fun h => absurd hf h, fun h => absurd h.1 (Ne.symm hp)⟩

theorem affected_stop_iff : Affected p w (commandStop argv w).2 ↔ Touches .stop argv w p := by
  cases ha : portArg (arg argv 1) with
  | none =>
      have hsame : (commandStop argv w).2 = w := by
        rw [commandStop, ha]
        split
        · rfl
        · rfl
      rw [hsame]
      exact ⟨fun h => absurd h not_affected_refl, fun h => absurd (ha.symm.trans h.2.1) (by simp)⟩
  | some i =>
      by_cases hl : argv.length = 2 ∨ argv.length = 3
      · have hrun : (commandStop argv w).2 = (Device.stop i (Device.setStopTimeout i (stopDelay argv) w)).2 := by
          rw [commandStop, ha, stopDelay]
          rcases hl with hl | hl
          · simp [hl]
          · simp [hl]
        rw [hrun, affected_stopAfter_iff]
        simp [Touches, hl, ha]
      · have hsame : (commandStop argv w).2 = w := by
          rw [not_or] at hl
          simp only [commandStop, ha, hl.1, hl.2, if_false]
          split
          · rfl
          · rfl
        rw [hsame]
        exact ⟨fun h => absurd h not_affected_refl, fun h => absurd h.1 hl⟩

theorem wants_eachArg {f : Port → World → World}
    (hf : ∀ i v, (f i v).ram.deviceWantsStart = v.ram.deviceWantsStart) :
    (eachArg argv w f).ram.deviceWantsStart = w.ram.deviceWantsStart := by
  refine List.foldlRecOn (motive := fun (u : World) => u.ram.deviceWantsStart = w.ram.deviceWantsStart) _ _ rfl
    fun u hu s _ => ?_
  split
  · exact (hf _ _).trans hu
  · exact hu

/-- 引数を順に読む命令は、番号 `p` と読んだ引数があり、`p` の操作が何かを行うちょうどそのときに、`p` に触れる。 -/
theorem affected_eachArg_iff {f : Port → World → World} (Idle : Device → Prop)
    (hact : ∀ i v, Act env i v (f i v)) (hwants : ∀ i v, (f i v).ram.deviceWantsStart = v.ram.deviceWantsStart)
    (hidle : ∀ v, Idle (dev v p) → f p v = v) (hself : ∀ v, ¬Idle (dev v p) → Mentions p v (f p v)) :
    Affected p w (eachArg argv w f) ↔ (∃ s ∈ argv.drop 1, portArg s = some p) ∧ ¬Idle (dev w p) := by
  have hne : ∀ i v, p ≠ i → Frame p v (f i v) := fun i v hp => (hact i v).prim.frame hp
  rw [affected_iff_of_wants (wants_eachArg hwants)]
  constructor
  · intro hf
    by_contra hn
    refine hf (frame_eachArg hne (fun v hv => (hidle v hv).symm ▸ Frame.refl v) argv fun hs => ?_)
    by_contra hi
    exact hn ⟨hs, hi⟩
  · rintro ⟨hs, hi⟩
    exact (mentions_eachArg hne (fun i v => (hact i v).suffix) hself argv hs hi).not_frame

theorem affected_enable_iff : Affected p w (commandEnable env argv w).2 ↔ Touches .enable argv w p := by
  have h : Affected p w (eachArg argv w (Device.enable env)) ↔ _ :=
    affected_eachArg_iff (fun _ => False) (fun _ _ => .enable) (fun _ _ => rfl) (fun _ => False.elim)
      fun _ _ => mentions_enable
  rw [not_false_eq_true, and_true] at h
  exact h

theorem affected_disable_iff : Affected p w (commandDisable env argv w).2 ↔ Touches .disable argv w p :=
  affected_eachArg_iff (fun d => p = 0 ∧ d.state = .disabled) (fun _ _ => .disable) (fun _ _ => wants_disable)
    (fun _ => disable_of_disabled) fun _ => mentions_disable

theorem affected_setMedia_iff (i : Port) (m : Media) (out : Out) :
    Affected p w (println env out (Device.setNextBootMedia env i m w)) ↔
      i = p ∧ ¬((dev w p).shouldForceBootMedia = true ∧ (dev w p).forceBootMedia = m) := by
  have hw : (println env out (Device.setNextBootMedia env i m w)).ram.deviceWantsStart = w.ram.deviceWantsStart :=
    wants_setNextBootMedia m
  rw [affected_iff_of_wants hw]
  by_cases hp : p = i
  · subst hp
    rw [frame_setNextBootMedia_iff]
    exact ⟨fun h => ⟨rfl, h⟩, And.right⟩
  · have hf : Frame p w (println env out (Device.setNextBootMedia env i m w)) :=
      (frame_act hp (.media m) (Frame.refl w)).trans ((quiet_println out).frame p)
    exact ⟨fun h => absurd hf h, fun h => absurd h.1 (Ne.symm hp)⟩

theorem not_affected_quiet (hq : Quiet w w') (hw : w'.ram.deviceWantsStart = w.ram.deviceWantsStart) :
    ¬Affected p w w' := by
  rw [affected_iff_of_wants hw, not_not]
  exact hq.frame p

theorem affected_bs_iff : Affected p w (commandBootMedia env argv w).2 ↔ Touches .bs argv w p := by
  cases ha : portArg (arg argv 1) with
  | none =>
      have hsame : (commandBootMedia env argv w).2 = w := by
        rw [commandBootMedia, ha]
        split
        · rfl
        · rfl
      rw [hsame]
      exact ⟨fun h => absurd h not_affected_refl, fun h => absurd (ha.symm.trans h.2.1) (by simp)⟩
  | some i =>
      by_cases hl : argv.length = 3
      · simp only [commandBootMedia, Touches, hl, ha, if_true, true_and, Option.some.injEq]
        by_cases hsd : arg argv 2 = ascii ['s', 'd']
        · have hne : ascii ['s', 'd'] ≠ ascii ['e', 'm', 'm', 'c'] := by decide
          simp [hsd, hne, affected_setMedia_iff]
        · by_cases hemmc : arg argv 2 = ascii ['e', 'm', 'm', 'c']
          · have hne : ascii ['e', 'm', 'm', 'c'] ≠ ascii ['s', 'd'] := by decide
            simp [hemmc, hne, affected_setMedia_iff]
          · have hn : ¬Affected p w (println env (.text "invalid media") w) :=
              not_affected_quiet (quiet_println _) rfl
            simp [hsd, hemmc, hn]
      · have hn : ¬Affected p w (commandBootMedia env argv w).2 := by
          simp only [commandBootMedia, ha, hl, if_false]
          split
          · exact not_affected_refl
          · split
            · exact not_affected_quiet (quiet_ioRead.trans (quiet_println _)) rfl
            · exact not_affected_quiet (quiet_ioRead.trans (quiet_println _)) rfl
        exact ⟨fun h => absurd h hn, fun h => absurd h.1 hl⟩

theorem affected_setDev_iff (i : Port) (d : Device) :
    Affected p w (setDev i d w) ↔ i = p ∧ d ≠ dev w p := by
  have hw : (setDev i d w).ram.deviceWantsStart = w.ram.deviceWantsStart := rfl
  rw [affected_iff_of_wants hw]
  by_cases hp : p = i
  · subst hp
    rw [frame_setDev_iff]
    exact ⟨fun h => ⟨rfl, h⟩, And.right⟩
  · exact ⟨fun h => absurd (Frame.setDev d hp) h, fun h => absurd h.1 (Ne.symm hp)⟩

theorem affected_watch_iff : Affected p w (commandWatch argv w).2 ↔ Touches .watch argv w p := by
  by_cases hl : argv.length = 4
  · cases ha : portArg (arg argv 1) with
    | none => simpa [commandWatch, Touches, hl, ha] using not_affected_refl
    | some i =>
        have hmode : decide (arg argv 3 = ascii ['t']) = watchMode argv := rfl
        simp only [commandWatch, Touches, hl, ha, hmode, if_true, true_and, Option.some.injEq]
        by_cases hb : arg argv 2 = ascii ['h', 'b']
        · have hd : ({ dev w i with watchHeartbeat := watchMode argv } : Device) ≠ dev w i ↔
              (dev w i).watchHeartbeat ≠ watchMode argv := by
            refine not_congr ⟨fun h => (congrArg Device.watchHeartbeat h).symm, fun h => by rw [← h]⟩
          rw [if_pos hb, affected_setDev_iff]
          simp only [hb, true_and, ne_eq, not_true_eq_false, false_and, or_false]
          exact and_congr_right fun hp => hp ▸ hd
        · by_cases hc : arg argv 2 = ascii ['c', 'u']
          · have hn := not_affected_refl (p := p) (w := w)
            rw [if_neg hb, if_neg (not_not.mpr hc)]
            rw [hc] at hb
            simp [hb, hc, hn]
          · have hd : ({ dev w i with watchCurrent := watchMode argv } : Device) ≠ dev w i ↔
                (dev w i).watchCurrent ≠ watchMode argv := by
              refine not_congr ⟨fun h => (congrArg Device.watchCurrent h).symm, fun h => by rw [← h]⟩
            rw [if_neg hb, if_pos hc, affected_setDev_iff]
            simp only [hb, hc, false_and, ne_eq, not_false_eq_true, true_and, false_or]
            exact and_congr_right fun hp => hp ▸ hd
  · simpa [commandWatch, Touches, hl] using not_affected_refl

theorem affected_iff {c : Command} (hc : c ∈ portCommands) :
    Affected p w (c.func env argv w).2 ↔ Touches c argv w p := by
  cases c with
  | ping => exact affected_ping_iff
  | start => exact affected_start_iff
  | stop => exact affected_stop_iff
  | enable => exact affected_enable_iff
  | disable => exact affected_disable_iff
  | bs => exact affected_bs_iff
  | watch => exact affected_watch_iff
  | _ => simp [portCommands] at hc

end Affected

/-! ## `watch` -/

/-- 名前 `k` の `watch` は、`hb` なら `watchHeartbeat`、`cu` なら `watchCurrent` だけを変える。 -/
structure WatchOnly (k : List UInt8) (w w' : World) : Prop where
  heartbeat : ∀ p, (dev w' p).watchHeartbeat ≠ (dev w p).watchHeartbeat → k = ascii ['h', 'b']
  current : ∀ p, (dev w' p).watchCurrent ≠ (dev w p).watchCurrent → k = ascii ['c', 'u']
  rest : ∃ f g : Port → Bool, w' = w.setRam { w.ram with
    devices := fun p => { dev w p with watchHeartbeat := f p, watchCurrent := g p } }

section Watch

variable {w : World} {argv : List (List UInt8)} {i p : Port}

theorem WatchOnly.refl (k : List UInt8) (w : World) : WatchOnly k w w :=
  ⟨fun _ h => absurd rfl h, fun _ h => absurd rfl h, fun p => (dev w p).watchHeartbeat,
    fun p => (dev w p).watchCurrent, rfl⟩

theorem watchOnly_setDev_iff (k : List UInt8) (i : Port) (hb cu : Bool) :
    WatchOnly k w (setDev i { dev w i with watchHeartbeat := hb, watchCurrent := cu } w) ↔
      ((dev w i).watchHeartbeat ≠ hb → k = ascii ['h', 'b']) ∧
        ((dev w i).watchCurrent ≠ cu → k = ascii ['c', 'u']) := by
  have hself := dev_setDev_self w i { dev w i with watchHeartbeat := hb, watchCurrent := cu }
  have hother : ∀ p, p ≠ i → dev (setDev i { dev w i with watchHeartbeat := hb, watchCurrent := cu } w) p = dev w p :=
    fun p hp => Ram.setDevice_devices_of_ne _ hp _
  constructor
  · intro h
    refine ⟨fun hne => h.heartbeat i ?_, fun hne => h.current i ?_⟩
    · rw [hself]
      exact hne.symm
    · rw [hself]
      exact hne.symm
  · rintro ⟨hh, hc⟩
    refine ⟨fun p hne => ?_, fun p hne => ?_, Function.update (fun p => (dev w p).watchHeartbeat) i hb,
      Function.update (fun p => (dev w p).watchCurrent) i cu, ?_⟩
    · by_cases hp : p = i
      · subst hp
        rw [hself] at hne
        exact hh hne.symm
      · rw [hother p hp] at hne
        exact absurd rfl hne
    · by_cases hp : p = i
      · subst hp
        rw [hself] at hne
        exact hc hne.symm
      · rw [hother p hp] at hne
        exact absurd rfl hne
    · refine congrArg w.setRam (congrArg (fun ds => { w.ram with devices := ds }) (funext fun p => ?_))
      by_cases hp : p = i
      · subst hp
        rw [Function.update_self, Function.update_self, Function.update_self]
      · rw [Function.update_of_ne hp, Function.update_of_ne hp, Function.update_of_ne hp]
        rfl

/-- `hb` でも `cu` でもない名前の `watch` は、`watchCurrent` を変えないときに限って正しい。 -/
theorem watchOnly_iff (hl : argv.length = 4) : WatchOnly (arg argv 2) w (commandWatch argv w).2 ↔
    ∀ p, portArg (arg argv 1) = some p →
      arg argv 2 = ascii ['h', 'b'] ∨ arg argv 2 = ascii ['c', 'u'] ∨ (dev w p).watchCurrent = watchMode argv := by
  cases ha : portArg (arg argv 1) with
  | none =>
      have hsame : (commandWatch argv w).2 = w := by
        rw [commandWatch, if_pos hl, ha]
      rw [hsame]
      refine ⟨fun _ p hp => ?_, fun _ => WatchOnly.refl _ w⟩
      cases hp
  | some i =>
      have hrun : (commandWatch argv w).2 =
          if arg argv 2 = ascii ['h', 'b'] then
            setDev i { dev w i with watchHeartbeat := watchMode argv, watchCurrent := (dev w i).watchCurrent } w
          else if arg argv 2 ≠ ascii ['c', 'u'] then
            setDev i { dev w i with watchHeartbeat := (dev w i).watchHeartbeat, watchCurrent := watchMode argv } w
          else w := by
        simp only [commandWatch, if_pos hl, ha]
        split
        · rfl
        · split
          · rfl
          · rfl
      rw [hrun]
      by_cases hb : arg argv 2 = ascii ['h', 'b']
      · rw [if_pos hb, watchOnly_setDev_iff]
        exact ⟨fun _ _ _ => .inl hb, fun _ => ⟨fun _ => hb, fun h => absurd rfl h⟩⟩
      · by_cases hc : arg argv 2 = ascii ['c', 'u']
        · rw [if_neg hb, if_neg (not_not.mpr hc)]
          exact ⟨fun _ _ _ => .inr (.inl hc), fun _ => WatchOnly.refl _ w⟩
        · rw [if_neg hb, if_pos hc, watchOnly_setDev_iff]
          constructor
          · rintro ⟨-, hcu⟩ p hp
            obtain rfl := Option.some.inj hp
            exact .inr (.inr (Decidable.of_not_not fun hne => hc (hcu hne)))
          · intro h
            refine ⟨fun hne => absurd rfl hne, fun hne => ?_⟩
            exact (h i rfl).elim (fun hk => absurd hk hb) fun hk => hk.resolve_right hne

end Watch

/-! ## 引数が名指す機器 -/

/-- 命令は、番号の引数が名指す機器だけに触れ、`watch` は名前のとおりの監視だけを変える。 -/
structure Named (c : Command) (argv : List (List UInt8)) (w w' : World) : Prop where
  ports : ∀ p, Affected p w w' → ∃ s ∈ portArgs c argv, Numeral s p
  watch : c = .watch → argv.length = 4 → WatchOnly (arg argv 2) w w'

/-- 番号として使われるどの引数も、その番号を表す引数を伴い、`watch` の名前は `hb` か `cu` であるか、`watchCurrent` を変えない。 -/
structure Plain (c : Command) (argv : List (List UInt8)) (w : World) : Prop where
  ports : ∀ p, Touches c argv w p → ∃ s ∈ portArgs c argv, Numeral s p
  watch : c = .watch → argv.length = 4 → ∀ p, portArg (arg argv 1) = some p →
    arg argv 2 = ascii ['h', 'b'] ∨ arg argv 2 = ascii ['c', 'u'] ∨ (dev w p).watchCurrent = watchMode argv

/-- 七つの命令が名指す機器だけに触れるのは、`Plain` を満たすちょうどそのときである。 -/
theorem command_named_iff (env : Env) {c : Command} (hc : c ∈ portCommands) (argv : List (List UInt8)) (w : World) :
    Named c argv w (c.func env argv w).2 ↔ Plain c argv w := by
  constructor
  · rintro ⟨hports, hwatch⟩
    refine ⟨fun p ht => hports p ((affected_iff hc).mpr ht), ?_⟩
    rintro rfl hl
    exact (watchOnly_iff hl).mp (hwatch rfl hl)
  · rintro ⟨hports, hwatch⟩
    refine ⟨fun p ha => hports p ((affected_iff hc).mp ha), ?_⟩
    rintro rfl hl
    exact (watchOnly_iff hl).mpr (hwatch rfl hl)

/-- `stop 1` -/
def stopOne : List (List UInt8) := [ascii ['s', 't', 'o', 'p'], ascii ['1']]

theorem command_named_iff_stop : Named .stop stopOne (booted Env.ideal Hardware.ready)
    (Command.func Env.ideal .stop stopOne (booted Env.ideal Hardware.ready)).2 := by
  refine (command_named_iff Env.ideal (by decide) stopOne _).mpr ⟨fun p hp => ?_, fun h => by cases h⟩
  have hone : p = 1 := Option.some.inj (hp.2.1.symm.trans (by decide))
  subst hone
  exact ⟨ascii ['1'], by decide, by decide, by decide, by decide⟩

/-- `ping x` -/
def pingX : List (List UInt8) := [ascii ['p', 'i', 'n', 'g'], ascii ['x']]

/-- `watch 1 x t` -/
def watchX : List (List UInt8) := [ascii ['w', 'a', 't', 'c', 'h'], ascii ['1'], ascii ['x'], ascii ['t']]

/-- `ping x` は 0 番の機器の心拍になり、`watch 1 x t` は `watchCurrent` を変える。 -/
theorem command_touches_unnamed : ∃ w, w = booted Env.ideal Hardware.ready ∧
    ¬Named .ping pingX w (Command.func Env.ideal .ping pingX w).2 ∧
    ¬Named .watch watchX w (Command.func Env.ideal .watch watchX w).2 := by
  refine ⟨_, rfl, fun h => ?_, fun h => ?_⟩
  · obtain ⟨s, hs, -, hall, -⟩ := h.ports 0 (affected_ping_iff.mpr ⟨rfl, by decide⟩)
    rw [List.mem_singleton.mp hs] at hall
    exact absurd hall (by decide)
  · rcases (watchOnly_iff rfl).mp (h.watch rfl rfl) 1 (by decide) with hk | hk | hk
    · exact absurd hk (by decide)
    · exact absurd hk (by decide)
    · exact absurd hk (by decide)

end Wagman.V3
