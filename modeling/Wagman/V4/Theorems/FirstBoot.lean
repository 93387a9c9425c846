import Wagman.V4.Lemmas.Fields

/-!
# 記録の初期化と電源断

`Record::init` は、すべての欄を書いてから最後に `MAGIC` を書く。どこで電源が切れても、何回やり直しても、`MAGIC` が揃った
時点ではすべての欄が初期値を持つ。
-/

namespace Wagman.V4.Record

open Machine

variable {env : Env}

/-! ## 欄の並びへの書き込み -/

/-- 欄への一回の書き込み。 -/
abbrev Write := (f : Field) × f.Value

def writes (env : Env) (l : List Write) (w : World) : World := l.foldl (fun w x => x.1.write env x.2 w) w

theorem still_writes {A : Event → Prop} {l : List Write} (h : ∀ x ∈ l, ∀ e, x.1.Writes e → A e) (w : World) :
    Still A w (writes env l w) :=
  Still.foldl (fun w x hx => (x.1.still_write env x.2 w).mono (h x hx)) w

theorem writes_eeprom_of_ne {l : List Write} {f : Field} (h : ∀ x ∈ l, f ≠ x.1) (w : World) {a : Nat}
    (ha : f.Holds a) : (writes env l w).hw.eeprom a = w.hw.eeprom a := by
  refine trail_eeprom (still_writes (A := fun e => ∃ x ∈ l, x.1.Writes e) (fun x hx e he => ⟨x, hx, he⟩) w).trail ?_
  rintro v ⟨x, hx, a', v', he, hx'⟩
  cases he
  exact Field.disjoint (h x hx) hx' ha

/-- 同じ欄に二度書かなければ、欄の範囲のバイトだけで決まる性質は、その欄に書いた直後から最後まで成り立つ。 -/
theorem writes_of_mem {l : List Write} (hn : (l.map Sigma.fst).Nodup) {f : Field} {v : f.Value} (h : ⟨f, v⟩ ∈ l)
    {P : (Nat → UInt8) → Prop} (hP : ∀ m m', (∀ a, f.Holds a → m a = m' a) → P m' → P m)
    (hset : ∀ w, P (f.write env v w).hw.eeprom) (w : World) : P (writes env l w).hw.eeprom := by
  induction l generalizing w with
  | nil => cases h
  | cons x l ih =>
      rw [List.map_cons, List.nodup_cons] at hn
      rcases List.mem_cons.mp h with rfl | h
      · have hrest : ∀ y ∈ l, f ≠ y.1 := fun y hy he => hn.1 (List.mem_map.mpr ⟨y, hy, he.symm⟩)
        exact hP _ _ (fun a ha => writes_eeprom_of_ne hrest _ ha) (hset w)
      · exact ih hn.2 h _

/-! ## `Record::init` の書き込み -/

def initPortWrites (i : Port) : List Write :=
  [⟨.device i .bootAttempts, (0 : UInt32)⟩, ⟨.device i .bootFailures, (0 : UInt32)⟩, ⟨.device i .relayState, relayOff⟩,
    ⟨.device i .currentHealth, (0 : UInt8)⟩, ⟨.device i .thermistorHealth, (0 : UInt8)⟩,
    ⟨.device i .logStart, (0 : UInt8)⟩, ⟨.device i .logCount, (0 : UInt8)⟩]

/-- 既定で有効にするポート。 -/
def enabledByDefault (i : Port) : Bool := decide (i < 3)

def initWrites : List Write :=
  [⟨.header .bootCount, (0 : UInt32)⟩, ⟨.header .lastBootTime, (0 : UInt32)⟩,
    ⟨.header .hardwareVersion, (⟨3, 1⟩ : Version)⟩, ⟨.header .firmwareVersion, (⟨1, 0⟩ : Version)⟩,
    ⟨.header .wireEnabled, true⟩] ++
  (List.finRange 5).flatMap initPortWrites ++
  (List.finRange 5).map (fun i => ⟨.device i .enabled, enabledByDefault i⟩) ++
  [⟨.header .bootloaderNodeController, (0 : UInt8)⟩]

theorem init_eq (env : Env) (w : World) :
    init env w = EEPROM.put env magicAddr 4 magic (writes env initWrites w) := by
  simp only [initWrites, writes, List.foldl_append, List.foldl_flatMap]
  rfl

theorem initWrites_nodup : (initWrites.map Sigma.fst).Nodup := by decide +kernel

theorem initWrites_ne_magic : ∀ x ∈ initWrites, Field.header .magic ≠ x.1 := by decide +kernel

/-- `Record::init` が書くすべての欄が、初期値を持つ。 -/
structure Initial (m : Nat → UInt8) : Prop where
  bootCount : getBootCount m = 0
  lastBootTime : getLastBootTime m = 0
  hardwareVersion : getHardwareVersion m = ⟨3, 1⟩
  firmwareVersion : getFirmwareVersion m = ⟨1, 0⟩
  wireEnabled : getWireEnabled m = true
  bootAttempts : ∀ i, getBootAttempts m i = 0
  bootFailures : ∀ i, getBootFailures m i = 0
  relayState : ∀ i, getRelayState m i = relayOff
  currentHealth : ∀ i, getPortCurrentSensorHealth m i = 0
  thermistorHealth : ∀ i, getThermistorSensorHealth m i = 0
  logStart : ∀ i, BootLog.getStart m i = 0
  logCount : ∀ i, BootLog.getCount m i = 0
  enabled : ∀ i, m (deviceRegion i + portEnabled) = (enabledByDefault i).toUInt8
  bootloaderNodeController : getBootloaderNodeController m = 0

/-- 欄の値から、`Record::init` の後の初期値が従う。 -/
theorem initial_writes (env : Env) (w : World) : Initial (writes env initWrites w).hw.eeprom := by
  have hread : ∀ {f : Field} {v : f.Value}, ⟨f, v⟩ ∈ initWrites →
      f.read (writes env initWrites w).hw.eeprom = f.stored v := fun {f v} hm =>
    writes_of_mem initWrites_nodup hm (P := fun m => f.read m = f.stored v)
      (fun m m' he hm' => (f.read_congr he).trans hm') (fun w => f.read_write_self env v w) w
  have hport : ∀ {i : Port} {x : Write}, x ∈ initPortWrites i → x ∈ initWrites := by
    intro i x hx
    simp only [initWrites, List.mem_append, List.mem_flatMap]
    exact Or.inl (Or.inl (Or.inr ⟨i, List.mem_finRange i, hx⟩))
  have henabled : ∀ i, (⟨.device i .enabled, enabledByDefault i⟩ : Write) ∈ initWrites := by
    intro i
    simp only [initWrites, List.mem_append, List.mem_map]
    exact Or.inl (Or.inr ⟨i, List.mem_finRange i, rfl⟩)
  constructor
  · exact hread (f := .header .bootCount) (v := (0 : UInt32)) (by simp [initWrites])
  · exact hread (f := .header .lastBootTime) (v := (0 : UInt32)) (by simp [initWrites])
  · exact hread (f := .header .hardwareVersion) (v := (⟨3, 1⟩ : Version)) (by simp [initWrites])
  · exact hread (f := .header .firmwareVersion) (v := (⟨1, 0⟩ : Version)) (by simp [initWrites])
  · exact hread (f := .header .wireEnabled) (v := true) (by simp [initWrites])
  · exact fun i => hread (hport (i := i) (x := ⟨.device i .bootAttempts, (0 : UInt32)⟩) (by simp [initPortWrites]))
  · exact fun i => hread (hport (i := i) (x := ⟨.device i .bootFailures, (0 : UInt32)⟩) (by simp [initPortWrites]))
  · exact fun i => hread (hport (i := i) (x := ⟨.device i .relayState, relayOff⟩) (by simp [initPortWrites]))
  · exact fun i => hread (hport (i := i) (x := ⟨.device i .currentHealth, (0 : UInt8)⟩) (by simp [initPortWrites]))
  · exact fun i => hread (hport (i := i) (x := ⟨.device i .thermistorHealth, (0 : UInt8)⟩) (by simp [initPortWrites]))
  · exact fun i => hread (hport (i := i) (x := ⟨.device i .logStart, (0 : UInt8)⟩) (by simp [initPortWrites]))
  · exact fun i => hread (hport (i := i) (x := ⟨.device i .logCount, (0 : UInt8)⟩) (by simp [initPortWrites]))
  · intro i
    refine writes_of_mem initWrites_nodup (henabled i)
      (P := fun m => m (deviceRegion i + portEnabled) = (enabledByDefault i).toUInt8) (fun m m' he hm' => ?_)
      (fun w => write_eeprom_self _ _) w
    exact (he _ ⟨Nat.le_refl _, Nat.lt_succ_self _⟩).trans hm'
  · exact hread (f := .header .bootloaderNodeController) (v := (0 : UInt8)) (by simp [initWrites])

/-- 初期値は、`MAGIC` の範囲の外のバイトだけで決まる。 -/
theorem Initial.congr {m m' : Nat → UInt8} (h : ∀ a, 4 ≤ a → m a = m' a) (hm : Initial m') : Initial m := by
  have hoffset : ∀ (i : Port) (o : Nat), 4 ≤ deviceRegion i + o := by
    intro i o
    simp only [deviceRegion, portRegionsStart]
    omega
  have hword : ∀ a, 4 ≤ a → getWord m a = getWord m' a := fun a ha =>
    getWord_congr fun b hb _ => h b (Nat.le_trans ha hb)
  have hversion : ∀ a, 4 ≤ a → getVersion m a = getVersion m' a := by
    intro a ha
    rw [getVersion, getVersion, h a ha, h (a + 1) (by omega)]
  have hlog : ∀ (i : Port) (o : Nat), m (BootLog.address i + o) = m' (BootLog.address i + o) := by
    intro i o
    refine h _ ?_
    simp only [BootLog.address]
    omega
  constructor
  · exact (hword Record.bootCount (by decide)).trans hm.bootCount
  · exact (hword Record.lastBootTime (by decide)).trans hm.lastBootTime
  · exact (hversion Record.hardwareVersion (by decide)).trans hm.hardwareVersion
  · exact (hversion Record.firmwareVersion (by decide)).trans hm.firmwareVersion
  · exact (congrArg (· != 0) (h Record.wireEnabled (by decide))).trans hm.wireEnabled
  · exact fun i => (hword _ (hoffset i _)).trans (hm.bootAttempts i)
  · exact fun i => (hword _ (hoffset i _)).trans (hm.bootFailures i)
  · exact fun i => (h _ (hoffset i _)).trans (hm.relayState i)
  · exact fun i => (h _ (hoffset i _)).trans (hm.currentHealth i)
  · exact fun i => (h _ (hoffset i _)).trans (hm.thermistorHealth i)
  · exact fun i => (hlog i 0).trans (hm.logStart i)
  · exact fun i => (hlog i 1).trans (hm.logCount i)
  · exact fun i => (h _ (hoffset i _)).trans (hm.enabled i)
  · exact (h Record.bootloaderNodeController (by decide)).trans hm.bootloaderNodeController

/-! ## 途中の電源断 -/

theorem initialized_congr {m m' : Nat → UInt8} (h : ∀ a < 4, m a = m' a) : initialized m = initialized m' := by
  have hget : Bytes.get m magicAddr 4 = Bytes.get m' magicAddr 4 :=
    Bytes.get_congr fun b _ hb => h b (by simpa using hb)
  rw [initialized, initialized, hget]

theorem during_eeprom {A : Event → Prop} {w w' : World} {h : Hardware} (hd : During w w' h) (ht : Trail A w w')
    {a : Nat} (ha : ∀ v, ¬ A (.eeprom a v)) : h.eeprom a = w.hw.eeprom a := by
  refine hd.induct ht (P := fun s => s.eeprom a = w.hw.eeprom a) (fun e s he hs => ?_) rfl
  cases e with
  | eeprom b v =>
      have hne : a ≠ b := by rintro rfl; exact ha v he
      exact (Bytes.store_of_ne hne v s.eeprom).trans hs
  | _ => exact hs

/-- `Record::init` の途中では、`MAGIC` が前と変わらないか、すべての欄が初期値を持つ。 -/
theorem during_init {w : World} {h : Hardware} (hd : During w (init env w) h) :
    initialized h.eeprom = initialized w.hw.eeprom ∨ Initial h.eeprom := by
  have h₁ : Trail (fun e => ∀ a v, e = .eeprom a v → 4 ≤ a) w (writes env initWrites w) := by
    refine (still_writes (fun x hx e => ?_) w).trail
    rintro ⟨a, v, rfl, ha⟩ a' v' he
    cases he
    -- `MAGIC` の欄は並びにないので、その範囲には書かない
    have hmagic := Field.disjoint (initWrites_ne_magic x hx) ha
    simp only [Field.Holds, Field.addr, Field.width, HeaderField.offset, HeaderField.width, magicAddr] at hmagic
    omega
  have h₂ : Trail (fun e => ∃ a v, e = .eeprom a v ∧ a < 4) (writes env initWrites w)
      (EEPROM.put env magicAddr 4 magic (writes env initWrites w)) :=
    (still_put (fun b v _ hb => ⟨b, v, rfl, by simpa using hb⟩) _).trail
  rw [init_eq, During.trans_iff h₁ h₂] at hd
  rcases hd with hd | hd
  · refine Or.inl (initialized_congr fun a ha => during_eeprom hd h₁ fun v hv => ?_)
    exact absurd (hv a v rfl) (by omega)
  · refine Or.inr ((initial_writes env w).congr fun a ha => during_eeprom hd h₂ fun v => ?_)
    rintro ⟨a', v', he, hlt⟩
    cases he
    omega

/-- 初期化されていない装置 `h₀` を、初期化が終わるまで何回か起動した途中の装置の状態。どの起動も、途中で電源が切れうる。 -/
inductive Booting (h₀ : Hardware) : Hardware → Prop
  | initial : Booting h₀ h₀
  | reset {h} (pins : Nat → Bool) : Booting h₀ h → Booting h₀ { h with pin := pins }
  | boot {h h'} (env : Env) : Booting h₀ h → initialized h.eeprom = false →
      During (powerOn h) (init env (powerOn h)) h' → Booting h₀ h'

/-- `clearMagic` が一バイトでも書いた後は、初期化されていない。 -/
theorem clearMagic_uninitialized {w : World} {new l : Log} (hn : (clearMagic env w).log = new ++ w.log)
    (hs : l <:+ new) (hl : l ≠ []) : initialized (replay w.hw l).eeprom = false := by
  -- 最初のバイトを書いた後の途中の時点である
  have h₁ : Trail (fun _ => True) w (EEPROM.write env 0 0 w) := (still_write trivial).trail
  have h₂ : Trail (fun e => ∃ a v, e = .eeprom a v ∧ 1 ≤ a) (EEPROM.write env 0 0 w) (clearMagic env w) :=
    (still_put (k := 3) (fun b v hb _ => ⟨b, v, rfl, hb⟩) 0).trail
  obtain ⟨new₂, hn₂, -, -⟩ := h₂.log
  have hnew : new = new₂ ++ [⟨w.now, .eeprom 0 0⟩] := by
    refine List.append_cancel_right (hn.symm.trans ?_)
    rw [hn₂, List.append_assoc]
    rfl
  have hd : During (EEPROM.write env 0 0 w) (clearMagic env w) (replay w.hw l) := by
    obtain ⟨l', rfl⟩ : ∃ l', l = l' ++ [⟨w.now, .eeprom 0 0⟩] := by
      rcases List.suffix_or_suffix_of_suffix hs (hnew ▸ List.suffix_append _ _) with h | ⟨l', rfl⟩
      · rcases List.suffix_cons_iff.mp h with rfl | h
        · exact ⟨[], rfl⟩
        · exact absurd (List.suffix_nil.mp h) hl
      · exact ⟨l', rfl⟩
    refine ⟨new₂, l', hn₂, List.suffix_append_self_iff.mp (hnew ▸ hs), ?_⟩
    rw [replay_append]
    rfl
  have hbyte : (replay w.hw l).eeprom 0 = 0 := by
    refine (during_eeprom hd h₂ fun v => ?_).trans (write_eeprom_self 0 0)
    rintro ⟨a, v', he, ha⟩
    cases he
    omega
  have hne : Bytes.get (replay w.hw l).eeprom magicAddr 4 ≠ magic := by
    simp only [magicAddr, magic, Bytes.get, hbyte, UInt8.toNat_zero]
    omega
  exact beq_eq_false_iff_ne.mpr hne

/-- `MAGIC` が揃った時点で、すべての欄が初期値を持つ。`clearMagic` は、一バイトでも書けば `MAGIC` を崩す。 -/
theorem first_boot_consistent (h₀ h : Hardware) (hm : initialized h₀.eeprom = false) (hb : Booting h₀ h) :
    (initialized h.eeprom = true → Initial h.eeprom) ∧
    ∀ (env : Env) (w : World) (new l : Log), (clearMagic env w).log = new ++ w.log → l <:+ new → l ≠ [] →
      initialized (replay w.hw l).eeprom = false := by
  refine ⟨?_, fun env w new l hn hs hl => clearMagic_uninitialized hn hs hl⟩
  induction hb with
  | initial => exact fun hi => absurd (hm.symm.trans hi) Bool.false_ne_true
  | reset pins _ ih => exact ih
  | boot env _ hi hd _ =>
      rcases during_init hd with he | hinit
      · exact fun ht => absurd ((hi.symm.trans he.symm).trans ht) Bool.false_ne_true
      · exact fun _ => hinit

/-- 消去された EEPROM を持つ装置。 -/
def blank : Hardware := { Hardware.ready with eeprom := fun _ => 0xff }

/-- 初めの起動は `MAGIC` の二バイトを書いて電源を失い、次の起動が初期化を終える。 -/
theorem first_boot_consistent_retry : ∃ h h', Booting blank h ∧ initialized h.eeprom = false ∧ h.eeprom 1 = 0xad ∧
    Booting blank h' ∧ initialized h'.eeprom = true ∧ Initial h'.eeprom := by
  have hcut : Booting blank (replay blank ((init Env.ideal (powerOn blank)).log.drop 2)) :=
    .boot Env.ideal .initial (by decide +kernel) ⟨_, _, (List.append_nil _).symm, List.drop_suffix 2 _, rfl⟩
  have hdone : Booting blank
      (init Env.ideal (powerOn (replay blank ((init Env.ideal (powerOn blank)).log.drop 2)))).hw := by
    have hinit : ∀ w : World, Trail (fun _ => True) w (init Env.ideal w) := by
      intro w
      rw [init_eq]
      exact ((still_writes (fun _ _ _ _ => trivial) w).trans (still_put (fun _ _ _ _ => trivial) _)).trail
    exact .boot Env.ideal hcut (by decide +kernel) (During.stop (hinit _))
  exact ⟨_, _, hcut, by decide +kernel, by decide +kernel, hdone, by decide +kernel,
    (first_boot_consistent _ _ (by decide +kernel) hdone).1 (by decide +kernel)⟩

end Wagman.V4.Record
