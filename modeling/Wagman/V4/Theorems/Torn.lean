import Wagman.V4.Theorems.Fields

/-!
# 記録の更新と電源断

更新は一バイトずつ書くので、途中で電源が切れると、書きかけの数が残りうる。残るのは、下位の何バイトかが新しく、残りが元の
ままの数であり、ほかの欄は変わらない。更新が途切れても前か後のどちらかに見えるための、必要十分な条件を示す。
-/

namespace Wagman.V4.Record

open Machine

/-! ## 書きかけの数 -/

/-- 下位 `j` バイトが新しく、残りが元のままの数。 -/
def tear (j : Nat) (new old : UInt32) : UInt32 := UInt32.ofNat (Bytes.torn j new.toNat old.toNat)

/-- 高々一つのバイトを除いて等しい。 -/
def OneByte (a b : UInt32) : Prop := ∃ i, ∀ k < 4, k ≠ i → Bytes.byte a.toNat k = Bytes.byte b.toNat k

theorem toNat_tear {j : Nat} (hj : j ≤ 4) (new old : UInt32) :
    (tear j new old).toNat = Bytes.torn j new.toNat old.toNat :=
  UInt32.toNat_ofNat_of_lt' (Bytes.torn_lt hj old.toNat_lt)

theorem eq_of_byte_eq {a b : UInt32} (h : ∀ k < 4, Bytes.byte a.toNat k = Bytes.byte b.toNat k) : a = b :=
  UInt32.toNat_inj.mp (Bytes.eq_of_byte_eq (k := 4) a.toNat_lt b.toNat_lt h)

theorem byte_tear {j k : Nat} (hj : j ≤ 4) (hk : k < 4) (new old : UInt32) :
    Bytes.byte (tear j new old).toNat k = if k < j then Bytes.byte new.toNat k else Bytes.byte old.toNat k := by
  rw [toNat_tear hj, Bytes.byte_torn hj old.toNat_lt hk]

theorem tear_four (new old : UInt32) : tear 4 new old = new := by
  refine eq_of_byte_eq fun k hk => ?_
  rw [byte_tear (by decide) hk, if_pos hk]

theorem tear_self (j : Nat) (hj : j ≤ 4) (v : UInt32) : tear j v v = v := by
  refine eq_of_byte_eq fun k hk => ?_
  rw [byte_tear hj hk, ite_self]

/-- どこで途切れても前か後の数になるのは、高々一つのバイトだけが変わるときに限る。 -/
theorem tear_eq_iff_oneByte (new old : UInt32) :
    (∀ j ≤ 4, tear j new old = old ∨ tear j new old = new) ↔ OneByte old new := by
  constructor
  · intro h
    by_contra hne
    -- 異なるバイトが二つあれば、その間で途切れた数は、前とも後とも異なる
    obtain ⟨i, hi, hbi⟩ : ∃ i < 4, Bytes.byte old.toNat i ≠ Bytes.byte new.toNat i := by
      by_contra hall
      push Not at hall
      exact hne ⟨0, fun k hk _ => hall k hk⟩
    obtain ⟨k, hk, hki, hbk⟩ : ∃ k < 4, k ≠ i ∧ Bytes.byte old.toNat k ≠ Bytes.byte new.toNat k := by
      by_contra hall
      push Not at hall
      exact hne ⟨i, hall⟩
    have hcut : ∀ a b, a < b → b < 4 → Bytes.byte old.toNat a ≠ Bytes.byte new.toNat a →
        Bytes.byte old.toNat b ≠ Bytes.byte new.toNat b → False := by
      intro a b hab hb ha₁ hb₁
      have hold := byte_tear (j := a + 1) (by omega) (Nat.lt_trans hab hb) new old
      have hnew := byte_tear (j := a + 1) (by omega) hb new old
      rw [if_pos (by omega)] at hold
      rw [if_neg (by omega)] at hnew
      rcases h (a + 1) (by omega) with he | he
      · exact ha₁ (he ▸ hold)
      · exact hb₁ (he ▸ hnew).symm
    rcases Nat.lt_or_gt_of_ne hki with hlt | hlt
    · exact hcut k i hlt hi hbk hbi
    · exact hcut i k hlt hk hbi hbk
  · rintro ⟨i, hi⟩ j hj
    by_cases hij : i < j
    · refine Or.inr (eq_of_byte_eq fun k hk => ?_)
      rw [byte_tear hj hk]
      split
      · rfl
      · exact hi k hk (by omega)
    · refine Or.inl (eq_of_byte_eq fun k hk => ?_)
      rw [byte_tear hj hk]
      split
      · exact (hi k hk (by omega)).symm
      · rfl

/-- 一を加えて変わるバイトが一つだけなのは、桁上がりのないときに限る。 -/
theorem oneByte_succ_iff (c : UInt32) : OneByte c (c + 1) ↔ c % 256 ≠ 255 := by
  have hlt := c.toNat_lt
  have hsucc : (c + 1).toNat = (c.toNat + 1) % 2 ^ 32 := by simp
  have hmod : c % 256 ≠ 255 ↔ c.toNat % 256 ≠ 255 := by
    rw [Ne, ← UInt32.toNat_inj]
    simp
  have hbyte : ∀ a b : Nat, UInt8.ofNat a = UInt8.ofNat b ↔ a % 256 = b % 256 := by
    intro a b
    rw [← UInt8.toNat_inj]
    simp
  rw [hmod]
  constructor
  · rintro ⟨i, hi⟩ hcarry
    by_cases h0 : i = 0
    · have h1 := hi 1 (by decide) (by omega)
      simp only [Bytes.byte, hbyte, hsucc] at h1
      omega
    · have h0' := hi 0 (by decide) (by omega)
      simp only [Bytes.byte, hbyte, hsucc] at h0'
      omega
  · intro hc
    refine ⟨0, fun k hk hk0 => ?_⟩
    have hdiv : c.toNat / 256 = (c + 1).toNat / 256 := by omega
    obtain ⟨k, rfl⟩ : ∃ k', k = k' + 1 := ⟨k - 1, by omega⟩
    rw [Bytes.byte_succ, Bytes.byte_succ, hdiv]

/-! ## 記録の見え方 -/

/-- `Record` の公開された関数から値が読める欄。起動の記録の先頭の位置と場所ごとの値は、`getEntry` を通してだけ読める。 -/
def Field.Public : Field → Bool
  | .header .magic => false
  | .device _ .logStart => false
  | .device _ (.logEntry _) => false
  | _ => true

/-- 記録を読む公開された関数。 -/
inductive Accessor
  | initialized
  | field (f : Field) (h : f.Public = true)
  | getEntry (d : Port) (i : UInt8)

abbrev Accessor.Value : Accessor → Type
  | .initialized => Bool
  | .field f _ => f.Value
  | .getEntry _ _ => UInt32

def Accessor.read : (a : Accessor) → (Nat → UInt8) → a.Value
  | .initialized, m => Record.initialized m
  | .field f _, m => f.read m
  | .getEntry d i, m => BootLog.getEntry m d i

/-- 公開されたどの関数も同じ値を返す。 -/
def Same (m m' : Nat → UInt8) : Prop := ∀ a : Accessor, a.read m = a.read m'

/-- 欄 `f` の範囲のほかは等しい記憶。 -/
def AgreeOff (f : Field) (m m' : Nat → UInt8) : Prop := ∀ a, ¬ f.Holds a → m a = m' a

namespace AgreeOff

variable {f : Field} {m m' : Nat → UInt8}

theorem read_eq (h : AgreeOff f m m') {g : Field} (hg : g ≠ f) : g.read m = g.read m' :=
  g.read_congr fun a ha => h a fun hf => Field.disjoint hg hf ha

theorem initialized_eq (h : AgreeOff f m m') (hf : .header .magic ≠ f) : initialized m = initialized m' := by
  have hget : Bytes.get m magicAddr 4 = Bytes.get m' magicAddr 4 :=
    Bytes.get_congr fun b h₁ h₂ => h b fun hb => Field.disjoint hf hb ⟨h₁, h₂⟩
  rw [initialized, initialized, hget]

theorem getEntry_eq (h : AgreeOff f m m') {d : Port} (hstart : .device d .logStart ≠ f)
    (hcount : .device d .logCount ≠ f) (hentry : ∀ k, .device d (.logEntry k) ≠ f) (i : UInt8) :
    BootLog.getEntry m d i = BootLog.getEntry m' d i :=
  getEntry_congr (h.read_eq hstart) (h.read_eq hcount) (fun k => h.read_eq (hentry k)) i

theorem put {j : Nat} (hj : j ≤ f.width) (n : Nat) (m : Nat → UInt8) :
    AgreeOff f (Bytes.put Bytes.store f.addr j n m) m := by
  intro a ha
  by_cases hlt : a < f.addr
  · exact Bytes.put_store_of_lt hlt j n m
  · refine Bytes.put_store_of_le ?_ n m
    have : ¬ a < f.addr + f.width := fun h => ha ⟨by omega, h⟩
    omega

end AgreeOff

theorem getWord_put (m : Nat → UInt8) (a : Nat) {j : Nat} (hj : j ≤ 4) (v : UInt32) :
    getWord (Bytes.put Bytes.store a j v.toNat m) a = tear j v (getWord m a) := by
  have hold : (getWord m a).toNat = Bytes.get m a 4 := UInt32.toNat_ofNat_of_lt' (Bytes.get_lt m a 4)
  rw [getWord, Bytes.get_put_torn hj, tear, hold]

theorem during_put_iff {env : Env} {w : World} {a k n : Nat} {Q : (Nat → UInt8) → Prop} :
    (∀ h, During w (EEPROM.put env a k n w) h → Q h.eeprom) ↔
      ∀ j ≤ k, Q (Bytes.put Bytes.store a j n w.hw.eeprom) := by
  have hread : ∀ j, (Bytes.put (fun b v => Effect.apply (Event.eeprom b v)) a j n w.hw).eeprom =
      Bytes.put Bytes.store a j n w.hw.eeprom := fun j =>
    Bytes.read_put Hardware.eeprom (fun _ _ _ => rfl) a j n w.hw
  constructor
  · intro h j hj
    rw [← hread]
    exact h _ ((During.put_iff env.latency Event.eeprom a k n).mpr ⟨j, hj, rfl⟩)
  · intro h s hs
    obtain ⟨j, hj, rfl⟩ := (During.put_iff env.latency Event.eeprom a k n).mp hs
    rw [hread]
    exact h j hj

/-! ## 数の更新 -/

/-- `Record` の関数が一つの数として書き換える欄。 -/
inductive Counter
  | bootCount
  | lastBootTime
  | bootAttempts (d : Port)
  | bootFailures (d : Port)

namespace Counter

def field : Counter → Field
  | .bootCount => .header .bootCount
  | .lastBootTime => .header .lastBootTime
  | .bootAttempts d => .device d .bootAttempts
  | .bootFailures d => .device d .bootFailures

def accessor (c : Counter) : Accessor := .field c.field (by cases c <;> rfl)

def read (m : Nat → UInt8) : Counter → UInt32
  | .bootCount => getBootCount m
  | .lastBootTime => getLastBootTime m
  | .bootAttempts d => getBootAttempts m d
  | .bootFailures d => getBootFailures m d

def write (env : Env) (v : UInt32) (w : World) : Counter → World
  | .bootCount => setBootCount env v w
  | .lastBootTime => setLastBootTime env v w
  | .bootAttempts d => setBootAttempts env d v w
  | .bootFailures d => setBootFailures env d v w

/-- 数 `c` は書きかけの値を持ち、ほかのどの関数も前と同じ値を返す。 -/
def Torn (c : Counter) (v : UInt32) (m m' : Nat → UInt8) : Prop :=
  ∃ j ≤ 4, c.read m' = tear j v (c.read m) ∧ ∀ a, a ≠ c.accessor → a.read m' = a.read m

variable (c : Counter)

theorem field_width : c.field.width = 4 := by cases c <;> rfl

theorem read_eq (m : Nat → UInt8) : c.read m = getWord m c.field.addr := by cases c <;> rfl

theorem write_eq (env : Env) (v : UInt32) (w : World) :
    c.write env v w = EEPROM.put env c.field.addr 4 v.toNat w := by cases c <;> rfl

theorem read_put (m : Nat → UInt8) {j : Nat} (hj : j ≤ 4) (v : UInt32) :
    c.read (Bytes.put Bytes.store c.field.addr j v.toNat m) = tear j v (c.read m) := by
  rw [read_eq, getWord_put m _ hj, ← read_eq]

theorem accessor_read_put (m : Nat → UInt8) {j : Nat} (hj : j ≤ 4) (n : Nat) {a : Accessor} (ha : a ≠ c.accessor) :
    a.read (Bytes.put Bytes.store c.field.addr j n m) = a.read m := by
  have h : AgreeOff c.field (Bytes.put Bytes.store c.field.addr j n m) m :=
    AgreeOff.put (c.field_width.symm ▸ hj) n m
  cases a with
  | initialized => exact h.initialized_eq (by cases c <;> simp [field])
  | field f hf =>
      refine h.read_eq fun he => ha ?_
      subst he
      rfl
  | getEntry d i =>
      exact h.getEntry_eq (by cases c <;> simp [field]) (by cases c <;> simp [field])
        (by cases c <;> simp [field]) i

/-- 見え方が等しいのは、数 `c` の値が等しいときに限る。 -/
theorem same_iff {m m' : Nat → UInt8} (h : ∀ a, a ≠ c.accessor → a.read m' = a.read m) :
    Same m' m ↔ c.read m' = c.read m := by
  constructor
  · intro hs
    have := hs c.accessor
    cases c <;> exact this
  · intro hc a
    by_cases ha : a = c.accessor
    · subst ha
      cases c <;> exact hc
    · exact h a ha

variable {env : Env} {w : World} {v : UInt32}

theorem torn (h : Hardware) (hd : During w (c.write env v w) h) : c.Torn v w.hw.eeprom h.eeprom := by
  rw [write_eq] at hd
  refine (during_put_iff (Q := fun m => c.Torn v w.hw.eeprom m)).mpr (fun j hj => ?_) h hd
  exact ⟨j, hj, c.read_put _ hj v, fun a ha => c.accessor_read_put _ hj _ ha⟩

theorem atomic_iff : (∀ h, During w (c.write env v w) h →
      Same h.eeprom w.hw.eeprom ∨ Same h.eeprom (c.write env v w).hw.eeprom) ↔
    OneByte (c.read w.hw.eeprom) v := by
  rw [write_eq, put_eeprom, during_put_iff (Q := fun m => Same m w.hw.eeprom ∨
    Same m (Bytes.put Bytes.store c.field.addr 4 v.toNat w.hw.eeprom)), ← tear_eq_iff_oneByte]
  refine forall₂_congr fun j hj => ?_
  have hbefore := c.same_iff fun a ha => c.accessor_read_put w.hw.eeprom hj v.toNat ha
  have hafter := c.same_iff (m := Bytes.put Bytes.store c.field.addr 4 v.toNat w.hw.eeprom) fun a ha =>
    (c.accessor_read_put w.hw.eeprom hj v.toNat ha).trans
      (c.accessor_read_put w.hw.eeprom (Nat.le_refl 4) v.toNat ha).symm
  rw [hbefore, hafter, c.read_put _ hj, c.read_put _ (Nat.le_refl 4), tear_four]

end Counter

/-! ## 起動の記録への追加 -/

/-- `addEntry` が書く場所。 -/
def logIndex (m : Nat → UInt8) (d : Port) : Fin 8 :=
  ⟨((BootLog.getStart m d).toNat + (BootLog.getCount m d).toNat) % 8, Nat.mod_lt _ (by decide)⟩

/-- 新しい項目の `j` バイトを書いた記憶。 -/
def logPut (m : Nat → UInt8) (d : Port) (t : UInt32) (j : Nat) : Nat → UInt8 :=
  Bytes.put Bytes.store (BootLog.slot d (logIndex m d)) j t.toNat m

/-- 空きのない記録に `addEntry` を終えた記憶。 -/
def logFull (m : Nat → UInt8) (d : Port) (t : UInt32) : Nat → UInt8 :=
  Bytes.store (BootLog.address d + 0) (BootLog.getStart m d + 1) (logPut m d t 4)

section AddEntry

variable {m : Nat → UInt8} {d : Port} {t : UInt32} {j : Nat}

theorem getEntry_of_le {i : UInt8} (h : BootLog.getCount m d ≤ i) : BootLog.getEntry m d i = 0 := if_pos h

theorem agreeOff_logPut (hj : j ≤ 4) : AgreeOff (.device d (.logEntry (logIndex m d))) (logPut m d t j) m := by
  rw [logPut, slot_eq]
  exact AgreeOff.put hj t.toNat m

theorem getStart_logPut (hj : j ≤ 4) (e : Port) : BootLog.getStart (logPut m d t j) e = BootLog.getStart m e :=
  (agreeOff_logPut hj).read_eq (g := .device e .logStart) (by simp)

theorem getCount_logPut (hj : j ≤ 4) (e : Port) : BootLog.getCount (logPut m d t j) e = BootLog.getCount m e :=
  (agreeOff_logPut hj).read_eq (g := .device e .logCount) (by simp)

theorem accessor_read_logPut (hj : j ≤ 4) {a : Accessor} (ha : ∀ i, a ≠ .getEntry d i) :
    a.read (logPut m d t j) = a.read m := by
  have h := agreeOff_logPut (m := m) (d := d) (t := t) hj
  cases a with
  | initialized => exact h.initialized_eq (by simp)
  | field f hf =>
      refine h.read_eq fun he => ?_
      subst he
      cases hf
  | getEntry e i =>
      have hne : e ≠ d := fun he => ha i (by rw [he])
      exact h.getEntry_eq (by simp) (by simp) (by simp [hne]) i

theorem getEntry_logPut_of_ne (hj : j ≤ 4) {i : UInt8}
    (hi : BootLog.getCount m d ≤ i ∨ ((BootLog.getStart m d).toNat + i.toNat) % 8 ≠ (logIndex m d).val) :
    BootLog.getEntry (logPut m d t j) d i = BootLog.getEntry m d i := by
  simp only [BootLog.getEntry, getStart_logPut hj, getCount_logPut hj, BootLog.capacity]
  split
  · rfl
  · rename_i hle
    have hne := hi.resolve_left hle
    have hlt : ((BootLog.getStart m d).toNat + i.toNat) % 8 < 8 := Nat.mod_lt _ (by decide)
    refine (agreeOff_logPut hj).read_eq (g := .device d (.logEntry ⟨_, hlt⟩)) fun he => ?_
    simp only [Field.device.injEq, DeviceField.logEntry.injEq, true_and] at he
    exact hne (congrArg Fin.val he)

/-- 空きがあれば、書きかけの項目は見えない。 -/
theorem same_logPut_of_lt (hj : j ≤ 4) (hc : BootLog.getCount m d < 8) : Same (logPut m d t j) m := by
  intro a
  by_cases ha : ∃ i, a = .getEntry d i
  · obtain ⟨i, rfl⟩ := ha
    refine getEntry_logPut_of_ne hj ?_
    by_cases hle : BootLog.getCount m d ≤ i
    · exact Or.inl hle
    · refine Or.inr ?_
      have hc' : (BootLog.getCount m d).toNat < 8 := UInt8.lt_iff_toNat_lt.mp hc
      have hi : i.toNat < (BootLog.getCount m d).toNat := by
        simpa [UInt8.le_iff_toNat_le] using hle
      simp only [logIndex]
      omega
  · push Not at ha
    exact accessor_read_logPut hj ha

section Full

variable (hfull : BootLog.getCount m d = 8)
include hfull

theorem logIndex_of_full : (logIndex m d).val = (BootLog.getStart m d).toNat % 8 := by
  simp [logIndex, hfull]

theorem getEntry_logPut_zero (hj : j ≤ 4) :
    BootLog.getEntry (logPut m d t j) d 0 = tear j t (BootLog.getEntry m d 0) := by
  have hle : ¬ (8 : UInt8) ≤ 0 := by decide
  have hslot : BootLog.slot d (((BootLog.getStart m d).toNat + (0 : UInt8).toNat) % 8) =
      BootLog.slot d (logIndex m d) := by
    rw [logIndex_of_full hfull]
    simp
  simp only [BootLog.getEntry, getStart_logPut hj, getCount_logPut hj, hfull, BootLog.capacity, if_neg hle, hslot]
  exact getWord_put m _ hj t

theorem getEntry_logPut_succ (hj : j ≤ 4) {i : UInt8} (hi : i ≠ 0) :
    BootLog.getEntry (logPut m d t j) d i = BootLog.getEntry m d i := by
  refine getEntry_logPut_of_ne hj ?_
  by_cases hle : BootLog.getCount m d ≤ i
  · exact Or.inl hle
  · refine Or.inr ?_
    have hlt : i.toNat < 8 := by
      rw [hfull] at hle
      simpa [UInt8.le_iff_toNat_le] using hle
    have hpos : i.toNat ≠ 0 := fun h0 => hi (UInt8.toNat_inj.mp h0)
    rw [logIndex_of_full hfull]
    omega

omit hfull in
theorem agreeOff_logFull : AgreeOff (.device d .logStart) (logFull m d t) (logPut m d t 4) := by
  intro a ha
  refine Bytes.store_of_ne (fun he => ha ?_) _ _
  rw [he]
  exact ⟨Nat.le_refl _, Nat.lt_succ_self _⟩

omit hfull in
theorem accessor_read_logFull {a : Accessor} (ha : ∀ i, a ≠ .getEntry d i) :
    a.read (logFull m d t) = a.read (logPut m d t 4) := by
  cases a with
  | initialized => exact agreeOff_logFull.initialized_eq (by simp)
  | field f hf =>
      refine agreeOff_logFull.read_eq fun he => ?_
      subst he
      cases hf
  | getEntry e i =>
      have hne : e ≠ d := fun he => ha i (by rw [he])
      exact agreeOff_logFull.getEntry_eq (by simp [hne]) (by simp) (by simp) i

theorem getCount_logFull : BootLog.getCount (logFull m d t) d = 8 :=
  (agreeOff_logFull.read_eq (g := .device d .logCount) (by simp)).trans
    ((getCount_logPut (Nat.le_refl 4) d).trans hfull)

/-- 先頭が一つ進むので、項目は一つずつ前に詰まる。 -/
theorem getEntry_logFull {i : UInt8} (i' : UInt8) (hi : i < 8)
    (hi' : (i.toNat + 1) % 8 = i'.toNat) :
    BootLog.getEntry (logFull m d t) d i = BootLog.getEntry (logPut m d t 4) d i' := by
  have hlt : i.toNat < 8 := UInt8.lt_iff_toNat_lt.mp hi
  have hstart : BootLog.getStart (logFull m d t) d = BootLog.getStart m d + 1 := Bytes.store_self _ _ _
  have hle : ¬ (8 : UInt8) ≤ i := by simpa [UInt8.le_iff_toNat_le] using hlt
  have hle' : ¬ (8 : UInt8) ≤ i' := by
    simp only [UInt8.le_iff_toNat_le, UInt8.reduceToNat]
    omega
  -- 先頭の位置は 256 で一周するが、256 は 8 の倍数である
  have hindex : ((BootLog.getStart m d + 1).toNat + i.toNat) % 8 = ((BootLog.getStart m d).toNat + i'.toNat) % 8 := by
    rw [UInt8.toNat_add, UInt8.toNat_one]
    omega
  have hbound : ((BootLog.getStart m d).toNat + i'.toNat) % 8 < 8 := Nat.mod_lt _ (by decide)
  simp only [BootLog.getEntry, getStart_logPut (Nat.le_refl 4), getCount_logPut (Nat.le_refl 4), hfull, hstart,
    getCount_logFull hfull, BootLog.capacity, if_neg hle, if_neg hle', hindex]
  exact agreeOff_logFull.read_eq (g := .device d (.logEntry ⟨_, hbound⟩)) (by simp)

omit hfull in
theorem toNat_entry {n : Nat} (h : n < 8) : (UInt8.ofNat n).toNat = n := by
  rw [UInt8.toNat_ofNat']
  omega

omit hfull in
theorem entry_succ_ne_zero {n : Nat} (h : n < 7) : UInt8.ofNat (n + 1) ≠ 0 := by
  intro h0
  have hn := congrArg UInt8.toNat h0
  rw [toNat_entry (by omega), UInt8.toNat_zero] at hn
  omega

theorem same_logPut_iff (hj : j ≤ 4) :
    Same (logPut m d t j) m ↔ tear j t (BootLog.getEntry m d 0) = BootLog.getEntry m d 0 := by
  rw [← getEntry_logPut_zero hfull hj]
  constructor
  · exact fun h => h (.getEntry d 0)
  · intro h a
    by_cases ha : ∃ i, a = .getEntry d i
    · obtain ⟨i, rfl⟩ := ha
      by_cases hi : i = 0
      · subst hi
        exact h
      · exact getEntry_logPut_succ hfull hj hi
    · push Not at ha
      exact accessor_read_logPut hj ha

/-- 新しい項目を書き終えて先頭を進める前の見え方が、後の見え方に等しいのは、ほかの項目がすべて新しい項目に等しい
ときに限る。 -/
theorem getEntry_eq_of_same (hs : Same (logPut m d t 4) (logFull m d t)) {n : Nat} (hn : n < 7) :
    BootLog.getEntry m d (UInt8.ofNat (n + 1)) = t := by
  have hentry : ∀ n < 7, BootLog.getEntry (logPut m d t 4) d (UInt8.ofNat n) =
      BootLog.getEntry m d (UInt8.ofNat (n + 1)) := by
    intro n hn
    rw [← getEntry_logPut_succ hfull (Nat.le_refl 4) (entry_succ_ne_zero hn)]
    refine (hs (.getEntry d (UInt8.ofNat n))).trans (getEntry_logFull hfull _ ?_ ?_)
    · rw [UInt8.lt_iff_toNat_lt, toNat_entry (by omega)]
      exact Nat.lt_of_lt_of_le hn (by decide)
    · rw [toNat_entry (by omega), toNat_entry (by omega)]
      omega
  induction n with
  | zero =>
      have hzero := getEntry_logPut_zero (t := t) hfull (Nat.le_refl 4)
      rw [tear_four] at hzero
      exact (hentry 0 hn).symm.trans hzero
  | succ n ih =>
      rw [← hentry (n + 1) hn, getEntry_logPut_succ hfull (Nat.le_refl 4) (entry_succ_ne_zero (by omega)),
        ih (by omega)]

/-- すべての項目が新しい項目に等しければ、詰めても見え方は変わらない。 -/
theorem same_logFull_of_entries (hj : j ≤ 4) (htear : tear j t (BootLog.getEntry m d 0) = t)
    (hentries : ∀ i, 1 ≤ i → i < 8 → BootLog.getEntry m d i = t) : Same (logPut m d t j) (logFull m d t) := by
  have hput : ∀ {j}, j ≤ 4 → tear j t (BootLog.getEntry m d 0) = t → ∀ i < 8,
      BootLog.getEntry (logPut m d t j) d i = t := by
    intro j hj htear i hi
    by_cases h0 : i = 0
    · rw [h0, getEntry_logPut_zero hfull hj, htear]
    · rw [getEntry_logPut_succ hfull hj h0]
      refine hentries i (UInt8.le_iff_toNat_le.mpr ?_) hi
      exact Nat.one_le_iff_ne_zero.mpr fun hz => h0 (UInt8.toNat_inj.mp hz)
  intro a
  by_cases ha : ∃ i, a = .getEntry d i
  · obtain ⟨i, rfl⟩ := ha
    by_cases hi : i < 8
    · have hnext : (UInt8.ofNat ((i.toNat + 1) % 8)).toNat = (i.toNat + 1) % 8 :=
        toNat_entry (Nat.mod_lt _ (by decide))
      refine (hput hj htear i hi).trans ((getEntry_logFull hfull _ hi hnext.symm).trans ?_).symm
      refine hput (Nat.le_refl 4) (tear_four _ _) _ (UInt8.lt_iff_toNat_lt.mpr ?_)
      rw [hnext]
      exact Nat.mod_lt _ (by decide)
    · have hle : (8 : UInt8) ≤ i := UInt8.not_lt.mp hi
      have hcount : BootLog.getCount (logPut m d t j) d = 8 := (getCount_logPut hj d).trans hfull
      exact (getEntry_of_le (hcount ▸ hle)).trans (getEntry_of_le ((getCount_logFull hfull (t := t)).symm ▸ hle)).symm
  · push Not at ha
    exact (accessor_read_logPut hj ha).trans
      ((accessor_read_logFull ha).trans (accessor_read_logPut (Nat.le_refl 4) ha)).symm

/-- 空きのない記録への追加が、どこで途切れても前か後に見えるための条件。 -/
theorem atomic_full_iff :
    (∀ j ≤ 4, Same (logPut m d t j) m ∨ Same (logPut m d t j) (logFull m d t)) ↔
      t = BootLog.getEntry m d 0 ∨
        (OneByte (BootLog.getEntry m d 0) t ∧ ∀ i, 1 ≤ i → i < 8 → BootLog.getEntry m d i = t) := by
  have hall : (∀ n < 7, BootLog.getEntry m d (UInt8.ofNat (n + 1)) = t) ↔
      ∀ i, 1 ≤ i → i < 8 → BootLog.getEntry m d i = t := by
    constructor
    · intro h i h₁ h₂
      have h₁' : 1 ≤ i.toNat := UInt8.le_iff_toNat_le.mp h₁
      have h₂' : i.toNat < 8 := UInt8.lt_iff_toNat_lt.mp h₂
      have hi := h (i.toNat - 1) (by omega)
      rwa [Nat.sub_add_cancel h₁', UInt8.ofNat_toNat] at hi
    · intro h n hn
      refine h _ (UInt8.le_iff_toNat_le.mpr ?_) (UInt8.lt_iff_toNat_lt.mpr ?_)
      · rw [toNat_entry (by omega)]
        exact Nat.le_add_left 1 n
      · rw [toNat_entry (by omega)]
        exact Nat.succ_lt_succ hn
  constructor
  · intro h
    rcases h 4 (Nat.le_refl 4) with hs | hs
    · rw [same_logPut_iff hfull (Nat.le_refl 4), tear_four] at hs
      exact Or.inl hs
    · have hentries := hall.mp fun n hn => getEntry_eq_of_same hfull hs hn
      refine Or.inr ⟨(tear_eq_iff_oneByte _ _).mp fun j hj => ?_, hentries⟩
      rcases h j hj with hs | hs
      · exact Or.inl ((same_logPut_iff hfull hj).mp hs)
      · have h0 := hs (.getEntry d 0)
        rw [Accessor.read, Accessor.read, getEntry_logPut_zero hfull hj,
          getEntry_logFull hfull 1 (by decide) rfl, getEntry_logPut_succ hfull (Nat.le_refl 4) (by decide)] at h0
        exact Or.inr (h0.trans (hentries 1 (by decide) (by decide)))
  · rintro (ht | ⟨hone, hentries⟩) j hj
    · rw [same_logPut_iff hfull hj, ← ht]
      exact Or.inl (tear_self j hj t)
    · rw [same_logPut_iff hfull hj]
      refine ((tear_eq_iff_oneByte _ _).mpr hone j hj).imp_right fun htear => ?_
      exact same_logFull_of_entries hfull hj htear hentries

end Full

end AddEntry

/-- `addEntry` は、項目を書いてから、先頭の位置か数を一バイトで書く。 -/
theorem during_addEntry_iff {env : Env} {w : World} {d : Port} {t : UInt32} {Q : (Nat → UInt8) → Prop} :
    (∀ h, During w (BootLog.addEntry env d t w) h → Q h.eeprom) ↔
      (∀ j ≤ 4, Q (logPut w.hw.eeprom d t j)) ∧ Q (BootLog.addEntry env d t w).hw.eeprom := by
  have hput : Trail (fun _ => True) w (EEPROM.put env (BootLog.slot d (logIndex w.hw.eeprom d)) 4 t.toNat w) :=
    (still_put (fun _ _ _ _ => trivial) _).trail
  obtain ⟨a, v, heq⟩ : ∃ a v, BootLog.addEntry env d t w =
      EEPROM.write env a v (EEPROM.put env (BootLog.slot d (logIndex w.hw.eeprom d)) 4 t.toNat w) := by
    simp only [BootLog.addEntry]
    split
    · exact ⟨_, _, rfl⟩
    · exact ⟨_, _, rfl⟩
  rw [heq]
  have hwrite : Trail (fun _ => True) (EEPROM.put env (BootLog.slot d (logIndex w.hw.eeprom d)) 4 t.toNat w)
      (EEPROM.write env a v (EEPROM.put env (BootLog.slot d (logIndex w.hw.eeprom d)) 4 t.toNat w)) :=
    (still_write trivial).trail
  constructor
  · intro h
    refine ⟨during_put_iff.mp fun s hs => h s ((During.trans_iff hput hwrite).mpr (Or.inl hs)), ?_⟩
    exact h _ ((During.trans_iff hput hwrite).mpr (Or.inr (During.stop hwrite)))
  · rintro ⟨hcut, hdone⟩ s hs
    rcases (During.trans_iff hput hwrite).mp hs with hs | hs
    · exact during_put_iff.mpr hcut s hs
    · rcases (During.emit_iff _ _).mp hs with rfl | rfl
      · rw [put_eeprom]
        exact hcut 4 (Nat.le_refl 4)
      · exact hdone

theorem addEntry_of_full {env : Env} {w : World} {d : Port} {t : UInt32}
    (h : BootLog.getCount w.hw.eeprom d = 8) :
    (BootLog.addEntry env d t w).hw.eeprom = logFull w.hw.eeprom d t := by
  have hc : (BootLog.getCount w.hw.eeprom d).toNat = BootLog.capacity := by rw [h]; rfl
  simp only [BootLog.addEntry, if_pos hc]
  have hput : (EEPROM.put env (BootLog.slot d (logIndex w.hw.eeprom d)) 4 t.toNat w).hw.eeprom = _ :=
    put_eeprom (BootLog.slot d (logIndex w.hw.eeprom d)) 4 t.toNat
  exact congrArg (Bytes.store (BootLog.address d + 0) (BootLog.getStart w.hw.eeprom d + 1)) hput

/-! ## 更新の一覧 -/

/-- 記録を更新する関数。 -/
inductive Update
  | incrementBootCount
  | incrementBootAttempts (d : Port)
  | incrementBootFailures (d : Port)
  | setLastBootTime (t : UInt32)
  | addEntry (d : Port) (t : UInt32)

namespace Update

def perform (env : Env) (w : World) : Update → World
  | .incrementBootCount => Record.incrementBootCount env w
  | .incrementBootAttempts d => Record.incrementBootAttempts env d w
  | .incrementBootFailures d => Record.incrementBootFailures env d w
  | .setLastBootTime t => Record.setLastBootTime env t w
  | .addEntry d t => BootLog.addEntry env d t w

/-- 途切れても前か後に見える更新。桁上がりのない加算、一つのバイトだけが変わる時刻、空きのある記録への追加のほかは、
値が偶然に一致するときだけである。 -/
def Untorn (m : Nat → UInt8) : Update → Prop
  | .incrementBootCount => getBootCount m % 256 ≠ 255
  | .incrementBootAttempts d => getBootAttempts m d % 256 ≠ 255
  | .incrementBootFailures d => getBootFailures m d % 256 ≠ 255
  | .setLastBootTime t => OneByte (getLastBootTime m) t
  | .addEntry d t => BootLog.getCount m d < 8 ∨ t = BootLog.getEntry m d 0 ∨
      (OneByte (BootLog.getEntry m d 0) t ∧ ∀ i, 1 ≤ i → i < 8 → BootLog.getEntry m d i = t)

/-- 更新の途中の見え方。書きかけの数は下位の何バイトかが新しく、ほかのどの関数も前と同じ値を返す。 -/
def Torn (env : Env) (w : World) (m : Nat → UInt8) : Update → Prop
  | .incrementBootCount => Counter.Torn .bootCount (getBootCount w.hw.eeprom + 1) w.hw.eeprom m
  | .incrementBootAttempts d => Counter.Torn (.bootAttempts d) (getBootAttempts w.hw.eeprom d + 1) w.hw.eeprom m
  | .incrementBootFailures d => Counter.Torn (.bootFailures d) (getBootFailures w.hw.eeprom d + 1) w.hw.eeprom m
  | .setLastBootTime t => Counter.Torn .lastBootTime t w.hw.eeprom m
  | .addEntry d t => Same m w.hw.eeprom ∨ Same m (BootLog.addEntry env d t w).hw.eeprom ∨
      (BootLog.getCount w.hw.eeprom d = 8 ∧ ∃ j ≤ 4,
        BootLog.getEntry m d 0 = tear j t (BootLog.getEntry w.hw.eeprom d 0) ∧
        ∀ a : Accessor, a ≠ .getEntry d 0 → a.read m = a.read w.hw.eeprom)

end Update

section AddEntry

variable {env : Env} {w : World} {d : Port} {t : UInt32} (hle : BootLog.getCount w.hw.eeprom d ≤ 8)
include hle

theorem addEntry_atomic_iff : (∀ h, During w (BootLog.addEntry env d t w) h →
      Same h.eeprom w.hw.eeprom ∨ Same h.eeprom (BootLog.addEntry env d t w).hw.eeprom) ↔
    (Update.addEntry d t).Untorn w.hw.eeprom := by
  have hafter : Same (BootLog.addEntry env d t w).hw.eeprom (BootLog.addEntry env d t w).hw.eeprom := fun _ => rfl
  rw [during_addEntry_iff (Q := fun m => Same m w.hw.eeprom ∨ Same m (BootLog.addEntry env d t w).hw.eeprom)]
  by_cases hfull : BootLog.getCount w.hw.eeprom d = 8
  · have hlt : ¬ BootLog.getCount w.hw.eeprom d < 8 := by rw [hfull]; decide
    simp only [hafter, or_true, and_true, Update.Untorn, hlt, false_or]
    rw [addEntry_of_full hfull]
    exact atomic_full_iff hfull
  · have hlt : BootLog.getCount w.hw.eeprom d < 8 := UInt8.lt_of_le_of_ne hle hfull
    exact ⟨fun _ => Or.inl hlt, fun _ => ⟨fun j hj => Or.inl (same_logPut_of_lt hj hlt), Or.inr hafter⟩⟩

theorem addEntry_torn (h : Hardware) (hd : During w (BootLog.addEntry env d t w) h) :
    (Update.addEntry d t).Torn env w h.eeprom := by
  refine (during_addEntry_iff (Q := fun m => (Update.addEntry d t).Torn env w m)).mpr
    ⟨fun j hj => ?_, Or.inr (Or.inl fun _ => rfl)⟩ h hd
  by_cases hfull : BootLog.getCount w.hw.eeprom d = 8
  · refine Or.inr (Or.inr ⟨hfull, j, hj, getEntry_logPut_zero hfull hj, fun a ha => ?_⟩)
    by_cases hentry : ∃ i, a = .getEntry d i
    · obtain ⟨i, rfl⟩ := hentry
      exact getEntry_logPut_succ hfull hj fun h0 => ha (by rw [h0])
    · push Not at hentry
      exact accessor_read_logPut hj hentry
  · exact Or.inl (same_logPut_of_lt hj (UInt8.lt_of_le_of_ne hle hfull))

end AddEntry

/-- 更新がどこで途切れても前か後に見えるのは `Untorn` のときに限り、そうでなくても `Torn` の見え方に限る。 -/
theorem updates_torn (env : Env) (w : World) (u : Update) (hwf : ∀ d, BootLog.getCount w.hw.eeprom d ≤ 8) :
    ((∀ h, During w (u.perform env w) h →
        Same h.eeprom w.hw.eeprom ∨ Same h.eeprom (u.perform env w).hw.eeprom) ↔ u.Untorn w.hw.eeprom) ∧
    ∀ h, During w (u.perform env w) h → u.Torn env w h.eeprom := by
  cases u with
  | incrementBootCount =>
      exact ⟨(Counter.atomic_iff .bootCount).trans (oneByte_succ_iff _), Counter.torn .bootCount⟩
  | incrementBootAttempts d =>
      exact ⟨(Counter.atomic_iff (.bootAttempts d)).trans (oneByte_succ_iff _), Counter.torn (.bootAttempts d)⟩
  | incrementBootFailures d =>
      exact ⟨(Counter.atomic_iff (.bootFailures d)).trans (oneByte_succ_iff _), Counter.torn (.bootFailures d)⟩
  | setLastBootTime t => exact ⟨Counter.atomic_iff .lastBootTime, Counter.torn .lastBootTime⟩
  | addEntry d t => exact ⟨addEntry_atomic_iff (hwf d), addEntry_torn (hwf d)⟩

/-- 起動の回数が 255 で、次の加算で桁が上がる装置。 -/
def carrying : Hardware := { Hardware.ready with eeprom := Bytes.store bootCount 255 Hardware.ready.eeprom }

/-- 起動の回数を 255 から 256 にする途中、下位の一バイトを書いて電源が切れると、回数は 0 に見える。 -/
theorem boot_count_torn : ∃ h, During (powerOn carrying) (incrementBootCount Env.ideal (powerOn carrying)) h ∧
    (∀ d, BootLog.getCount carrying.eeprom d ≤ 8) ∧ getBootCount carrying.eeprom = 255 ∧ getBootCount h.eeprom = 0 ∧
    getBootCount (incrementBootCount Env.ideal (powerOn carrying)).hw.eeprom = 256 ∧
    ¬ (Same h.eeprom carrying.eeprom ∨ Same h.eeprom (incrementBootCount Env.ideal (powerOn carrying)).hw.eeprom) := by
  have hd : During (powerOn carrying) (incrementBootCount Env.ideal (powerOn carrying))
      (replay carrying ((incrementBootCount Env.ideal (powerOn carrying)).log.drop 3)) :=
    ⟨_, _, (List.append_nil _).symm, List.drop_suffix 3 _, rfl⟩
  have hcut :
      getBootCount (replay carrying ((incrementBootCount Env.ideal (powerOn carrying)).log.drop 3)).eeprom = 0 := by
    decide +kernel
  have hbefore : getBootCount carrying.eeprom = 255 := by decide +kernel
  have hafter : getBootCount (incrementBootCount Env.ideal (powerOn carrying)).hw.eeprom = 256 := by decide +kernel
  refine ⟨_, hd, by decide +kernel, hbefore, hcut, hafter, ?_⟩
  have hread : ∀ m m', Same m m' → getBootCount m = getBootCount m' :=
    fun _ _ hs => hs (.field (.header .bootCount) rfl)
  rintro (hs | hs)
  · exact absurd (hcut.symm.trans ((hread _ _ hs).trans hbefore)) (by decide)
  · exact absurd (hcut.symm.trans ((hread _ _ hs).trans hafter)) (by decide)

/-- 桁上がりのない加算と、空きのある記録への追加は、途切れても前か後に見える。 -/
theorem updates_torn_ready :
    (∀ h, During (powerOn Hardware.ready) (incrementBootCount Env.ideal (powerOn Hardware.ready)) h →
      Same h.eeprom Hardware.ready.eeprom ∨
        Same h.eeprom (incrementBootCount Env.ideal (powerOn Hardware.ready)).hw.eeprom) ∧
    (∀ h, During (powerOn Hardware.ready) (BootLog.addEntry Env.ideal 1 0x12345678 (powerOn Hardware.ready)) h →
      Same h.eeprom Hardware.ready.eeprom ∨
        Same h.eeprom (BootLog.addEntry Env.ideal 1 0x12345678 (powerOn Hardware.ready)).hw.eeprom) := by
  have hwf : ∀ d, BootLog.getCount Hardware.ready.eeprom d ≤ 8 := by decide +kernel
  refine ⟨(updates_torn Env.ideal (powerOn Hardware.ready) .incrementBootCount hwf).1.mpr ?_,
    (updates_torn Env.ideal (powerOn Hardware.ready) (.addEntry 1 0x12345678) hwf).1.mpr (Or.inl ?_)⟩
  · show getBootCount Hardware.ready.eeprom % 256 ≠ 255
    decide +kernel
  · show BootLog.getCount Hardware.ready.eeprom 1 < 8
    decide +kernel

end Wagman.V4.Record
