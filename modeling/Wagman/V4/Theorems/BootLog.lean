import Wagman.Lib.Ring
import Wagman.V4.Theorems.Torn

/-!
# 起動の記録の正確さ

各機器の起動の記録は、8 個の場所を巡って使う。先頭の位置は一バイトに置かれ、8 で割らずに増やされるが、256 は 8 の倍数なので、
何周しても場所は食い違わない。
-/

namespace Wagman.V4

open Machine Record

variable {env : Env} {d : Port} {ts : List UInt32} {m : Nat → UInt8} {w : World}

/-- 順に `addEntry` を呼ぶ。 -/
def addEntries (env : Env) (d : Port) (ts : List UInt32) (w : World) : World :=
  ts.foldl (fun w t => BootLog.addEntry env d t w) w

/-- 記録 `d` の 8 個の場所。 -/
def logCells (m : Nat → UInt8) (d : Port) (k : Nat) : UInt32 := getWord m (BootLog.slot d k)

/-- 記録 `d` には、順に加えた時刻 `ts` のうち、最後の 8 個までがある。 -/
structure Records (d : Port) (ts : List UInt32) (m : Nat → UInt8) : Prop where
  count : (BootLog.getCount m d).toNat = min ts.length 8
  start : (BootLog.getStart m d).toNat % 8 = (ts.length - 8) % 8
  cells : Ring.Holds 8 (logCells m d) ts

/-! ## 一回の追加 -/

theorem addEntry_eq (env : Env) (d : Port) (t : UInt32) (w : World) : BootLog.addEntry env d t w =
    if (BootLog.getCount w.hw.eeprom d).toNat = 8 then
      (Field.device d .logStart).write env (BootLog.getStart w.hw.eeprom d + 1)
        ((Field.device d (.logEntry (logIndex w.hw.eeprom d))).write env t w)
    else
      (Field.device d .logCount).write env (BootLog.getCount w.hw.eeprom d + 1)
        ((Field.device d (.logEntry (logIndex w.hw.eeprom d))).write env t w) := rfl

/-- 空きがなければ先頭の位置だけが進み、空きがあれば個数だけが増える。 -/
theorem getStart_addEntry (t : UInt32) : BootLog.getStart (BootLog.addEntry env d t w).hw.eeprom d =
    if (BootLog.getCount w.hw.eeprom d).toNat = 8 then BootLog.getStart w.hw.eeprom d + 1
    else BootLog.getStart w.hw.eeprom d := by
  rw [addEntry_eq]
  split
  · exact Field.read_write_self env (.device d .logStart) _ _
  · exact (Field.read_write_ne env (f := .device d .logCount) (g := .device d .logStart) (by simp) _ _).trans
      (Field.read_write_ne env (f := .device d (.logEntry _)) (g := .device d .logStart) (by simp) t w)

theorem getCount_addEntry (t : UInt32) : BootLog.getCount (BootLog.addEntry env d t w).hw.eeprom d =
    if (BootLog.getCount w.hw.eeprom d).toNat = 8 then BootLog.getCount w.hw.eeprom d
    else BootLog.getCount w.hw.eeprom d + 1 := by
  rw [addEntry_eq]
  split
  · exact (Field.read_write_ne env (f := .device d .logStart) (g := .device d .logCount) (by simp) _ _).trans
      (Field.read_write_ne env (f := .device d (.logEntry _)) (g := .device d .logCount) (by simp) t w)
  · exact Field.read_write_self env (.device d .logCount) _ _

/-- 新しい項目の場所だけが書き換わる。 -/
theorem logCells_addEntry (t : UInt32) (k : Fin 8) : logCells (BootLog.addEntry env d t w).hw.eeprom d k =
    if k = logIndex w.hw.eeprom d then t else logCells w.hw.eeprom d k := by
  have hentry : logCells (BootLog.addEntry env d t w).hw.eeprom d k =
      logCells ((Field.device d (.logEntry (logIndex w.hw.eeprom d))).write env t w).hw.eeprom d k := by
    rw [addEntry_eq]
    split
    · exact Field.read_write_ne env (f := .device d .logStart) (g := .device d (.logEntry k)) (by simp) _ _
    · exact Field.read_write_ne env (f := .device d .logCount) (g := .device d (.logEntry k)) (by simp) _ _
  rw [hentry]
  split
  · rename_i he
    rw [he]
    exact Field.read_write_self env (.device d (.logEntry (logIndex w.hw.eeprom d))) t w
  · rename_i hne
    exact Field.read_write_ne env (f := .device d (.logEntry _)) (g := .device d (.logEntry k)) (by simpa using hne) t w

namespace Records

theorem init (env : Env) (d : Port) (w : World) : Records d [] (BootLog.init env d w).hw.eeprom := by
  have hstart : BootLog.getStart (BootLog.init env d w).hw.eeprom d = 0 :=
    (Field.read_write_ne env (f := .device d .logCount) (g := .device d .logStart) (by simp) 0 _).trans
      (Field.read_write_self env (.device d .logStart) 0 w)
  have hcount : BootLog.getCount (BootLog.init env d w).hw.eeprom d = 0 :=
    Field.read_write_self env (.device d .logCount) 0 _
  exact ⟨by rw [hcount]; rfl, by rw [hstart]; rfl, .nil⟩

/-- 次に書く場所は、これまでの個数で決まる。 -/
theorem logIndex_eq (h : Records d ts m) : (logIndex m d).val = ts.length % 8 := by
  have hs := h.start
  have hc := h.count
  simp only [logIndex]
  omega

theorem addEntry (env : Env) (h : Records d ts w.hw.eeprom) (t : UInt32) :
    Records d (ts ++ [t]) (BootLog.addEntry env d t w).hw.eeprom := by
  have hs := h.start
  have hc := h.count
  have hlen : (ts ++ [t]).length = ts.length + 1 := by simp
  refine ⟨?_, ?_, h.cells.push t ?_ fun k hk hne => ?_⟩
  · rw [getCount_addEntry, hlen]
    split
    · omega
    · rw [UInt8.toNat_add, UInt8.toNat_one]
      omega
  · -- 先頭の位置は 256 で一周するが、256 は 8 の倍数である
    rw [getStart_addEntry, hlen]
    split
    · rw [UInt8.toNat_add, UInt8.toNat_one]
      omega
    · omega
  · rw [← h.logIndex_eq, logCells_addEntry, if_pos rfl]
  · have hne' : (⟨k, hk⟩ : Fin 8) ≠ logIndex w.hw.eeprom d := fun he =>
      hne ((congrArg Fin.val he).trans h.logIndex_eq)
    exact (logCells_addEntry t ⟨k, hk⟩).trans (if_neg hne')

theorem addEntries (env : Env) (h : Records d ts w.hw.eeprom) (ts' : List UInt32) :
    Records d (ts ++ ts') (addEntries env d ts' w).hw.eeprom := by
  induction ts' generalizing ts w with
  | nil => simpa [V4.addEntries] using h
  | cons t ts' ih =>
      have hrest := ih (h.addEntry env t)
      rwa [List.append_assoc] at hrest

/-- 個数までの項目は、最後の 8 個までの時刻を古い順に並べたものである。 -/
theorem getEntry (h : Records d ts m) {i : UInt8} (hi : i.toNat < (Ring.latest 8 ts).length) :
    BootLog.getEntry m d i = (Ring.latest 8 ts)[i.toNat] := by
  have hs := h.start
  have hlen := Ring.length_latest 8 ts
  have hlt : ¬ BootLog.getCount m d ≤ i := by
    rw [UInt8.le_iff_toNat_le, h.count]
    omega
  have hindex : ((BootLog.getStart m d).toNat + i.toNat) % 8 = (ts.length - 8 + i.toNat) % 8 := by omega
  rw [BootLog.getEntry, if_neg hlt, BootLog.capacity, hindex]
  exact h.cells.get hi

end Records

/-! ## 記録の正確さ -/

/-- 初期化した後の任意の回数の `addEntry` の後、記録は最後の 8 個までの時刻を古い順に持ち、個数の外の項目は 0 である。
書き込みはその記録の 34 バイトの中だけに起きる。 -/
theorem boot_log_exact (env : Env) (d : Port) (ts : List UInt32) (w : World) :
    (BootLog.getCount (addEntries env d ts (BootLog.init env d w)).hw.eeprom d).toNat = min ts.length 8 ∧
    (∀ (i : UInt8) (h : i.toNat < (Ring.latest 8 ts).length),
      BootLog.getEntry (addEntries env d ts (BootLog.init env d w)).hw.eeprom d i = (Ring.latest 8 ts)[i.toNat]) ∧
    (∀ i : UInt8, min ts.length 8 ≤ i.toNat →
      BootLog.getEntry (addEntries env d ts (BootLog.init env d w)).hw.eeprom d i = 0) ∧
    (∀ t, Still (fun e => ∃ a v, e = .eeprom a v ∧ BootLog.address d ≤ a ∧ a < BootLog.address d + 34)
      (addEntries env d ts (BootLog.init env d w))
      (BootLog.addEntry env d t (addEntries env d ts (BootLog.init env d w)))) := by
  have h : Records d ts (addEntries env d ts (BootLog.init env d w)).hw.eeprom :=
    (Records.init env d w).addEntries env ts
  refine ⟨h.count, fun i hi => h.getEntry hi, fun i hi => getEntry_of_le ?_, fun t => ?_⟩
  · rw [UInt8.le_iff_toNat_le, h.count]
    exact hi
  · exact still_addEntry (fun a v h₁ h₂ => ⟨a, v, rfl, h₁, h₂⟩) t

/-- 先頭の位置が 255 を超えて一周した後も、300 回の追加の最後の 8 個が残る。 -/
theorem boot_log_exact_wrapped (w : World) :
    BootLog.getEntry (addEntries Env.ideal 3 ((List.range 300).map UInt32.ofNat) (BootLog.init Env.ideal 3 w)).hw.eeprom
      3 0 = 292 := by
  have hlen : (0 : UInt8).toNat < (Ring.latest 8 ((List.range 300).map UInt32.ofNat)).length := by
    simp [Ring.length_latest]
  refine ((boot_log_exact Env.ideal 3 _ w).2.1 0 hlen).trans ?_
  simp [Ring.latest]

end Wagman.V4
