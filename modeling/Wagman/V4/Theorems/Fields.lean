import Wagman.V4.Lemmas.Fields

/-!
# 記録の欄の独立

どの欄も、書いた値がそのまま読め、ほかの欄への書き込みで変わらない。
-/

namespace Wagman.V4.Record

open Machine

/-- `getEntry` は、自分の起動の記録の欄だけを読む。 -/
theorem getEntry_congr {m m' : Nat → UInt8} {d : Port}
    (hstart : BootLog.getStart m d = BootLog.getStart m' d)
    (hcount : BootLog.getCount m d = BootLog.getCount m' d)
    (hentry : ∀ k : Fin 8, getWord m (BootLog.slot d k) = getWord m' (BootLog.slot d k)) (i : UInt8) :
    BootLog.getEntry m d i = BootLog.getEntry m' d i := by
  have hlt : ((BootLog.getStart m' d).toNat + i.toNat) % 8 < 8 := Nat.mod_lt _ (by decide)
  simp only [BootLog.getEntry, hstart, hcount, BootLog.capacity]
  split
  · rfl
  · exact hentry ⟨_, hlt⟩

/-- 欄に書いた値は読め、ほかの欄は変わらない。起動の記録の項目も、その記録の欄に書かなければ変わらない。 -/
theorem record_fields_independent (env : Env) (f : Field) (v : f.Value) (w : World) :
    f.read (f.write env v w).hw.eeprom = f.stored v ∧
    (∀ g, g ≠ f → g.read (f.write env v w).hw.eeprom = g.read w.hw.eeprom) ∧
    (∀ d i, f ≠ .device d .logStart → f ≠ .device d .logCount → (∀ k, f ≠ .device d (.logEntry k)) →
      BootLog.getEntry (f.write env v w).hw.eeprom d i = BootLog.getEntry w.hw.eeprom d i) := by
  refine ⟨f.read_write_self env v w, fun g hg => Field.read_write_ne env hg v w, ?_⟩
  intro d i hstart hcount hentry
  refine getEntry_congr ?_ ?_ (fun k => ?_) i
  · exact Field.read_write_ne env (g := .device d .logStart) (Ne.symm hstart) v w
  · exact Field.read_write_ne env (g := .device d .logCount) (Ne.symm hcount) v w
  · exact Field.read_write_ne env (g := .device d (.logEntry k)) (Ne.symm (hentry k)) v w

/-- 隣り合う欄 `bootAttempts` と `bootFailures` の間でも、桁の多い値が混ざらない。 -/
theorem record_fields_independent_adjacent :
    getBootFailures (setBootAttempts Env.ideal 4 0xffffffff (powerOn Hardware.ready)).hw.eeprom 4 = 0 :=
  (record_fields_independent Env.ideal (.device 4 .bootAttempts) 0xffffffff (powerOn Hardware.ready)).2.1
    (.device 4 .bootFailures) (by decide)

end Wagman.V4.Record
