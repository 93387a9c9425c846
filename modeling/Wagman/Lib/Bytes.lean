import Mathlib.Data.UInt
import Mathlib.Logic.Function.Basic

/-!
# バイトの並びに置いた数

番地からバイトへの関数を記憶とみて、幅 `k` バイトの数を下位のバイトから順に読み書きする。
書き込みは一バイトごとに行うので、途中の状態も同じ関数の途中の値として得られる。
-/

namespace Bytes

/-- 番地 `a` から `k` バイトの数を読む。 -/
def get (m : Nat → UInt8) (a : Nat) : Nat → Nat
  | 0 => 0
  | k + 1 => (m a).toNat + 256 * get m (a + 1) k

/-- 番地 `a` から `k` バイトに数を書く。`write` は一バイトの書き込みで、記憶そのものにも、記憶を含む状態にも使う。 -/
def put {σ : Type} (write : Nat → UInt8 → σ → σ) (a : Nat) : Nat → Nat → σ → σ
  | 0, _, s => s
  | k + 1, n, s => put write (a + 1) k (n / 256) (write a (UInt8.ofNat n) s)

/-- 記憶への一バイトの書き込み。 -/
def store (a : Nat) (v : UInt8) (m : Nat → UInt8) : Nat → UInt8 := Function.update m a v

@[simp] theorem store_self (a : Nat) (v : UInt8) (m : Nat → UInt8) : store a v m a = v := by
  simp [store]

theorem store_of_ne {a b : Nat} (h : b ≠ a) (v : UInt8) (m : Nat → UInt8) : store a v m b = m b := by
  simp [store, h]

/-- 記憶を含む状態への書き込みは、記憶への書き込みとして読める。 -/
theorem read_put {σ : Type} {write : Nat → UInt8 → σ → σ} (read : σ → Nat → UInt8)
    (h : ∀ a v s, read (write a v s) = store a v (read s)) (a k n : Nat) (s : σ) :
    read (put write a k n s) = put store a k n (read s) := by
  induction k generalizing a n s with
  | zero => rfl
  | succ k ih => simp only [put, ih, h]

theorem put_store_of_lt {a b : Nat} (h : b < a) (k n : Nat) (m : Nat → UInt8) :
    put store a k n m b = m b := by
  induction k generalizing a n m with
  | zero => rfl
  | succ k ih => rw [put, ih (by omega), store_of_ne (by omega)]

theorem put_store_of_le {a k b : Nat} (h : a + k ≤ b) (n : Nat) (m : Nat → UInt8) :
    put store a k n m b = m b := by
  induction k generalizing a n m with
  | zero => rfl
  | succ k ih => rw [put, ih (by omega), store_of_ne (by omega)]

/-- 数の `i` 番目のバイト。 -/
def byte (n i : Nat) : UInt8 := UInt8.ofNat (n / 256 ^ i)

theorem byte_succ (n i : Nat) : byte n (i + 1) = byte (n / 256) i := by
  simp only [byte, Nat.pow_succ, Nat.mul_comm, Nat.div_div_eq_div_mul]

/-- 書いた範囲の各番地には、数の対応するバイトがある。 -/
theorem put_store_at {a k i : Nat} (h : i < k) (n : Nat) (m : Nat → UInt8) :
    put store a k n m (a + i) = byte n i := by
  induction k generalizing a n m i with
  | zero => omega
  | succ k ih =>
      cases i with
      | zero =>
          rw [put, put_store_of_lt (by omega)]
          simp [byte]
      | succ i =>
          rw [put, byte_succ, ← ih (a := a + 1) (Nat.lt_of_succ_lt_succ h) (n / 256) (store a (UInt8.ofNat n) m)]
          rw [Nat.add_right_comm, Nat.add_assoc]

theorem get_congr {m m' : Nat → UInt8} {a k : Nat} (h : ∀ b, a ≤ b → b < a + k → m b = m' b) :
    get m a k = get m' a k := by
  induction k generalizing a with
  | zero => rfl
  | succ k ih =>
      rw [get, get, h a (Nat.le_refl _) (by omega), ih (fun b h₁ h₂ => h b (by omega) (by omega))]

theorem get_put_self (a k n : Nat) (m : Nat → UInt8) : get (put store a k n m) a k = n % 256 ^ k := by
  induction k generalizing a n m with
  | zero => simp [get, Nat.mod_one]
  | succ k ih =>
      have hbyte : (UInt8.ofNat n).toNat = n % 256 := by simp
      rw [get, put, ih, put_store_of_lt (by omega), store_self, hbyte]
      rw [Nat.pow_succ, Nat.mul_comm (256 ^ k) 256, Nat.mod_mul]

theorem get_lt (m : Nat → UInt8) (a k : Nat) : get m a k < 256 ^ k := by
  induction k generalizing a with
  | zero => simp [get]
  | succ k ih =>
      have hlt := (m a).toNat_lt
      have hrest := ih (a + 1)
      rw [get, Nat.pow_succ]
      omega

theorem byte_get (m : Nat → UInt8) (a : Nat) {k i : Nat} (h : i < k) : byte (get m a k) i = m (a + i) := by
  induction k generalizing a i with
  | zero => omega
  | succ k ih =>
      have hlt := (m a).toNat_lt
      cases i with
      | zero =>
          refine UInt8.toNat_inj.mp ?_
          simp only [byte, get, Nat.pow_zero, Nat.div_one, UInt8.toNat_ofNat', Nat.add_zero]
          omega
      | succ i =>
          have hrest : get m a (k + 1) / 256 = get m (a + 1) k := by
            rw [get]
            omega
          rw [byte_succ, hrest, ih (a + 1) (Nat.lt_of_succ_lt_succ h), Nat.add_right_comm, Nat.add_assoc]

theorem eq_of_byte_eq {n n' k : Nat} (hn : n < 256 ^ k) (hn' : n' < 256 ^ k) (h : ∀ i < k, byte n i = byte n' i) :
    n = n' := by
  have hget : get (put store 0 k n fun _ => 0) 0 k = get (put store 0 k n' fun _ => 0) 0 k := by
    refine get_congr fun b _ hb => ?_
    have hb' : b < k := by omega
    have hat := put_store_at (a := 0) hb'
    simp only [Nat.zero_add] at hat
    rw [hat, hat, h b hb']
  rwa [get_put_self, get_put_self, Nat.mod_eq_of_lt hn, Nat.mod_eq_of_lt hn'] at hget

/-- 書き込みが `j` バイトで途切れたときの数。下位 `j` バイトは新しく、残りは元のままである。 -/
def torn (j new old : Nat) : Nat := new % 256 ^ j + 256 ^ j * (old / 256 ^ j)

theorem get_put_torn {j k : Nat} (h : j ≤ k) (a n : Nat) (m : Nat → UInt8) :
    get (put store a j n m) a k = torn j n (get m a k) := by
  induction j generalizing a k n m with
  | zero => simp [put, torn, Nat.mod_one]
  | succ j ih =>
      obtain ⟨k, rfl⟩ : ∃ k', k = k' + 1 := ⟨k - 1, by omega⟩
      have hbyte : (UInt8.ofNat n).toNat = n % 256 := by simp
      have hrest : get (store a (UInt8.ofNat n) m) (a + 1) k = get m (a + 1) k :=
        get_congr fun b h₁ _ => store_of_ne (by omega) _ m
      have hold : ((m a).toNat + 256 * get m (a + 1) k) / 256 = get m (a + 1) k := by
        have := (m a).toNat_lt
        omega
      rw [get, put, ih (by omega), put_store_of_lt (by omega), store_self, hbyte, hrest, get, torn, torn]
      rw [Nat.pow_succ, Nat.mul_comm (256 ^ j) 256, Nat.mod_mul, ← Nat.div_div_eq_div_mul, hold]
      rw [Nat.mul_add, Nat.mul_assoc, Nat.add_assoc]

theorem torn_lt {j k new old : Nat} (hj : j ≤ k) (ho : old < 256 ^ k) : torn j new old < 256 ^ k := by
  have hold : get (put store 0 k old fun _ => 0) 0 k = old := by rw [get_put_self, Nat.mod_eq_of_lt ho]
  rw [← hold, ← get_put_torn hj]
  exact get_lt _ _ _

theorem byte_torn {j k new old i : Nat} (hj : j ≤ k) (ho : old < 256 ^ k) (hi : i < k) :
    byte (torn j new old) i = if i < j then byte new i else byte old i := by
  have hold : get (put store 0 k old fun _ => 0) 0 k = old := by rw [get_put_self, Nat.mod_eq_of_lt ho]
  rw [← hold, ← get_put_torn hj, byte_get _ _ hi, byte_get _ _ hi]
  split
  · rename_i hlt
    exact put_store_at hlt new _
  · exact put_store_of_le (by omega) new _

end Bytes
