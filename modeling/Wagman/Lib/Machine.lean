import Wagman.Lib.Bytes
import Mathlib.Data.List.Infix

/-!
# 記録を残す機械

装置の状態 `H`、電源を切ると失われる記憶 `R`、起きた事象 `E` の記録からなる機械。装置の状態は事象だけで
変わるので、記録のどの時点の装置の状態も、記録をそこまで再生すれば得られる。電源が途中で切れた状態を
調べるときは、記録の途中（`<:+`）を再生した状態を調べる。記録は新しい事象を先頭に置く。
-/

/-- 事象が装置の状態に及ぼす作用。 -/
class Effect (H E : Type) where
  apply : E → H → H

/-- 記録の一項目。事象と、それが起きた時刻。 -/
structure Entry (E : Type) where
  time : Nat
  event : E

/-- 機械の状態。`io` はこれまでに行った入出力の回数で、`now` は実時間（ミリ秒）である。 -/
structure Machine (H R E : Type) where
  hw : H
  ram : R
  now : Nat
  io : Nat
  log : List (Entry E)

namespace Machine

variable {H R E : Type}

/-- 少なくとも `ms` ミリ秒待つ。`lat` は各入出力にかかる時間である。 -/
def elapse (lat : Nat → Nat) (ms : Nat) (m : Machine H R E) : Machine H R E :=
  { m with now := m.now + ms + lat m.io, io := m.io + 1 }

/-- 記憶を書き換える。 -/
def setRam (r : R) (m : Machine H R E) : Machine H R E := { m with ram := r }

section Plain

variable (lat : Nat → Nat) (ms : Nat) (r : R) (m : Machine H R E)

@[simp] theorem elapse_hw : (m.elapse lat ms).hw = m.hw := rfl
@[simp] theorem setRam_ram : (m.setRam r).ram = r := rfl
@[simp] theorem setRam_now : (m.setRam r).now = m.now := rfl
@[simp] theorem setRam_log : (m.setRam r).log = m.log := rfl

end Plain

variable [Effect H E]

/-- 入出力を一回行い、事象 `e` を起こす。 -/
def emit (lat : Nat → Nat) (e : E) (m : Machine H R E) : Machine H R E :=
  { m with hw := Effect.apply e m.hw, now := m.now + lat m.io, io := m.io + 1, log := ⟨m.now, e⟩ :: m.log }

/-- 時間をかけずに事象 `e` を記録する。 -/
def mark (e : E) (m : Machine H R E) : Machine H R E :=
  { m with hw := Effect.apply e m.hw, log := ⟨m.now, e⟩ :: m.log }

section Recording

variable (lat : Nat → Nat) (e : E) (m : Machine H R E)

@[simp] theorem emit_hw : (m.emit lat e).hw = Effect.apply e m.hw := rfl
@[simp] theorem mark_ram : (m.mark e).ram = m.ram := rfl
@[simp] theorem mark_now : (m.mark e).now = m.now := rfl
@[simp] theorem mark_log : (m.mark e).log = ⟨m.now, e⟩ :: m.log := rfl

end Recording

/-! ## 記録の再生 -/

/-- 初めの装置の状態に記録を再生する。 -/
def replay (h : H) (log : List (Entry E)) : H := log.foldr (fun x h => Effect.apply x.event h) h

@[simp] theorem replay_cons (h : H) (x : Entry E) (l : List (Entry E)) :
    replay h (x :: l) = Effect.apply x.event (replay h l) := rfl

theorem replay_append (h : H) (l l' : List (Entry E)) : replay h (l ++ l') = replay (replay h l') l := by
  simp [replay]

/-- 記録のどの事象にも保たれる性質は、再生の後でも成り立つ。 -/
theorem replay_induct {A : E → Prop} {P : H → Prop} (hP : ∀ e s, A e → P s → P (Effect.apply e s)) {h : H}
    (h₀ : P h) {log : List (Entry E)} (ha : ∀ x ∈ log, A x.event) : P (replay h log) := by
  induction log with
  | nil => exact h₀
  | cons x log ih =>
      exact hP _ _ (ha x List.mem_cons_self) (ih fun y hy => ha y (List.mem_cons_of_mem _ hy))

/-- 記録のどの時点でも `Q` が成り立つ。 -/
def Always (Q : List (Entry E) → Prop) (log : List (Entry E)) : Prop := ∀ l, l <:+ log → Q l

omit [Effect H E] in
theorem always_cons {Q : List (Entry E) → Prop} {x : Entry E} {l : List (Entry E)} :
    Always Q (x :: l) ↔ Q (x :: l) ∧ Always Q l := by
  constructor
  · intro h
    exact ⟨h _ (List.suffix_refl _), fun l' hl => h l' (hl.trans (List.suffix_cons x l))⟩
  · rintro ⟨h₁, h₂⟩ l' hl
    rcases List.suffix_cons_iff.mp hl with rfl | hl
    · exact h₁
    · exact h₂ l' hl

/-- 記録の各事象の寄与の和。寄与は、事象とその直前の装置の状態から決まる。 -/
def tally (f : H → E → Nat) (s : H) : List (Entry E) → Nat
  | [] => 0
  | x :: l => f (replay s l) x.event + tally f s l

theorem tally_eq_zero {f : H → E → Nat} {s : H} {log : List (Entry E)} :
    tally f s log = 0 ↔ ∀ x l, x :: l <:+ log → f (replay s l) x.event = 0 := by
  induction log with
  | nil => simp [tally]
  | cons y log ih =>
      rw [tally, Nat.add_eq_zero_iff, ih]
      constructor
      · rintro ⟨hy, hl⟩ x l hx
        rcases List.suffix_cons_iff.mp hx with heq | hx
        · cases heq
          exact hy
        · exact hl x l hx
      · intro h
        exact ⟨h y log (List.suffix_refl _), fun x l hx => h x l (hx.trans (List.suffix_cons y log))⟩

/-! ## 事象の範囲を限った実行 -/

/-- `m` から `m'` まで、条件 `A` を満たす事象だけを起こして進む。記憶の変化は問わない。 -/
structure Trail (A : E → Prop) (m m' : Machine H R E) : Prop where
  now_le : m.now ≤ m'.now
  log : ∃ new, m'.log = new ++ m.log ∧ m'.hw = replay m.hw new ∧
    ∀ x ∈ new, A x.event ∧ m.now ≤ x.time ∧ x.time ≤ m'.now

namespace Trail

variable {A B : E → Prop} {m m' m'' : Machine H R E}

theorem refl (m : Machine H R E) : Trail A m m :=
  ⟨Nat.le_refl _, [], rfl, rfl, by simp⟩

theorem trans (h₁ : Trail A m m') (h₂ : Trail A m' m'') : Trail A m m'' := by
  obtain ⟨n₁, new₁, hl₁, hh₁, ha₁⟩ := h₁
  obtain ⟨n₂, new₂, hl₂, hh₂, ha₂⟩ := h₂
  refine ⟨Nat.le_trans n₁ n₂, new₂ ++ new₁, by rw [hl₂, hl₁, List.append_assoc], ?_, ?_⟩
  · rw [hh₂, hh₁, replay_append]
  · intro x hx
    rcases List.mem_append.mp hx with hx | hx
    · exact ⟨(ha₂ x hx).1, Nat.le_trans n₁ (ha₂ x hx).2.1, (ha₂ x hx).2.2⟩
    · exact ⟨(ha₁ x hx).1, (ha₁ x hx).2.1, Nat.le_trans (ha₁ x hx).2.2 n₂⟩

theorem mono (hab : ∀ e, A e → B e) (h : Trail A m m') : Trail B m m' := by
  obtain ⟨n, new, hl, hh, ha⟩ := h
  exact ⟨n, new, hl, hh, fun x hx => ⟨hab _ (ha x hx).1, (ha x hx).2⟩⟩

theorem emit (lat : Nat → Nat) {e : E} (he : A e) (h : Trail A m m') : Trail A m (m'.emit lat e) :=
  h.trans ⟨Nat.le_add_right _ _, [⟨m'.now, e⟩], rfl, rfl, by simpa [Machine.emit] using he⟩

theorem mark {e : E} (he : A e) (h : Trail A m m') : Trail A m (m'.mark e) :=
  h.trans ⟨Nat.le_refl _, [⟨m'.now, e⟩], rfl, rfl, by simpa using he⟩

theorem elapse (lat : Nat → Nat) (ms : Nat) (h : Trail A m m') : Trail A m (m'.elapse lat ms) :=
  h.trans ⟨by simp only [Machine.elapse]; omega, [], rfl, rfl, by simp⟩

theorem setRam (r : R) (h : Trail A m m') : Trail A m (m'.setRam r) :=
  h.trans ⟨Nat.le_refl _, [], rfl, rfl, by simp⟩

theorem suffix (h : Trail A m m') : m.log <:+ m'.log := by
  obtain ⟨new, hl, -, -⟩ := h.log
  exact ⟨new, hl.symm⟩

/-- 記録に加わった事象は一つに決まる。 -/
theorem of_log (h : Trail A m m') {new : List (Entry E)} (hn : m'.log = new ++ m.log) :
    m'.hw = replay m.hw new ∧ ∀ x ∈ new, A x.event := by
  obtain ⟨new', hn', hh, ha⟩ := h.log
  obtain rfl : new = new' := List.append_cancel_right (hn.symm.trans hn')
  exact ⟨hh, fun x hx => (ha x hx).1⟩

/-- 装置の状態の性質は、起きうるどの事象にも保たれるなら、実行の後でも成り立つ。 -/
theorem hw_induct (h : Trail A m m') {P : H → Prop} (hP : ∀ e s, A e → P s → P (Effect.apply e s))
    (h₀ : P m.hw) : P m'.hw := by
  obtain ⟨new, -, hh, ha⟩ := h.log
  rw [hh]
  exact replay_induct hP h₀ fun x hx => (ha x hx).1

/-- 記録から計算する値は、起きうるどの事象にも変わらないなら、実行の前後で等しい。 -/
theorem log_eq (h : Trail A m m') {α : Type} {f : List (Entry E) → α}
    (hf : ∀ x l, A x.event → f (x :: l) = f l) : f m'.log = f m.log := by
  obtain ⟨new, hl, -, ha⟩ := h.log
  rw [hl]
  clear hl
  induction new with
  | nil => rfl
  | cons x new ih =>
      rw [List.cons_append, hf _ _ (ha x (by simp)).1]
      exact ih (fun y hy => ha y (by simp [hy]))

/-- 起きうるどの事象の寄与も 0 なら、和は変わらない。 -/
theorem tally_eq (h : Trail A m m') {f : H → E → Nat} (hf : ∀ e t, A e → f t e = 0) (s : H) :
    tally f s m'.log = tally f s m.log :=
  h.log_eq fun x l hx => by rw [tally, hf _ _ hx, Nat.zero_add]

/-- 記録の性質は、起きうるどの事象を加えても保たれるなら、実行の後でも成り立つ。 -/
theorem log_induct (h : Trail A m m') {P : List (Entry E) → Prop} (hP : ∀ x l, A x.event → P l → P (x :: l))
    (h₀ : P m.log) : P m'.log := by
  obtain ⟨new, hl, -, ha⟩ := h.log
  rw [hl]
  clear hl
  induction new with
  | nil => exact h₀
  | cons x new ih => exact hP _ _ (ha x (by simp)).1 (ih fun y hy => ha y (by simp [hy]))

/-- 起きうるどの事象も満たす条件は、それまでの記録が満たしていれば、実行の後の記録も満たす。 -/
theorem forall_log (h : Trail A m m') {Q : E → Prop} (hQ : ∀ e, A e → Q e) (h₀ : ∀ x ∈ m.log, Q x.event) :
    ∀ x ∈ m'.log, Q x.event :=
  h.log_induct (P := fun l => ∀ x ∈ l, Q x.event) (fun _ _ hx hl => List.forall_mem_cons.mpr ⟨hQ _ hx, hl⟩) h₀

theorem replayed (h : Trail A m m') {s : H} (h₀ : m.hw = replay s m.log) : m'.hw = replay s m'.log := by
  obtain ⟨new, hl, hh, -⟩ := h.log
  rw [hl, hh, h₀, replay_append]

/-- 起きうるどの事象にも保たれる性質 `K` があれば、`K` から従う `Q` は実行の途中のどの時点でも成り立つ。 -/
theorem always (h : Trail A m m') {K Q : List (Entry E) → Prop}
    (hK : ∀ x l, A x.event → K l → K (x :: l)) (hKQ : ∀ l, K l → Q l)
    (h₀ : K m.log) (hQ : Always Q m.log) : K m'.log ∧ Always Q m'.log := by
  obtain ⟨new, hl, -, ha⟩ := h.log
  rw [hl]
  clear hl
  induction new with
  | nil => exact ⟨h₀, hQ⟩
  | cons x new ih =>
      obtain ⟨hk, hq⟩ := ih (fun y hy => ha y (by simp [hy]))
      have hx := hK x _ (ha x (by simp)).1 hk
      exact ⟨hx, always_cons.mpr ⟨hKQ _ hx, hq⟩⟩

end Trail

/-! ## 記憶を変えない実行 -/

/-- `m` から `m'` まで、条件 `A` を満たす事象だけを起こし、記憶を変えずに進む。 -/
structure Still (A : E → Prop) (m m' : Machine H R E) : Prop where
  trail : Trail A m m'
  ram : m'.ram = m.ram

namespace Still

variable {A B : E → Prop} {m m' m'' : Machine H R E}

theorem refl (m : Machine H R E) : Still A m m := ⟨Trail.refl m, rfl⟩

theorem trans (h₁ : Still A m m') (h₂ : Still A m' m'') : Still A m m'' :=
  ⟨h₁.trail.trans h₂.trail, h₂.ram.trans h₁.ram⟩

theorem mono (hab : ∀ e, A e → B e) (h : Still A m m') : Still B m m' := ⟨h.trail.mono hab, h.ram⟩

theorem emit (lat : Nat → Nat) {e : E} (he : A e) (m : Machine H R E) : Still A m (m.emit lat e) :=
  ⟨(Trail.refl m).emit lat he, rfl⟩

theorem mark {e : E} (he : A e) (m : Machine H R E) : Still A m (m.mark e) :=
  ⟨(Trail.refl m).mark he, rfl⟩

theorem elapse (lat : Nat → Nat) (ms : Nat) (m : Machine H R E) : Still A m (m.elapse lat ms) :=
  ⟨(Trail.refl m).elapse lat ms, rfl⟩

theorem foldl {α : Type} {f : Machine H R E → α → Machine H R E} {as : List α}
    (hf : ∀ m, ∀ a ∈ as, Still A m (f m a)) (m : Machine H R E) : Still A m (as.foldl f m) := by
  induction as generalizing m with
  | nil => exact refl m
  | cons a as ih =>
      exact (hf m a (by simp)).trans (ih (fun m b hb => hf m b (by simp [hb])) _)

theorem put (lat : Nat → Nat) {f : Nat → UInt8 → E} {a k : Nat} (h : ∀ b v, a ≤ b → b < a + k → A (f b v))
    (n : Nat)
    (m : Machine H R E) : Still A m (Bytes.put (fun b v m => m.emit lat (f b v)) a k n m) := by
  induction k generalizing a n m with
  | zero => exact refl m
  | succ k ih =>
      exact (emit lat (h a _ (Nat.le_refl _) (by omega)) m).trans
        (ih (fun b v h₁ h₂ => h b v (by omega) (by omega)) (n / 256) _)

end Still

/-! ## 実行の途中 -/

/-- `m` から `m'` までの間の、`l` が起きた時点。両端を含む。 -/
def Cut (m m' : Machine H R E) (l : List (Entry E)) : Prop := ∃ new, m'.log = new ++ m.log ∧ l <:+ new

theorem Cut.forall {A : E → Prop} {m m' : Machine H R E} {l : List (Entry E)} (h : Cut m m' l) (ht : Trail A m m') :
    ∀ x ∈ l, A x.event := by
  obtain ⟨new, hn, hs⟩ := h
  exact fun x hx => (ht.of_log hn).2 x (hs.subset hx)

/-- 事象 `e` の起きた直後は、途中の時点である。 -/
theorem Cut.of_log {A B : E → Prop} {m u u' m' : Machine H R E} {e : Entry E} (h₁ : Trail A m u)
    (h₂ : u'.log = e :: u.log) (h₃ : Trail B u' m') : ∃ l, Cut m m' (e :: l) ∧ ∀ x ∈ l, A x.event := by
  obtain ⟨n₁, hn₁, -, ha⟩ := h₁.log
  obtain ⟨n₂, hn₂, -, -⟩ := h₃.log
  refine ⟨n₁, ⟨n₂ ++ e :: n₁, ?_, List.suffix_append _ _⟩, fun x hx => (ha x hx).1⟩
  rw [hn₂, h₂, hn₁, List.append_assoc, List.cons_append]

theorem cut_emit_iff (lat : Nat → Nat) (e : E) {m : Machine H R E} {l : List (Entry E)} :
    Cut m (m.emit lat e) l ↔ l = [] ∨ l = [⟨m.now, e⟩] := by
  constructor
  · rintro ⟨new, hn, hs⟩
    obtain rfl : new = [⟨m.now, e⟩] := List.append_cancel_right (hn.symm.trans rfl)
    rcases List.suffix_cons_iff.mp hs with rfl | hs
    · exact Or.inr rfl
    · exact Or.inl (List.suffix_nil.mp hs)
  · rintro (rfl | rfl)
    · exact ⟨[⟨m.now, e⟩], rfl, List.nil_suffix⟩
    · exact ⟨[⟨m.now, e⟩], rfl, List.suffix_refl _⟩

/-- 途中の時点は、前半か後半の途中の時点である。 -/
theorem cut_trans_iff {A B : E → Prop} {m m' m'' : Machine H R E} {l : List (Entry E)} (h₁ : Trail A m m')
    (h₂ : Trail B m' m'') :
    Cut m m'' l ↔ Cut m m' l ∨ ∃ n₁ l₂, m'.log = n₁ ++ m.log ∧ Cut m' m'' l₂ ∧ l = l₂ ++ n₁ := by
  obtain ⟨n₁, hl₁, -, -⟩ := h₁.log
  obtain ⟨n₂, hl₂, -, -⟩ := h₂.log
  have hl : m''.log = (n₂ ++ n₁) ++ m.log := by rw [hl₂, hl₁, List.append_assoc]
  constructor
  · rintro ⟨new, hn, hs⟩
    obtain rfl : new = n₂ ++ n₁ := List.append_cancel_right (hn.symm.trans hl)
    rcases List.suffix_or_suffix_of_suffix hs (List.suffix_append n₂ n₁) with hs' | ⟨l', rfl⟩
    · exact Or.inl ⟨n₁, hl₁, hs'⟩
    · exact Or.inr ⟨n₁, l', hl₁, ⟨n₂, hl₂, List.suffix_append_self_iff.mp hs⟩, rfl⟩
  · rintro (⟨new, hn, hs⟩ | ⟨n, l₂, hn, ⟨new, hn₂, hs⟩, rfl⟩)
    · obtain rfl : new = n₁ := List.append_cancel_right (hn.symm.trans hl₁)
      exact ⟨n₂ ++ new, hl, hs.trans (List.suffix_append n₂ new)⟩
    · refine ⟨new ++ n, ?_, List.suffix_append_self_iff.mpr hs⟩
      rw [hn₂, hn, List.append_assoc]

/-- `m` から `m'` までの間のどこかの時点での装置の状態。両端を含む。 -/
def During (m m' : Machine H R E) (h : H) : Prop :=
  ∃ new l, m'.log = new ++ m.log ∧ l <:+ new ∧ h = replay m.hw l

namespace During

variable {A B : E → Prop} {m m' m'' : Machine H R E} {h : H}

theorem iff_cut : During m m' h ↔ ∃ l, Cut m m' l ∧ h = replay m.hw l := by
  constructor
  · rintro ⟨new, l, hn, hs, hh⟩
    exact ⟨l, ⟨new, hn, hs⟩, hh⟩
  · rintro ⟨l, ⟨new, hn, hs⟩, hh⟩
    exact ⟨new, l, hn, hs, hh⟩

/-- 事象が起きなければ、途中の装置の状態は初めのままである。 -/
theorem of_log_eq (hl : m'.log = m.log) (hd : During m m' h) : h = m.hw := by
  obtain ⟨new, l, hn, hs, rfl⟩ := hd
  obtain rfl : new = [] := List.append_cancel_right (hn.symm.trans hl)
  rw [List.suffix_nil.mp hs]
  rfl

theorem stop (ht : Trail A m m') : During m m' m'.hw := by
  obtain ⟨new, hl, hh, -⟩ := ht.log
  exact ⟨new, new, hl, List.suffix_refl new, hh⟩

theorem trans_iff (h₁ : Trail A m m') (h₂ : Trail B m' m'') :
    During m m'' h ↔ During m m' h ∨ During m' m'' h := by
  simp only [iff_cut, cut_trans_iff h₁ h₂]
  constructor
  · rintro ⟨l, hl | ⟨n₁, l₂, hn, hl, rfl⟩, rfl⟩
    · exact Or.inl ⟨l, hl, rfl⟩
    · exact Or.inr ⟨l₂, hl, by rw [(h₁.of_log hn).1, replay_append]⟩
  · rintro (⟨l, hl, rfl⟩ | ⟨l₂, hl, rfl⟩)
    · exact ⟨l, Or.inl hl, rfl⟩
    · obtain ⟨n₁, hn, -, -⟩ := h₁.log
      exact ⟨l₂ ++ n₁, Or.inr ⟨n₁, l₂, hn, hl, rfl⟩, by rw [(h₁.of_log hn).1, replay_append]⟩

theorem emit_iff (lat : Nat → Nat) (e : E) : During m (m.emit lat e) h ↔ h = m.hw ∨ h = Effect.apply e m.hw := by
  simp only [iff_cut, cut_emit_iff, or_and_right, exists_or, exists_eq_left]
  exact Iff.rfl

/-- 途中の時点の装置の性質は、初めに成り立ち、起きうるどの事象にも保たれるなら、成り立つ。 -/
theorem induct (hd : During m m' h) (ht : Trail A m m') {P : H → Prop}
    (hP : ∀ e s, A e → P s → P (Effect.apply e s)) (h₀ : P m.hw) : P h := by
  obtain ⟨l, hcut, rfl⟩ := iff_cut.mp hd
  exact replay_induct hP h₀ (hcut.forall ht)

/-- 一バイトずつ書く途中の時点では、下位の何バイトかが書かれている。 -/
theorem put_iff (lat : Nat → Nat) (f : Nat → UInt8 → E) (a k n : Nat) :
    During m (Bytes.put (fun b v m => m.emit lat (f b v)) a k n m) h ↔
      ∃ j ≤ k, h = Bytes.put (fun b v => Effect.apply (f b v)) a j n m.hw := by
  induction k generalizing a n m with
  | zero =>
      constructor
      · intro hd
        exact ⟨0, Nat.le_refl 0, of_log_eq rfl hd⟩
      · rintro ⟨j, hj, rfl⟩
        rw [Nat.le_zero.mp hj]
        exact ⟨[], [], rfl, List.suffix_refl _, rfl⟩
  | succ k ih =>
      have h₁ : Trail (fun _ => True) m (m.emit lat (f a (UInt8.ofNat n))) :=
        (Still.emit lat trivial m).trail
      have h₂ : Trail (fun _ => True) (m.emit lat (f a (UInt8.ofNat n)))
          (Bytes.put (fun b v m => m.emit lat (f b v)) (a + 1) k (n / 256) (m.emit lat (f a (UInt8.ofNat n)))) :=
        (Still.put lat (fun _ _ _ _ => trivial) _ _).trail
      rw [Bytes.put, trans_iff h₁ h₂, emit_iff, ih]
      constructor
      · rintro ((rfl | rfl) | ⟨j, hj, rfl⟩)
        · exact ⟨0, Nat.zero_le _, rfl⟩
        · exact ⟨1, by omega, rfl⟩
        · exact ⟨j + 1, by omega, rfl⟩
      · rintro ⟨j, hj, rfl⟩
        cases j with
        | zero => exact Or.inl (Or.inl rfl)
        | succ j => exact Or.inr ⟨j, by omega, rfl⟩

end During

end Machine
