import Mathlib.Data.List.Infix

/-!
# 一つずつ受け取る処理

要素を一つずつ受け取りながら進む処理を、受け取る並びと切り離して表す。同じ処理を、一つの並びにも、いくつかの束に分けて届く並びにも
行うことができ、結果は束の分け方によらない。束の並びが尽きた後は、決まった値 `z` を受け取る。
-/

/-- 要素を受け取りながら `β` を求める処理。 -/
inductive Fetch (α β : Type) where
  | done (b : β)
  | next (k : α → Fetch α β)

namespace Fetch

variable {α β γ : Type}

def bind : Fetch α β → (β → Fetch α γ) → Fetch α γ
  | .done b, f => f b
  | .next k, f => .next fun a => (k a).bind f

instance : Monad (Fetch α) where
  pure := .done
  bind := bind

/-- 要素を一つ受け取る。 -/
def fetch : Fetch α α := .next .done

/-! ## 一つの並び -/

/-- 並び `l` から受け取り、結果と残りを返す。足りなければ `none` である。 -/
def feed : Fetch α β → List α → Option (β × List α)
  | .done b, l => some (b, l)
  | .next _, [] => none
  | .next k, a :: l => (k a).feed l

@[simp] theorem feed_pure (b : β) (l : List α) : (pure b : Fetch α β).feed l = some (b, l) := by
  cases l with
  | nil => rfl
  | cons a l => rfl

theorem feed_bind (p : Fetch α β) (f : β → Fetch α γ) (l : List α) :
    (p >>= f).feed l = (p.feed l).bind fun r => (f r.1).feed r.2 := by
  show (p.bind f).feed l = _
  induction p generalizing l with
  | done b =>
      cases l with
      | nil => rfl
      | cons a l => rfl
  | next k ih =>
      cases l with
      | nil => rfl
      | cons a l => exact ih a l

@[simp] theorem feed_fetch_bind (f : α → Fetch α γ) (a : α) (l : List α) :
    (fetch >>= f).feed (a :: l) = (f a).feed l := by
  rw [feed_bind]
  cases l with
  | nil => rfl
  | cons b l => rfl

/-- 使った分だけを使う。 -/
theorem feed_append {p : Fetch α β} {l l' rest : List α} {b : β} (h : p.feed l = some (b, rest)) :
    p.feed (l ++ l') = some (b, rest ++ l') := by
  induction p generalizing l with
  | done b =>
      cases l with
      | nil =>
          cases h
          exact feed_pure _ _
      | cons a l =>
          cases h
          exact feed_pure _ _
  | next k ih =>
      cases l with
      | nil => cases h
      | cons a l => exact ih a h

/-- どの `n` 個を受け取っても、ちょうどそれだけで終わる。 -/
def Takes (n : Nat) (p : Fetch α β) : Prop := ∀ l, l.length = n → ∃ b, p.feed l = some (b, [])

theorem takes_pure (b : β) : Takes 0 (pure b : Fetch α β) := by
  intro l hl
  obtain rfl := List.eq_nil_of_length_eq_zero hl
  exact ⟨b, feed_pure b []⟩

theorem takes_fetch_bind {n : Nat} {f : α → Fetch α γ} (h : ∀ a, Takes n (f a)) : Takes (n + 1) (fetch >>= f) := by
  intro l hl
  obtain ⟨a, l, rfl⟩ := List.exists_cons_of_length_eq_add_one hl
  rw [feed_fetch_bind]
  exact h a l (Nat.succ.inj hl)

theorem Takes.bind {m n : Nat} {p : Fetch α β} {f : β → Fetch α γ} (hp : Takes m p) (hf : ∀ b, Takes n (f b)) :
    Takes (m + n) (p >>= f) := by
  intro l hl
  obtain ⟨b, hb⟩ := hp (l.take m) (by rw [List.length_take]; omega)
  have hfeed : p.feed (l.take m ++ l.drop m) = some (b, [] ++ l.drop m) := feed_append hb
  rw [List.take_append_drop, List.nil_append] at hfeed
  rw [feed_bind, hfeed]
  exact hf b (l.drop m) (by rw [List.length_drop]; omega)

theorem takes_ite {n : Nat} {p : Prop} [Decidable p] {x y : Fetch α β} (hx : Takes n x) (hy : Takes n y) :
    Takes n (if p then x else y) := by
  split
  · exact hx
  · exact hy

/-- 何を受け取っても、結果は `P` である。 -/
def Ensures (P : β → Prop) : Fetch α β → Prop
  | .done b => P b
  | .next k => ∀ a, Ensures P (k a)

theorem ensures_pure {P : β → Prop} {b : β} (h : P b) : Ensures P (pure b : Fetch α β) := h

theorem ensures_fetch_bind {P : γ → Prop} {f : α → Fetch α γ} (h : ∀ a, Ensures P (f a)) : Ensures P (fetch >>= f) := h

theorem Ensures.bind {Q : β → Prop} {P : γ → Prop} {p : Fetch α β} {f : β → Fetch α γ} (hp : Ensures Q p)
    (hf : ∀ b, Q b → Ensures P (f b)) : Ensures P (p >>= f) := by
  induction p with
  | done b => exact hf b hp
  | next k ih => exact fun a => ih a (hp a)

theorem ensures_ite {P : β → Prop} {q : Prop} [Decidable q] {x y : Fetch α β} (hx : q → Ensures P x)
    (hy : ¬q → Ensures P y) : Ensures P (if q then x else y) := by
  split
  · next h => exact hx h
  · next h => exact hy h

/-! ## 束に分けて届く並び -/

/-- 届いた束の残りと、まだ受け取っていない束。`attached` は、相手がまだつながっていることを表す。 -/
structure Link (α : Type) where
  bank : List α := []
  queue : List (List α)
  attached : Bool := true

/-- 空でない束が届くまで待って、一つ受け取る。束が尽きれば、相手は離れている。 -/
def take (z : α) : List (List α) → α × Link α
  | [] => (z, ⟨[], [], false⟩)
  | [] :: ps => take z ps
  | (a :: bank) :: ps => (a, ⟨bank, ps, true⟩)

def Link.fetch (z : α) (s : Link α) : α × Link α := if s.attached then take z (s.bank :: s.queue) else (z, s)

/-- 束から受け取りながら進む。 -/
def run (z : α) : Fetch α β → Link α → β × Link α
  | .done b, s => (b, s)
  | .next k, s => (k (s.fetch z).1).run z (s.fetch z).2

theorem Ensures.run {P : β → Prop} {p : Fetch α β} (h : Ensures P p) (z : α) (s : Link α) : P (p.run z s).1 := by
  induction p generalizing s with
  | done b => exact h
  | next k ih => exact ih _ (h _) _

/-- 束の並び `ps` は `l` を運ぶ。`l` の最後の要素は最後の束にあり、その後に `junk` がある。 -/
structure Carries (ps : List (List α)) (l junk : List α) : Prop where
  full : ∃ init body, ps = init ++ [body ++ junk] ∧ init.flatten ++ body = l ∧ body ≠ []

variable {z : α} {l junk rest : List α} {b : β} {ps : List (List α)}

theorem Carries.ne_nil (h : Carries ps l junk) : l ≠ [] := by
  obtain ⟨init, body, -, rfl, hne⟩ := h.full
  exact List.append_ne_nil_of_right_ne_nil _ hne

/-- 先頭の要素を受け取った後も、残りを運ぶか、残りがなければ最後の束の余りだけがある。 -/
theorem Carries.take {a : α} (h : Carries ps (a :: l) junk) (qs : List (List α)) :
    ∃ bank ps', take z (ps ++ qs) = (a, ⟨bank, ps' ++ qs, true⟩) ∧
      (l = [] ∧ bank = junk ∧ ps' = [] ∨ Carries (bank :: ps') l junk) := by
  induction ps with
  | nil =>
      obtain ⟨init, body, hps, -, -⟩ := h.full
      exact absurd hps.symm (List.append_ne_nil_of_right_ne_nil _ (List.cons_ne_nil _ _))
  | cons p ps ih =>
      obtain ⟨init, body, hps, hl, hne⟩ := h.full
      cases init with
      | nil =>
          obtain ⟨rfl, rfl⟩ := List.cons.inj hps
          rw [List.flatten_nil, List.nil_append] at hl
          subst hl
          refine ⟨l ++ junk, [], rfl, ?_⟩
          cases l with
          | nil => exact .inl ⟨rfl, rfl, rfl⟩
          | cons c l => exact .inr ⟨[], c :: l, rfl, rfl, List.cons_ne_nil _ _⟩
      | cons q init =>
          obtain ⟨rfl, rfl⟩ := List.cons.inj hps
          cases p with
          | nil => exact ih ⟨init, body, rfl, hl, hne⟩
          | cons c p =>
              obtain ⟨rfl, hl'⟩ := List.cons.inj (hl : c :: ((p :: init).flatten ++ body) = a :: l)
              exact ⟨p, init ++ [body ++ junk], rfl, .inr ⟨p :: init, body, rfl, hl', hne⟩⟩

/-- 並び `l` を使い切る処理は、`l` を運ぶどの束からも同じ結果を得て、その束だけを使う。 -/
theorem run_carries {p : Fetch α β} {bank : List α} (hc : Carries (bank :: ps) l junk) (h : p.feed l = some (b, []))
    (qs : List (List α)) : p.run z ⟨bank, ps ++ qs, true⟩ = (b, ⟨junk, qs, true⟩) := by
  induction p generalizing l bank ps with
  | done b' =>
      cases l with
      | nil => exact absurd rfl hc.ne_nil
      | cons a l => cases h
  | next k ih =>
      cases l with
      | nil => cases h
      | cons a l =>
          obtain ⟨bank', ps', htake, hrest⟩ := hc.take (z := z) qs
          have hfetch : (Link.mk bank (ps ++ qs) true).fetch z = (a, ⟨bank', ps' ++ qs, true⟩) := htake
          rw [run, hfetch]
          rcases hrest with ⟨rfl, rfl, rfl⟩ | hcarries
          · cases hk : k a with
            | done b' =>
                rw [feed, hk] at h
                cases h
                rfl
            | next k' =>
                rw [feed, hk] at h
                cases h
          · exact ih a hcarries h

/-- 届いた束の全体の先頭を受け取る。全体が空なら、相手は離れている。 -/
theorem take_flatten (z : α) (ps : List (List α)) :
    (ps.flatten = [] ∧ take z ps = (z, ⟨[], [], false⟩)) ∨
      ∃ a bank queue, ps.flatten = a :: (bank ++ queue.flatten) ∧ take z ps = (a, ⟨bank, queue, true⟩) := by
  induction ps with
  | nil => exact .inl ⟨rfl, rfl⟩
  | cons p ps ih =>
      cases p with
      | nil => exact ih
      | cons a bank => exact .inr ⟨a, bank, ps, rfl, rfl⟩

end Fetch
