import Wagman.Text.Lemmas.Command
import Wagman.Lib.Lines

/-!
# 一歩の動き

バッファーの中身を、まだ終わっていない行の並びとして見る。どの状態からの一歩も、バッファーの外に書かず、`Move` の
どれかである。
-/

namespace Wagman.Text

open V3 (splitArgs)

/-- 行 `l` について `processCommand` が呼ばれたときの記録。 -/
def call (l : List UInt8) : List UInt8 × List (List UInt8) := (l ++ [0], splitArgs l)

/-- `bufferSize` は次の書き込みと終端の場所を残し、`dataread` は `byte` に収まる。 -/
structure Safe (r : Reader) : Prop where
  size : r.bufferSize < bufferCapacity
  read : r.dataread ≤ readLimit
  flush : r.phase = .flushing → r.bufferSize = 0

namespace Reader

variable {r : Reader}

/-- まだ終わっていない行。 -/
def kept (r : Reader) : List UInt8 := r.buffer.take r.bufferSize

@[simp] theorem length_kept (r : Reader) : r.kept.length = r.bufferSize := by simp [kept, Buffer.take]

theorem kept_eq_nil (h : r.bufferSize = 0) : r.kept = [] := List.eq_nil_of_length_eq_zero (by simp [h])

end Reader

theorem take_store (b : Buffer) (n : Nat) (c : UInt8) :
    Buffer.take (Bytes.store n c b) (n + 1) = b.take n ++ [c] := by
  rw [Buffer.take, List.range_succ, List.map_append, List.map_singleton, Bytes.store_self]
  refine congrArg (· ++ [c]) (List.map_congr_left fun i hi => Bytes.store_of_ne ?_ _ _)
  exact Nat.ne_of_lt (List.mem_range.mp hi)

theorem command_eq {r : Reader} (h : r.bufferSize < bufferCapacity) :
    ∃ b, r.command = some { r with buffer := b, bufferSize := 0, calls := r.calls ++ [call r.kept] } := by
  have hw : r.buffer.write r.bufferSize 0 = some (Bytes.store r.bufferSize 0 r.buffer) := if_pos h
  have ht := holds_terminated (b := r.buffer) (s := 0) (n := r.bufferSize) (by rwa [Nat.zero_add])
  simp only [Nat.zero_add] at ht
  obtain ⟨b, hb⟩ := processCommand_eq ht
  refine ⟨b, ?_⟩
  simp only [Reader.command, hw, hb, take_store, Option.bind_eq_bind, Option.bind_some]
  rfl

/-! ## 動き -/

/-- 一バイトも読まない。 -/
structure Pauses (r r' : Reader) : Prop where
  queue : r'.queue = r.queue
  consumed : r'.consumed = r.consumed
  kept : r'.kept = r.kept
  calls : r'.calls = r.calls

/-- 一バイト読む。 -/
structure Reads (c : UInt8) (r r' : Reader) : Prop where
  queue : r.queue = c :: r'.queue
  budget : r.dataread < readLimit
  consumed : r'.consumed = r.consumed ++ [c]

/-- 繰り返しの条件が成り立つ。 -/
def Ready (r : Reader) : Prop := r.queue ≠ [] ∧ r.dataread < readLimit

instance (r : Reader) : Decidable (Ready r) := inferInstanceAs (Decidable (_ ∧ _))

/-- `processCommands` の一歩。 -/
inductive Move (r r' : Reader) : Prop
  | enter (pauses : Pauses r r') (phase : r.phase = .idle) (phase' : r'.phase = .reading) (read : r'.dataread = 0)
  | leave (pauses : Pauses r r') (phase : r.phase = .reading) (phase' : r'.phase = .idle) (halt : ¬Ready r)
  | abandon (pauses : Pauses r r') (phase : r.phase = .flushing) (phase' : r'.phase = .reading) (halt : ¬Ready r)
  | keep {c : UInt8} (reads : Reads c r r') (ne : c ≠ newline) (phase : r.phase = .reading)
      (phase' : r'.phase = .reading) (kept : r'.kept = r.kept ++ [c]) (calls : r'.calls = r.calls)
  | line (reads : Reads newline r r') (phase : r.phase = .reading) (phase' : r'.phase = .reading)
      (size : r.bufferSize + 1 < bufferCapacity) (kept : r'.kept = [])
      (calls : r'.calls = r.calls ++ [call (r.kept ++ [newline])])
  | overflow {c : UInt8} (reads : Reads c r r') (phase : r.phase = .reading) (phase' : r'.phase = .flushing)
      (size : r.bufferSize + 1 = bufferCapacity) (calls : r'.calls = r.calls)
  | discard {c : UInt8} (reads : Reads c r r') (ne : c ≠ newline) (phase : r.phase = .flushing)
      (phase' : r'.phase = .flushing) (calls : r'.calls = r.calls)
  | resume (reads : Reads newline r r') (phase : r.phase = .flushing) (phase' : r'.phase = .reading)
      (kept : r'.kept = []) (calls : r'.calls = r.calls)

section Tick

variable {r : Reader} {c : UInt8} {q : List UInt8}

/-- 外側の繰り返しの本体は、外に書かずに終わり、文字を加える、行を渡す、あふれるのどれかである。 -/
theorem receive_move (h : Safe r) (hp : r.phase = .reading) (hq : r.queue = c :: q) (hd : r.dataread < readLimit) :
    ∃ r', r.receive c q = some r' ∧ Safe r' ∧ Move r r' := by
  have hw : r.buffer.write r.bufferSize c = some (Bytes.store r.bufferSize c r.buffer) := if_pos h.size
  have hs := h.size
  simp only [Reader.receive, hw, Option.bind_eq_bind, Option.bind_some]
  by_cases hfull : bufferCapacity ≤ r.bufferSize + 1
  · rw [if_pos hfull]
    exact ⟨_, rfl, ⟨Nat.zero_lt_succ _, hd, fun _ => rfl⟩, .overflow ⟨hq, hd, rfl⟩ hp rfl (by omega) rfl⟩
  rw [if_neg hfull]
  by_cases hc : c = newline
  · subst hc
    rw [if_pos rfl]
    obtain ⟨b, hb⟩ := command_eq (r := { r with
      queue := q, consumed := r.consumed ++ [newline], buffer := Bytes.store r.bufferSize newline r.buffer,
      bufferSize := r.bufferSize + 1, dataread := r.dataread + 1 }) (by simp only; omega)
    refine ⟨_, hb, ⟨Nat.zero_lt_succ _, hd, fun _ => rfl⟩, .line ⟨hq, hd, rfl⟩ hp hp (by omega) rfl ?_⟩
    simp only [Reader.kept, take_store]
  · rw [if_neg hc]
    refine ⟨_, rfl, ⟨by simp only; omega, hd, fun hf => ?_⟩, .keep ⟨hq, hd, rfl⟩ hc hp hp ?_ rfl⟩
    · rw [hp] at hf
      cases hf
    · simp only [Reader.kept, take_store]

/-- 内側の繰り返しの本体は、文字を捨てるか、行の終わりで止まる。 -/
theorem discard_move (h : Safe r) (hp : r.phase = .flushing) (hq : r.queue = c :: q) (hd : r.dataread < readLimit) :
    Safe (r.discard c q) ∧ Move r (r.discard c q) := by
  have hz := h.flush hp
  by_cases hc : c = newline
  · subst hc
    have he : r.discard newline q =
        { r with queue := q, consumed := r.consumed ++ [newline], phase := .reading } := by
      rw [Reader.discard, if_pos rfl]
    rw [he]
    exact ⟨⟨h.size, h.read, fun _ => hz⟩, .resume ⟨hq, hd, rfl⟩ hp rfl (Reader.kept_eq_nil hz) rfl⟩
  · have he : r.discard c q =
        { r with queue := q, consumed := r.consumed ++ [c], dataread := r.dataread + 1 } := by
      rw [Reader.discard, if_neg hc]
    rw [he]
    exact ⟨⟨h.size, hd, fun _ => hz⟩, .discard ⟨hq, hd, rfl⟩ hc hp hp rfl⟩

theorem tick_reading (hp : r.phase = .reading) (hr : ¬Ready r) : r.tick = some { r with phase := .idle } := by
  cases r with
  | mk queue buffer bufferSize dataread phase consumed calls =>
      subst hp
      cases queue with
      | nil => rfl
      | cons c q => exact if_neg fun hd => hr ⟨List.cons_ne_nil _ _, hd⟩

theorem tick_flushing (hp : r.phase = .flushing) (hr : ¬Ready r) : r.tick = some { r with phase := .reading } := by
  cases r with
  | mk queue buffer bufferSize dataread phase consumed calls =>
      subst hp
      cases queue with
      | nil => rfl
      | cons c q => exact if_neg fun hd => hr ⟨List.cons_ne_nil _ _, hd⟩

/-- どの一歩も、外に書かずに終わる。 -/
theorem tick_move (h : Safe r) : ∃ r', r.tick = some r' ∧ Safe r' ∧ Move r r' := by
  cases hp : r.phase with
  | idle =>
      refine ⟨{ r with dataread := 0, phase := .reading }, ?_, ⟨h.size, Nat.zero_le _, fun hf => by cases hf⟩, ?_⟩
      · simp only [Reader.tick, hp]
      · exact .enter ⟨rfl, rfl, rfl, rfl⟩ hp rfl rfl
  | reading =>
      by_cases hr : Ready r
      · obtain ⟨c, q, hq⟩ := List.exists_cons_of_ne_nil hr.1
        simp only [Reader.tick, hp, hq, if_pos hr.2]
        exact receive_move h hp hq hr.2
      · exact ⟨_, tick_reading hp hr, ⟨h.size, h.read, fun hf => by cases hf⟩,
          .leave ⟨rfl, rfl, rfl, rfl⟩ hp rfl hr⟩
  | flushing =>
      by_cases hr : Ready r
      · obtain ⟨c, q, hq⟩ := List.exists_cons_of_ne_nil hr.1
        simp only [Reader.tick, hp, hq, if_pos hr.2]
        exact ⟨_, rfl, discard_move h hp hq hr.2⟩
      · exact ⟨_, tick_flushing hp hr, ⟨h.size, h.read, fun hf => by cases hf⟩,
          .abandon ⟨rfl, rfl, rfl, rfl⟩ hp rfl hr⟩

end Tick

/-! ## 読み進み -/

section Progress

variable {r r' : Reader}

theorem Reads.stream {c : UInt8} (h : Reads c r r') : r'.consumed ++ r'.queue = r.consumed ++ r.queue := by
  rw [h.consumed, h.queue, List.append_assoc, List.singleton_append]

theorem Pauses.stream (h : Pauses r r') : r'.consumed ++ r'.queue = r.consumed ++ r.queue := by
  rw [h.consumed, h.queue]

/-- 届いたバイトは、失われも、入れ替わりもしない。 -/
theorem Move.stream (h : Move r r') : r'.consumed ++ r'.queue = r.consumed ++ r.queue := by
  cases h with
  | enter hs => exact hs.stream
  | leave hs => exact hs.stream
  | abandon hs => exact hs.stream
  | keep hr => exact hr.stream
  | line hr => exact hr.stream
  | overflow hr => exact hr.stream
  | discard hr => exact hr.stream
  | resume hr => exact hr.stream

/-- 待ち行列が空になって `processCommands` が戻るまでの歩数の限り。 -/
def due (r : Reader) : Nat :=
  4 * r.queue.length +
    match r.phase with
    | .idle => if r.queue = [] then 0 else 1
    | .reading => if Ready r then 0 else 2
    | .flushing => if Ready r then 0 else 3

theorem due_le (r : Reader) : due r ≤ 4 * r.queue.length + 3 := by
  unfold due
  split
  all_goals split
  all_goals omega

theorem Reads.due_lt {c : UInt8} (h : Reads c r r') : due r' < due r := by
  have hle := due_le r'
  have hlen : r.queue.length = r'.queue.length + 1 := by rw [h.queue, List.length_cons]
  have hge : 4 * r.queue.length ≤ due r := Nat.le_add_right _ _
  omega

theorem Move.due_lt (h : Move r r') (hn : ¬(r.phase = .idle ∧ r.queue = [])) : due r' < due r := by
  cases h with
  | enter hs hp hp' hd =>
      have hq : r.queue ≠ [] := fun hq => hn ⟨hp, hq⟩
      have hr : Ready r' := ⟨hs.queue ▸ hq, hd ▸ Nat.zero_lt_succ _⟩
      simp only [due, hp, hp', hs.queue, hq, hr, if_true, if_false]
      omega
  | leave hs hp hp' hr =>
      simp only [due, hp, hp', hs.queue, hr, if_false]
      split
      all_goals omega
  | abandon hs hp hp' hr =>
      simp only [due, hp, hp', hs.queue, hr, if_false]
      split
      all_goals omega
  | keep hr => exact hr.due_lt
  | line hr => exact hr.due_lt
  | overflow hr => exact hr.due_lt
  | discard hr => exact hr.due_lt
  | resume hr => exact hr.due_lt

theorem drains (h : Safe r) :
    ∃ n r', Run.run step (List.replicate n .tick) r = some r' ∧ Safe r' ∧ r'.phase = .idle ∧ r'.queue = [] := by
  have hstep : ∀ r, Safe r → ¬(r.phase = .idle ∧ r.queue = []) →
      ∃ r', step .tick r = some r' ∧ Safe r' ∧ due r' < due r := by
    intro r hs hn
    obtain ⟨r', ht, hs', hm⟩ := tick_move hs
    exact ⟨r', ht, hs', hm.due_lt hn⟩
  exact Run.run_reaches hstep r h

theorem step_safe (h : Safe r) (op : Op) :
    ∃ r', step op r = some r' ∧ Safe r' ∧ r'.consumed ++ r'.queue = r.consumed ++ r.queue ++ arrivals [op] := by
  cases op with
  | arrive bs => exact ⟨_, rfl, ⟨h.size, h.read, h.flush⟩, by simp [Reader.arrive, arrivals]⟩
  | tick =>
      obtain ⟨r', ht, hs, hm⟩ := tick_move h
      exact ⟨r', ht, hs, by rw [hm.stream, arrivals, arrivals, List.append_nil]⟩

theorem arrivals_cons (op : Op) (ops : List Op) : arrivals (op :: ops) = arrivals [op] ++ arrivals ops := by
  cases op with
  | arrive bs => simp [arrivals]
  | tick => rfl

theorem arrivals_append_ticks (ops : List Op) (n : Nat) :
    arrivals (ops ++ List.replicate n .tick) = arrivals ops := by
  induction ops with
  | nil =>
      induction n with
      | zero => rfl
      | succ n ih => exact ih
  | cons op ops ih => rw [List.cons_append, arrivals_cons, ih, ← arrivals_cons]

theorem run_safe (h : Safe r) (ops : List Op) :
    ∃ r', Run.run step ops r = some r' ∧ Safe r' ∧
      r'.consumed ++ r'.queue = r.consumed ++ r.queue ++ arrivals ops := by
  induction ops generalizing r with
  | nil => exact ⟨r, rfl, h, (List.append_nil _).symm⟩
  | cons op ops ih =>
      obtain ⟨t, ht, hs, hc⟩ := step_safe h op
      obtain ⟨r', hr, hs', hc'⟩ := ih hs
      exact ⟨r', Run.run_cons.mpr ⟨t, ht, hr⟩, hs', by rw [hc', hc, arrivals_cons op ops, List.append_assoc]⟩

end Progress

end Wagman.Text
