import Wagman.Text.Lemmas.Reader

/-!
# 行への分割

どの行も `'\n'` の前に 78 バイトまでなら、`processCommand` に渡される行は、バイトの届き方によらない。

長すぎる行は、`bufferSize` が 80 に達したときに捨てられ、続きは内側の繰り返しで読み捨てられる。読み捨ての途中であることはどこにも
残らないので、行の途中でバイトが尽きるか読む数の限りに達すると、残りは新しい行になる。逆に、80 バイト目が `'\n'` のときは、続きの
ない行の後に次の行が読み捨てられる。
-/

namespace Wagman.Text

open Lines (lines rest)

/-- 渡される行の長さの限り。`'\n'` を含む。 -/
def lineLimit : Nat := 79

/-- 長すぎない行。 -/
def shortLines (xs : List UInt8) : List (List UInt8) :=
  (lines newline xs).filter fun l => decide (l.length ≤ lineLimit)

/-! ## 不変条件 -/

/-- 読まれたバイトと、渡された行の対応。読み捨ての途中では、読んでいる行は限りを超えているか、ちょうど終わっている。 -/
structure Sound (r : Reader) : Prop extends Safe r where
  calls : r.calls = (shortLines r.consumed).map call
  kept : r.phase ≠ .flushing → r.kept = rest newline r.consumed
  long : r.phase = .flushing → rest newline r.consumed = [] ∨ lineLimit < (rest newline r.consumed).length

/-- 読み捨ての繰り返しの条件は、行の途中であるちょうどそのときに成り立つ。 -/
def Aligned : Op → Reader → Prop
  | .arrive _, _ => True
  | .tick, r => r.phase = .flushing → (rest newline r.consumed ≠ [] ↔ Ready r)

instance Aligned.decidable : (op : Op) → (r : Reader) → Decidable (Aligned op r)
  | .arrive _, _ => isTrue trivial
  | .tick, _ => inferInstanceAs (Decidable (_ → _))

theorem sound_start : Sound {} := ⟨⟨by decide, by decide, fun _ => rfl⟩, rfl, fun _ => rfl, fun h => by cases h⟩

section ShortLines

variable {xs : List UInt8} {c : UInt8}

theorem shortLines_snoc_of_ne (h : c ≠ newline) : shortLines (xs ++ [c]) = shortLines xs := by
  rw [shortLines, Lines.lines_snoc_of_ne newline xs h, shortLines]

theorem shortLines_snoc_short (h : (rest newline xs).length < lineLimit) :
    shortLines (xs ++ [newline]) = shortLines xs ++ [rest newline xs ++ [newline]] := by
  have hl : (rest newline xs ++ [newline]).length ≤ lineLimit := by
    rw [List.length_append, List.length_singleton]
    omega
  rw [shortLines, Lines.lines_snoc_self, List.filter_append, List.filter_singleton, decide_eq_true hl, shortLines]
  rfl

theorem shortLines_snoc_long (h : lineLimit ≤ (rest newline xs).length) :
    shortLines (xs ++ [newline]) = shortLines xs := by
  have hl : ¬(rest newline xs ++ [newline]).length ≤ lineLimit := by
    rw [List.length_append, List.length_singleton]
    omega
  rw [shortLines, Lines.lines_snoc_self, List.filter_append, List.filter_singleton, decide_eq_false hl, shortLines]
  exact List.append_nil _

end ShortLines

section Step

variable {r r' : Reader}

theorem Pauses.sound (h : Pauses r r') (hs : Sound r) (hs' : Safe r') (hp' : r'.phase ≠ .flushing)
    (hk : r.kept = rest newline r.consumed) : Sound r' :=
  ⟨hs', by rw [h.calls, h.consumed, hs.calls], fun _ => by rw [h.kept, h.consumed, hk], fun hf => absurd hf hp'⟩

theorem Reads.long {c : UInt8} (h : Reads c r r') (hs : Sound r) (hp : r.phase = .flushing) (ha : Aligned .tick r) :
    lineLimit < (rest newline r.consumed).length := by
  have hr : Ready r := ⟨by rw [h.queue]; exact List.cons_ne_nil _ _, h.budget⟩
  rcases hs.long hp with hnil | hlong
  · exact absurd hnil ((ha hp).mpr hr)
  · exact hlong

theorem Move.sound (h : Move r r') (hs : Sound r) (hs' : Safe r') (ha : Aligned .tick r) : Sound r' := by
  cases h with
  | enter hp h h' => exact hp.sound hs hs' (by rw [h']; nofun) (hs.kept (by rw [h]; nofun))
  | leave hp h h' => exact hp.sound hs hs' (by rw [h']; nofun) (hs.kept (by rw [h]; nofun))
  | abandon hp h h' hr =>
      -- 行の途中では条件が成り立つので、行はちょうど終わっている
      have hnil : rest newline r.consumed = [] := by
        by_contra hne
        exact hr ((ha h).mp hne)
      exact hp.sound hs hs' (by rw [h']; nofun) (by rw [Reader.kept_eq_nil (hs.flush h), hnil])
  | keep hr hc h h' hk hcalls =>
      refine ⟨hs', ?_, fun _ => ?_, fun hf => by rw [h'] at hf; cases hf⟩
      · rw [hcalls, hr.consumed, shortLines_snoc_of_ne hc, hs.calls]
      · rw [hk, hr.consumed, Lines.rest_snoc_of_ne newline _ hc, hs.kept (by rw [h]; nofun)]
  | line hr h h' hsize hk hcalls =>
      have hkept := hs.kept (by rw [h]; nofun)
      have hlen : (rest newline r.consumed).length < lineLimit := by
        rw [← hkept, Reader.length_kept]
        simp only [bufferCapacity, lineLimit] at *
        omega
      refine ⟨hs', ?_, fun _ => ?_, fun hf => by rw [h'] at hf; cases hf⟩
      · rw [hcalls, hr.consumed, shortLines_snoc_short hlen, hkept, hs.calls, List.map_append, List.map_singleton]
      · rw [hk, hr.consumed, Lines.rest_snoc_self]
  | @overflow c hr h h' hsize hcalls =>
      have hlen : (rest newline r.consumed).length = lineLimit := by
        rw [← hs.kept (by rw [h]; nofun), Reader.length_kept]
        simp only [bufferCapacity, lineLimit] at *
        omega
      by_cases hc : c = newline
      · subst hc
        refine ⟨hs', ?_, fun hf => absurd h' hf, fun _ => .inl ?_⟩
        · rw [hcalls, hr.consumed, shortLines_snoc_long (Nat.le_of_eq hlen.symm), hs.calls]
        · rw [hr.consumed, Lines.rest_snoc_self]
      · refine ⟨hs', ?_, fun hf => absurd h' hf, fun _ => .inr ?_⟩
        · rw [hcalls, hr.consumed, shortLines_snoc_of_ne hc, hs.calls]
        · rw [hr.consumed, Lines.rest_snoc_of_ne newline _ hc, List.length_append, hlen]
          exact Nat.lt_succ_self _
  | discard hr hc h h' hcalls =>
      refine ⟨hs', ?_, fun hf => absurd h' hf, fun _ => .inr ?_⟩
      · rw [hcalls, hr.consumed, shortLines_snoc_of_ne hc, hs.calls]
      · rw [hr.consumed, Lines.rest_snoc_of_ne newline _ hc, List.length_append]
        exact Nat.lt_of_lt_of_le (hr.long hs h ha) (Nat.le_add_right _ _)
  | resume hr h h' hk hcalls =>
      refine ⟨hs', ?_, fun _ => ?_, fun hf => by rw [h'] at hf; cases hf⟩
      · rw [hcalls, hr.consumed, shortLines_snoc_long (Nat.le_of_lt (hr.long hs h ha)), hs.calls]
      · rw [hk, hr.consumed, Lines.rest_snoc_self]

theorem step_sound {op : Op} (hs : Sound r) (ha : Aligned op r) (h : step op r = some r') : Sound r' := by
  cases op with
  | arrive bs =>
      cases h
      exact ⟨⟨hs.size, hs.read, hs.flush⟩, hs.calls, hs.kept, hs.long⟩
  | tick =>
      obtain ⟨t, ht, hst, hm⟩ := tick_move hs.toSafe
      rw [step, ht] at h
      cases h
      exact hm.sound hs hst ha

end Step

/-! ## 長すぎない行 -/

/-- 行が限りを超えないなら、読み捨ては始まらない。 -/
theorem Move.phase_ne {r r' : Reader} (h : Move r r') (hs : Sound r) (hp : r.phase ≠ .flushing)
    (hb : Lines.Bounded newline lineLimit (r.consumed ++ r.queue)) : r'.phase ≠ .flushing := by
  cases h with
  | enter _ _ h' => rw [h']; nofun
  | leave _ _ h' => rw [h']; nofun
  | abandon _ _ h' => rw [h']; nofun
  | keep _ _ _ h' => rw [h']; nofun
  | line _ _ h' => rw [h']; nofun
  | overflow hr _ _ hsize =>
      rw [hr.queue] at hb
      have hlt := Lines.Bounded.rest_length_lt newline hb
      rw [← hs.kept hp, Reader.length_kept] at hlt
      simp only [bufferCapacity, lineLimit] at *
      omega
  | discard _ _ h => exact absurd h hp
  | resume _ h => exact absurd h hp

/-- 届くバイトの全体で行が限りを超えないなら、途中のどの状態でも超えない。 -/
theorem meets_bounded {r : Reader} (hs : Safe r) {ops : List Op}
    (hb : Lines.Bounded newline lineLimit (r.consumed ++ r.queue ++ arrivals ops)) :
    Run.Meets step (fun _ r => Lines.Bounded newline lineLimit (r.consumed ++ r.queue)) ops r := by
  induction ops generalizing r with
  | nil => trivial
  | cons op ops ih =>
      refine ⟨Lines.Bounded.of_append newline hb, fun t ht => ?_⟩
      obtain ⟨t', ht', hst, hstream⟩ := step_safe hs op
      rw [ht] at ht'
      cases ht'
      refine ih hst ?_
      rwa [hstream, List.append_assoc, ← arrivals_cons]

/-- 行が限りを超えない実行では、読み捨ては始まらず、渡された行は読まれた行のすべてである。 -/
theorem run_sound_of_bounded {r r' : Reader} {ops : List Op} (h : Run.run step ops r = some r') (hs : Sound r)
    (hp : r.phase ≠ .flushing) (hb : Lines.Bounded newline lineLimit (r.consumed ++ r.queue ++ arrivals ops)) :
    Sound r' ∧ r'.phase ≠ .flushing := by
  refine Run.run_induct_of_meets (P := fun r => Sound r ∧ r.phase ≠ .flushing) ?_ h
    (meets_bounded hs.toSafe hb) ⟨hs, hp⟩
  rintro op s s' hbs ⟨hss, hsp⟩ hstep
  cases op with
  | arrive bs =>
      have ha : Aligned (.arrive bs) s := trivial
      refine ⟨step_sound hss ha hstep, ?_⟩
      cases hstep
      exact hsp
  | tick =>
      have ha : Aligned .tick s := fun hf => absurd hf hsp
      refine ⟨step_sound hss ha hstep, ?_⟩
      obtain ⟨t, ht, hst, hm⟩ := tick_move hss.toSafe
      rw [step, ht] at hstep
      cases hstep
      exact hm.phase_ne hss hsp hbs

theorem run_framed {ops : List Op} (hb : Lines.Bounded newline lineLimit (arrivals ops)) :
    ∃ r, Run.run step ops {} = some r ∧ Safe r ∧ r.consumed ++ r.queue = arrivals ops ∧
      r.calls = (lines newline r.consumed).map call ∧ r.kept = rest newline r.consumed := by
  obtain ⟨r, hr, hsafe, hstream⟩ := run_safe sound_start.toSafe ops
  obtain ⟨hs, hp⟩ := run_sound_of_bounded hr sound_start (by nofun) hb
  have hbr : Lines.Bounded newline lineLimit (r.consumed ++ r.queue) := by rwa [hstream]
  refine ⟨r, hr, hsafe, hstream, ?_, hs.kept hp⟩
  rw [hs.calls, shortLines, Lines.filter_lines_of_bounded newline (Lines.Bounded.of_append newline hbr)]

/-- どの行も `'\n'` の前に 78 バイトまでなら、届き方によらず、読まれた行のそれぞれについて順に一度ずつ `processCommand` が呼ばれ、
終わっていない行は残る。呼び続ければ、届いた行のすべてについて呼ばれる。 -/
theorem lines_framed (ops : List Op) (hb : Lines.Bounded newline lineLimit (arrivals ops)) :
    ∃ r, Run.run step ops {} = some r ∧ r.bufferSize < bufferCapacity ∧ r.consumed ++ r.queue = arrivals ops ∧
      r.calls = (lines newline r.consumed).map call ∧
      (∀ l ∈ lines newline r.consumed, ∃ body, l = body ++ [newline] ∧ newline ∉ body) ∧ newline ∉ r.kept ∧
      (lines newline r.consumed).flatten ++ r.kept = r.consumed ∧
      ∃ n r', Run.run step (ops ++ List.replicate n .tick) {} = some r' ∧ r'.phase = .idle ∧ r'.queue = [] ∧
        r'.calls = (lines newline (arrivals ops)).map call ∧ r'.kept = rest newline (arrivals ops) := by
  obtain ⟨r, hr, hsafe, hstream, hcalls, hkept⟩ := run_framed hb
  obtain ⟨n, r', hr', -, hp', hq⟩ := drains hsafe
  have harr : arrivals (ops ++ List.replicate n .tick) = arrivals ops := arrivals_append_ticks ops n
  rw [← harr] at hb
  obtain ⟨t, ht, -, hstream', hcalls', hkept'⟩ := run_framed hb
  rw [Run.run_append.mpr ⟨r, hr, hr'⟩] at ht
  cases ht
  rw [hq, List.append_nil, harr] at hstream'
  rw [hstream'] at hcalls' hkept'
  refine ⟨r, hr, hsafe.size, hstream, hcalls, fun l hl => Lines.eq_append_of_mem_lines newline hl, ?_, ?_,
    n, r', Run.run_append.mpr ⟨r, hr, hr'⟩, hp', hq, hcalls', hkept'⟩
  · rw [hkept]
    exact Lines.notMem_rest newline _
  · rw [hkept]
    exact Lines.flatten_lines_append_rest newline _

/-- 行の途中で切れて届いた二つの行。 -/
theorem lines_framed_split :
    ∃ n r, Run.run step ([.arrive [105, 100], .tick, .tick, .tick, .arrive [10, 98]] ++ List.replicate n .tick) {} =
        some r ∧
      r.calls = [call [105, 100, 10]] ∧ r.kept = [98] := by
  obtain ⟨-, -, -, -, -, -, -, -, n, r, hr, -, -, hcalls, hkept⟩ :=
    lines_framed [.arrive [105, 100], .tick, .tick, .tick, .arrive [10, 98]] ⟨by decide, by decide⟩
  exact ⟨n, r, hr, hcalls, hkept⟩

/-! ## 長すぎる行 -/

theorem run_dropped {ops : List Op} (ha : Run.Meets step Aligned ops {}) :
    ∃ r, Run.run step ops {} = some r ∧ Safe r ∧ r.consumed ++ r.queue = arrivals ops ∧
      r.calls = (shortLines r.consumed).map call := by
  obtain ⟨r, hr, hsafe, hstream⟩ := run_safe sound_start.toSafe ops
  have hs : Sound r := Run.run_induct_of_meets (fun _ _ _ hC hP h => step_sound hP hC h) hr ha sound_start
  exact ⟨r, hr, hsafe, hstream, hs.calls⟩

/-- 読み捨ての繰り返しの条件が、行の途中であるちょうどそのときに成り立つ実行では、`processCommand` は、読まれた行のうち長すぎない
もののそれぞれについて順に一度ずつ呼ばれ、ほかには呼ばれない。呼び続ければ、届いたバイトはすべて読まれる。 -/
theorem overlong_dropped (ops : List Op) (ha : Run.Meets step Aligned ops {}) :
    ∃ r, Run.run step ops {} = some r ∧ r.consumed ++ r.queue = arrivals ops ∧
      r.calls = (shortLines r.consumed).map call ∧
      ∃ n r', Run.run step (ops ++ List.replicate n .tick) {} = some r' ∧ r'.phase = .idle ∧ r'.queue = [] ∧
        (Run.Meets step Aligned (ops ++ List.replicate n .tick) {} →
          r'.calls = (shortLines (arrivals ops)).map call) := by
  obtain ⟨r, hr, hsafe, hstream, hcalls⟩ := run_dropped ha
  obtain ⟨n, r', hr', -, hp', hq⟩ := drains hsafe
  have hrun : Run.run step (ops ++ List.replicate n .tick) {} = some r' := Run.run_append.mpr ⟨r, hr, hr'⟩
  refine ⟨r, hr, hstream, hcalls, n, r', hrun, hp', hq, fun ha' => ?_⟩
  obtain ⟨t, ht, -, hstream', hcalls'⟩ := run_dropped ha'
  rw [hrun] at ht
  cases ht
  rw [hq, List.append_nil, arrivals_append_ticks] at hstream'
  rw [hcalls', hstream']

/-- 81 バイトと `'\n'` の行が途中で切れずに届き、その後に短い行が続く。 -/
theorem overlong_dropped_whole :
    ∃ r, Run.run step (.arrive (List.replicate 81 97 ++ [10, 98, 10]) :: List.replicate 86 .tick) {} = some r ∧
      r.calls = [call [98, 10]] := by
  obtain ⟨r, hr, hstream, hcalls, -⟩ := overlong_dropped
    (.arrive (List.replicate 81 97 ++ [10, 98, 10]) :: List.replicate 86 .tick) (by decide +kernel)
  have hq : (Run.run step (.arrive (List.replicate 81 97 ++ [10, 98, 10]) :: List.replicate 86 .tick) {}).map
    (·.queue) = some [] := by decide +kernel
  rw [hr] at hq
  have hnil : r.queue = [] := Option.some.inj hq
  rw [hnil, List.append_nil] at hstream
  refine ⟨r, hr, ?_⟩
  rw [hcalls, hstream]
  decide +kernel

/-- 80 バイト目で行が終わると、次の短い行が捨てられる。80 バイト読んだところでバイトが尽きると、続きが渡される。 -/
theorem short_line_lost_and_tail_passed :
    (Run.run step (.arrive (List.replicate 79 97 ++ [10, 98, 10]) :: List.replicate 84 .tick) {}).map
        (fun r => (r.consumed, r.calls)) = some (List.replicate 79 97 ++ [10, 98, 10], []) ∧
      shortLines (List.replicate 79 97 ++ [10, 98, 10]) = [[98, 10]] ∧
    (Run.run step
        (.arrive (List.replicate 80 97) :: List.replicate 82 .tick ++ .arrive [98, 10] :: List.replicate 3 .tick) {}).map
        (fun r => (r.consumed, r.calls)) = some (List.replicate 80 97 ++ [98, 10], [call [98, 10]]) ∧
      shortLines (List.replicate 80 97 ++ [98, 10]) = [] := by
  decide +kernel

end Wagman.Text
