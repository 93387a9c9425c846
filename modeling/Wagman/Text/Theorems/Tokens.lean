import Wagman.Text.Lemmas.Tokens

/-!
# 引数の位置と `executeCommand`

繰り返しは必ず終わり、`argv` の初めの `argc` 個は、終端より前の図形文字の極大な並びを順に指す。読み書きは終端の外に出ない。
`executeCommand` は、引数が `@` で始まる一つだけの行を除いて、その行の引数だけを読む。
-/

namespace Wagman.Text

open V3 (maxArgc scanArgs splitArgs arg)

section Line

variable {b : Buffer} {l : List UInt8}

/-! ## 並びとしての分割との一致 -/

theorem scanArgs_eq_texts (room : Nat) {fuel : Nat} (hf : l.length < fuel) :
    scanArgs fuel room l = (Words.texts isgraph false l).take room := by
  induction fuel generalizing room l with
  | zero => omega
  | succ fuel ih =>
      cases room with
      | zero => rfl
      | succ room =>
          have hskip := Words.texts_dropWhile (q := isspace) (p := isgraph) (fun _ => isgraph_of_isspace) l
          have hlen : (l.dropWhile isspace).length ≤ l.length := (List.dropWhile_sublist _).length_le
          rw [scanArgs_succ, ← hskip, Words.texts_eq]
          generalize l.dropWhile isspace = l at hlen
          have hlen' : (l.dropWhile isgraph).length ≤ l.length := (List.dropWhile_sublist _).length_le
          have hhead := List.head?_dropWhile_not isgraph l
          cases hd : l.dropWhile isgraph with
          | nil =>
              by_cases ha : l.takeWhile isgraph = []
              · simp [ha, Words.texts]
              · simp [ha, Words.texts]
          | cons c rest =>
              -- 並びの直後の一文字は、次の並びに入らない
              rw [hd] at hhead hlen'
              rw [List.length_cons] at hlen'
              have hc : isgraph c = false := by simpa using hhead
              have hfuel : rest.length < fuel := by omega
              rw [Words.texts_of_not false hc]
              by_cases ha : l.takeWhile isgraph = []
              · rw [if_pos ha, List.nil_append, List.nil_append, if_pos ha]
                exact ih (room + 1) hfuel
              · rw [if_neg ha, List.singleton_append, List.singleton_append, List.take_succ_cons, if_neg ha]
                exact congrArg _ (ih room hfuel)

/-- 並びを分ける `processCommand` が得る引数は、極大な並びの初めの `maxArgc` 個の中身である。 -/
theorem processCommand_words (h : Holds b 0 l) :
    ∃ b', processCommand b = some (((Words.words isgraph l).map Prod.snd).take maxArgc, b') := by
  obtain ⟨b', hb'⟩ := processCommand_eq h
  refine ⟨b', ?_⟩
  rw [hb', Words.map_snd_words, scanArgs_eq_texts maxArgc (Nat.lt_succ_self _)]

/-! ## 引数の位置 -/

/-- 終端のあるどのバッファーでも繰り返しは終わり、`argv` は極大な並びを順に指し、読み書きは終端の外に出ない。 -/
theorem tokenize_exact (h : Holds b 0 l) :
    ∃ t, Ends b t ∧ t.argc = min maxArgc (Words.words isgraph l).length ∧
      (∀ k < t.argc, ∃ i w, t.argv k = some i ∧ (Words.words isgraph l)[k]? = some (i, w) ∧ Holds t.buffer i w) ∧
      (∀ i ∈ t.writes, i < l.length) ∧ (∀ i ∈ t.reads, i ≤ l.length) ∧
      ∀ i, i ∉ t.writes → t.buffer i = b i := by
  obtain ⟨t, ⟨n, hrun, hdone⟩, hinv⟩ := exists_ends h
  have hs := (hinv.of_done hdone).1
  refine ⟨t, ⟨n, hrun, hdone⟩, argc_of_done hinv hdone, fun k hk => ?_, hs.writes, hs.reads, hs.frame⟩
  obtain ⟨i, hargv, hword, hholds⟩ := argv_of_done hinv hdone hk
  exact ⟨i, _, hargv, hword, hholds⟩

/-- `" ab\x01@c"` -/
def sampleLine : List UInt8 := [0x20, 0x61, 0x62, 1, 0x40, 0x63]

/-- 並びの後に終端のあるバッファー。 -/
def bufferOf (l : List UInt8) : Buffer := fun i => l.getD i 0

theorem tokenize_exact_sample :
    ∃ t, Ends (bufferOf sampleLine) t ∧ t.argc = 2 ∧ t.argv 0 = some 1 ∧ t.argv 1 = some 4 := by
  have hline : Holds (bufferOf sampleLine) 0 sampleLine := by simp [Holds, bufferOf, sampleLine, bufferCapacity]
  have hwords : Words.words isgraph sampleLine = [(1, [0x61, 0x62]), (4, [0x40, 0x63])] := by decide
  obtain ⟨t, ht, hargc, hargv, -⟩ := tokenize_exact hline
  rw [hwords] at hargc hargv
  have htwo : t.argc = 2 := hargc
  obtain ⟨i, w, hi, hw, -⟩ := hargv 0 (by omega)
  obtain ⟨j, w', hj, hw', -⟩ := hargv 1 (by omega)
  simp only [List.getElem?_cons_zero, List.getElem?_cons_succ, Option.some.injEq, Prod.mk.injEq] at hw hw'
  exact ⟨t, ht, htwo, hw.1 ▸ hi, hw'.1 ▸ hj⟩

end Line

/-- 終わったときの `argv` は、`processCommand` の得る引数を順に指す。 -/
theorem Ends.argv_eq {b : Buffer} {l : List UInt8} {t : Tokenizer} (ht : Ends b t) (h : Holds b 0 l) :
    ∃ args b', processCommand b = some (args, b') ∧ args.length = t.argc ∧
      ∀ k < t.argc, ∃ i w, t.argv k = some i ∧ args[k]? = some w ∧ Holds t.buffer i w := by
  have hinv := ht.inv h
  obtain ⟨n, -, hdone⟩ := ht
  obtain ⟨b', hb'⟩ := processCommand_words h
  refine ⟨_, b', hb', ?_, fun k hk => ?_⟩
  · rw [List.length_take, List.length_map, argc_of_done hinv hdone]
  · obtain ⟨i, hargv, hword, hholds⟩ := argv_of_done hinv hdone hk
    refine ⟨i, _, hargv, ?_, hholds⟩
    rw [List.getElem?_take_of_lt (hk.trans_le hinv.1), List.getElem?_map, hword]
    rfl

/-! ## `executeCommand` の読む引数 -/

section Args

variable (env : V3.Env)

theorem eachArg_congr {argv argv' : List (List UInt8)} (hlen : argv.length = argv'.length)
    (h : ∀ k ∈ List.range' 1 (argv.length - 1), arg argv k = arg argv' k) (w : V3.World)
    (f : V3.Port → V3.World → V3.World) : V3.eachArg argv w f = V3.eachArg argv' w f := by
  have hdrop : argv.drop 1 = argv'.drop 1 := by
    refine List.ext_getElem (by rw [List.length_drop, List.length_drop, hlen]) fun i hi hi' => ?_
    rw [List.length_drop] at hi hi'
    have hk := h (1 + i) (by rw [List.mem_range'_1]; omega)
    rw [List.getElem_drop, List.getElem_drop]
    simpa only [arg, List.getD_eq_getElem?_getD, List.getElem?_eq_getElem (show 1 + i < argv.length by omega),
      List.getElem?_eq_getElem (show 1 + i < argv'.length by omega), Option.getD_some] using hk
  rw [V3.eachArg, V3.eachArg, hdrop]

/-- 各命令の結果は、`commandArgs` にある添字の引数だけで決まる。 -/
theorem func_congr (c : V3.Command) {argv argv' : List (List UInt8)} (hlen : argv.length = argv'.length)
    (h : ∀ k ∈ commandArgs c argv.length, arg argv k = arg argv' k) (w : V3.World) :
    c.func env argv w = c.func env argv' w := by
  cases c with
  | rtc | id | cu | hb | env | th | bf | fc | up | eereset | boots | ver => rfl
  | ping =>
      simp only [V3.Command.func, V3.commandPing, ← hlen]
      by_cases hl : argv.length = 2
      · rw [h 1 (by simp [commandArgs, hl])]
      · rw [if_pos hl, if_pos hl]
  | start =>
      simp only [V3.Command.func, V3.commandStart, ← hlen]
      by_cases hl : argv.length = 2
      · rw [h 1 (by simp [commandArgs, hl])]
      · rw [if_pos hl, if_pos hl]
  | stop =>
      simp only [V3.Command.func, V3.commandStop, ← hlen]
      by_cases hl : argv.length ≤ 1
      · rw [if_pos hl, if_pos hl]
      · rw [if_neg hl, if_neg hl]
        by_cases hl' : argv.length = 3
        · rw [h 1 (by simp [commandArgs, hl']), h 2 (by simp [commandArgs, hl'])]
        · rw [h 1 (by simp [commandArgs, hl, hl'])]
          simp only [if_neg hl']
  | reset =>
      simp only [V3.Command.func, V3.commandReset, ← hlen]
      by_cases hl : argv.length = 2
      · rw [h 1 (by simp [commandArgs, hl])]
      · simp only [if_neg hl]
  | log =>
      simp only [V3.Command.func, V3.commandLog, ← hlen]
      by_cases hl : argv.length = 2
      · rw [h 1 (by simp [commandArgs, hl])]
      · rw [if_neg hl, if_neg hl]
  | blf =>
      simp only [V3.Command.func, V3.commandBLFlag, ← hlen]
      by_cases hl : argv.length = 2
      · rw [h 1 (by simp [commandArgs, hl])]
      · simp only [if_neg hl]
  | date =>
      simp only [V3.Command.func, V3.commandDate, ← hlen]
      by_cases hl : argv.length = 7
      · have hget : ∀ k ∈ [1, 2, 3, 4, 5, 6], arg argv k = arg argv' k := fun k hk =>
          h k (by simpa [commandArgs, hl] using hk)
        rw [hget 1 (by simp), hget 2 (by simp), hget 3 (by simp), hget 4 (by simp), hget 5 (by simp),
          hget 6 (by simp)]
      · simp only [if_neg hl]
  | bs =>
      simp only [V3.Command.func, V3.commandBootMedia, ← hlen]
      by_cases hl : argv.length = 3
      · rw [h 1 (by simp [commandArgs, hl]), h 2 (by simp [commandArgs, hl])]
      · by_cases hl' : argv.length = 2
        · rw [h 1 (by simp [commandArgs, hl'])]
          simp only [if_neg hl]
        · rw [if_pos ⟨hl', hl⟩, if_pos ⟨hl', hl⟩]
  | enable => exact congrArg (Prod.mk 0) (eachArg_congr hlen h w _)
  | disable => exact congrArg (Prod.mk 0) (eachArg_congr hlen h w _)
  | watch =>
      simp only [V3.Command.func, V3.commandWatch, ← hlen]
      by_cases hl : argv.length = 4
      · rw [h 1 (by simp [commandArgs, hl]), h 2 (by simp [commandArgs, hl]), h 3 (by simp [commandArgs, hl])]
      · rw [if_neg hl, if_neg hl]

theorem commandArgs_lt {c : V3.Command} {argc k : Nat} (hk : k ∈ commandArgs c argc) : k < argc := by
  cases c with
  | rtc | id | cu | hb | env | th | bf | fc | up | eereset | boots | ver => cases hk
  | enable | disable =>
      simp only [commandArgs, List.mem_range'_1] at hk
      omega
  | ping | start | reset | log | blf | date | watch =>
      simp only [commandArgs] at hk
      split at hk
      · simp only [List.mem_cons, List.not_mem_nil, or_false] at hk
        omega
      · cases hk
  | stop =>
      simp only [commandArgs] at hk
      split at hk
      · cases hk
      · split at hk
        · simp only [List.mem_cons, List.not_mem_nil, or_false] at hk
          omega
        · simp only [List.mem_cons, List.not_mem_nil, or_false] at hk
          omega
  | bs =>
      simp only [commandArgs] at hk
      split at hk
      · simp only [List.mem_cons, List.not_mem_nil, or_false] at hk
        omega
      · split at hk
        · simp only [List.mem_cons, List.not_mem_nil, or_false] at hk
          omega
        · cases hk

theorem executeArgs_lt {o : Option Handler} {argc k : Nat} (hargc : 1 ≤ argc) (hk : k ∈ executeArgs o argc) :
    k < argc := by
  rcases List.mem_cons.mp hk with rfl | hk
  · exact hargc
  · cases o with
    | none => cases hk
    | some handler =>
        cases handler with
        | command c => exact commandArgs_lt hk
        | sdinfo => cases hk

end Args

/-! ## 呼び出しの安全性 -/

/-- `argv[k]` は、行 `l` の引数を指す。 -/
def Call.Word (l : List UInt8) (c : Call) (k : Nat) : Prop :=
  ∃ i w, c.argv k = some i ∧ (i, w) ∈ Words.words isgraph l ∧ Holds c.buffer i w

/-- 引数が一つはあり、どの命令であっても、行 `l` の引数だけが読まれる。 -/
structure Call.Safe (l : List UInt8) (c : Call) : Prop where
  argc : 1 ≤ c.argc
  argv : ∀ k < c.argc, c.Word l k
  reads : ∀ o, ∀ k ∈ executeArgs o c.argc, c.Word l k

/-- 引数は一つで、`@` で始まる。 -/
def LoneSid (l : List UInt8) : Prop := ∃ i w, Words.words isgraph l = [(i, 0x40 :: w)]

theorem splitArgs_eq (line : List UInt8) :
    splitArgs line = ((Words.words isgraph (line.takeWhile (· ≠ 0))).map Prod.snd).take maxArgc := by
  rw [splitArgs, Words.map_snd_words]
  exact scanArgs_eq_texts maxArgc (Nat.lt_succ_self _)

/-- 名前だけの行でなければ、命令の結果は、値の定まっていない `argv[0]` に依らない。 -/
theorem processCommand_stale (env : V3.Env) {line : List UInt8} (hline : ¬LoneSid (line.takeWhile (· ≠ 0)))
    (stale stale' : List UInt8) (w : V3.World) :
    V3.processCommand env line stale w = V3.processCommand env line stale' w := by
  have hsplit := splitArgs_eq line
  rw [V3.processCommand, V3.processCommand]
  cases hargs : splitArgs line with
  | nil => rfl
  | cons a rest =>
      cases rest with
      | cons a' rest => rfl
      | nil =>
          by_cases hsid : a.head? = some 0x40
          · -- 引数が一つなら、並びも一つである
            rw [hargs] at hsplit
            exfalso
            apply hline
            cases hwords : Words.words isgraph (line.takeWhile (· ≠ 0)) with
            | nil => rw [hwords] at hsplit; cases hsplit
            | cons x words =>
                rw [hwords] at hsplit
                cases words with
                | cons y words => cases hsplit
                | nil =>
                    obtain ⟨v, rfl⟩ := List.head?_eq_some_iff.mp hsid
                    exact ⟨x.1, v, by rw [hwords, (List.cons.inj hsplit).1]⟩
          · simp only [if_neg hsid]
            rfl

section Dispatch

variable {b : Buffer} {l : List UInt8} {t : Tokenizer}

theorem Call.safe_of_argv {c : Call} (hargc : 1 ≤ c.argc) (h : ∀ k < c.argc, c.Word l k) : c.Safe l :=
  ⟨hargc, h, fun _ k hk => h k (executeArgs_lt hargc hk)⟩

theorem safe_iff_of_sid (hargc : t.argc = min maxArgc (Words.words isgraph l).length)
    (hargv : ∀ k < t.argc, ∃ i w, t.argv k = some i ∧ (Words.words isgraph l)[k]? = some (i, w) ∧ Holds t.buffer i w)
    {i : Nat} {w : List UInt8} (h : (Words.words isgraph l)[0]? = some (i, 0x40 :: w)) (sid : Option Nat) :
    (Call.mk sid (t.argc - 1) (fun k => t.argv (k + 1)) t.buffer).Safe l ↔ ¬LoneSid l := by
  constructor
  · rintro hsafe ⟨j, v, hlone⟩
    have hone : 1 ≤ t.argc - 1 := hsafe.argc
    rw [hargc, hlone, List.length_singleton] at hone
    exact absurd hone (by decide)
  · intro hlone
    have htwo : 2 ≤ t.argc := by
      rw [hargc]
      cases hw : Words.words isgraph l with
      | nil => rw [hw] at h; cases h
      | cons x rest =>
          rw [hw] at h
          cases rest with
          | nil => exact absurd ⟨i, w, by rw [hw, Option.some.inj h]⟩ hlone
          | cons y rest => exact Nat.le_min.mpr ⟨by decide, Nat.le_add_left 2 rest.length⟩
    refine Call.safe_of_argv (show 1 ≤ t.argc - 1 by omega) fun k (hk : k < t.argc - 1) => ?_
    obtain ⟨j, v, hj, hword, hholds⟩ := hargv (k + 1) (by omega)
    exact ⟨j, v, hj, List.mem_of_getElem? hword, hholds⟩

/-- `executeCommand` が行の引数だけを読むのは、引数が `@` で始まる一つだけでないちょうどそのときである。 -/
theorem dispatch_safe_iff (h : Holds b 0 l) :
    ∃ t o, Ends b t ∧ t.dispatch = some o ∧ ((∀ c, o = some c → c.Safe l) ↔ ¬LoneSid l) := by
  obtain ⟨t, ⟨n, hrun, hdone⟩, hinv⟩ := exists_ends h
  have hargc := argc_of_done hinv hdone
  have hargv : ∀ k < t.argc, ∃ i w, t.argv k = some i ∧ (Words.words isgraph l)[k]? = some (i, w) ∧
      Holds t.buffer i w := by
    intro k hk
    obtain ⟨i, hi, hword, hholds⟩ := argv_of_done hinv hdone hk
    exact ⟨i, _, hi, hword, hholds⟩
  by_cases hsome : 0 < t.argc
  · obtain ⟨i, w, hi, hword, hholds⟩ := hargv 0 hsome
    have hread := hholds.read
    by_cases hsid : w.headD 0 = 0x40
    · refine ⟨t, some ⟨some (i + 1), t.argc - 1, fun k => t.argv (k + 1), t.buffer⟩, ⟨n, hrun, hdone⟩, ?_, ?_⟩
      · rw [Tokenizer.dispatch, if_pos hsome]
        simp only [hi, hread, hsid, Option.bind_eq_bind, Option.bind_some, if_true]
      · obtain ⟨v, rfl⟩ : ∃ v, w = 0x40 :: v := by
          cases w with
          | nil => cases hsid
          | cons c v => exact ⟨v, congrArg (· :: v) hsid⟩
        rw [← safe_iff_of_sid hargc hargv hword (some (i + 1))]
        exact ⟨fun hall => hall _ rfl, fun hsafe c hc => Option.some.inj hc ▸ hsafe⟩
    · refine ⟨t, some ⟨none, t.argc, t.argv, t.buffer⟩, ⟨n, hrun, hdone⟩, ?_, ?_⟩
      · rw [Tokenizer.dispatch, if_pos hsome]
        simp only [hi, hread, hsid, Option.bind_eq_bind, Option.bind_some, if_false]
      · refine ⟨fun _ hlone => ?_, fun _ c hc => ?_⟩
        · obtain ⟨j, v, hlone⟩ := hlone
          rw [hlone] at hword
          cases hword
          exact hsid rfl
        · cases hc
          refine Call.safe_of_argv hsome fun k hk => ?_
          obtain ⟨j, v, hj, hword, hholds⟩ := hargv k hk
          exact ⟨j, v, hj, List.mem_of_getElem? hword, hholds⟩
  · refine ⟨t, none, ⟨n, hrun, hdone⟩, if_neg hsome, fun _ hlone => ?_, fun _ c hc => by cases hc⟩
    obtain ⟨j, v, hlone⟩ := hlone
    rw [hargc, hlone, List.length_singleton] at hsome
    exact hsome (by decide)

theorem dispatch_safe_iff_sample :
    ∃ t o, Ends (bufferOf sampleLine) t ∧ t.dispatch = some o ∧
      ((∀ c, o = some c → c.Safe sampleLine) ↔ ¬LoneSid sampleLine) :=
  dispatch_safe_iff (by simp [Holds, bufferOf, sampleLine, bufferCapacity])

/-- `"@x\n"` -/
def sidLine : List UInt8 := [0x40, 0x78, 0x0a]

/-- 名前だけの行では、引数の数は 0 であり、名前として、値の入っていない `argv[1]` が読まれる。 -/
theorem lone_sid_reads_unset :
    ∃ t c, Ends (bufferOf sidLine) t ∧ t.dispatch = some (some c) ∧ c.argc = 0 ∧ c.argv 0 = none ∧
      ¬c.Safe sidLine := by
  refine ⟨_, _, ⟨13, rfl, rfl⟩, rfl, rfl, rfl, fun hsafe => ?_⟩
  exact absurd hsafe.argc (by decide)

end Dispatch

end Wagman.Text
