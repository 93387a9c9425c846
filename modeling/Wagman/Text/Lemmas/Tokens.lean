import Wagman.Text.Tokens
import Wagman.Text.Lemmas.Command

/-!
# 繰り返しの不変条件

終端までの中身を `l` とする。`s` より後は元のままで、`s` より前では図形文字が元のまま残り、図形文字の並びの直後は `0` になっている。
`argv` には、これまでに始まった並びの位置が順に入る。
-/

namespace Wagman.Text

open V3 (maxArgc)
open Words (sat satBefore startsAt starts)

/-! ## 文字 -/

section Chars

variable {b : Buffer} {l : List UInt8} {s i : Nat} {c : UInt8}

theorem isgraph_of_isspace (h : isspace c = true) : isgraph c = false := by
  simp only [isspace, isgraph, Bool.or_eq_true, beq_iff_eq, Bool.and_eq_true, decide_eq_true_eq,
    Bool.and_eq_false_iff, decide_eq_false_iff_not, UInt8.le_iff_toNat_le, ← UInt8.toNat_inj] at h ⊢
  simp only [UInt8.reduceToNat] at h ⊢
  omega

/-- `*s` の値。 -/
def charAt (l : List UInt8) (i : Nat) : UInt8 := (l[i]?).getD 0

theorem sat_eq (p : UInt8 → Bool) (hp : p 0 = false) (l : List UInt8) (i : Nat) :
    sat p l i = p (charAt l i) := by
  rw [sat, charAt]
  cases l[i]? with
  | none => exact hp.symm
  | some c => rfl

theorem isgraph_charAt (l : List UInt8) (i : Nat) : isgraph (charAt l i) = sat isgraph l i :=
  (sat_eq isgraph rfl l i).symm

theorem lt_of_isspace (h : isspace (charAt l i) = true) : i < l.length :=
  Words.sat_lt (p := isspace) (sat_eq isspace rfl l i ▸ h)

theorem Holds.read_drop (h : Holds b s (l.drop s)) : b.read s = some (charAt l s) := by
  rw [h.read, List.headD_eq_head?_getD, List.head?_drop]
  rfl

theorem Holds.succ_drop (h : Holds b s (l.drop s)) (hs : s < l.length) :
    b s = charAt l s ∧ charAt l s ≠ 0 ∧ Holds b (s + 1) (l.drop (s + 1)) := by
  rw [List.drop_eq_getElem_cons hs] at h
  rw [charAt, List.getElem?_eq_getElem hs]
  exact ⟨h.2.1, h.1, h.2.2⟩

end Chars

/-! ## 不変条件 -/

/-- 終端までが `l` であったバッファー `b` から進んだ状態。`n` より前で始まる並びが見つかっている。 -/
structure Scanned (b : Buffer) (l : List UInt8) (n : Nat) (t : Tokenizer) : Prop where
  pos : t.s ≤ l.length
  rest : Holds t.buffer t.s (l.drop t.s)
  kept : ∀ i < t.s, sat isgraph l i = true → t.buffer i = charAt l i
  ended : ∀ i, i + 1 < t.s → sat isgraph l i = true → sat isgraph l (i + 1) = false → t.buffer (i + 1) = 0
  frame : ∀ i, i ∉ t.writes → t.buffer i = b i
  reads : ∀ i ∈ t.reads, i ≤ l.length
  writes : ∀ i ∈ t.writes, i < l.length
  argc : t.argc = (starts isgraph l n).length
  argv : ∀ k, t.argv k = (starts isgraph l n)[k]?

namespace Scanned

variable {b : Buffer} {l : List UInt8} {n m : Nat} {t : Tokenizer}

theorem goto (h : Scanned b l n t) (p : Place) : Scanned b l n (t.goto p) :=
  ⟨h.pos, h.rest, h.kept, h.ended, h.frame, h.reads, h.writes, h.argc, h.argv⟩

theorem extend (h : Scanned b l n t) (he : starts isgraph l m = starts isgraph l n) : Scanned b l m t :=
  ⟨h.pos, h.rest, h.kept, h.ended, h.frame, h.reads, h.writes, he ▸ h.argc, he ▸ h.argv⟩

/-- `*s` を読む。 -/
theorem get (h : Scanned b l n t) :
    ∃ t', t.get = some (charAt l t.s, t') ∧ Scanned b l n t' ∧ t'.s = t.s ∧ t'.argc = t.argc ∧
      t'.place = t.place := by
  refine ⟨{ t with reads := t.reads ++ [t.s] }, ?_, ?_, rfl, rfl, rfl⟩
  · rw [Tokenizer.get, h.rest.read_drop]
    rfl
  · refine ⟨h.pos, h.rest, h.kept, h.ended, h.frame, fun i hi => ?_, h.writes, h.argc, h.argv⟩
    rcases List.mem_append.mp hi with hi | hi
    · exact h.reads i hi
    · rw [List.mem_singleton.mp hi]
      exact h.pos

/-- 並びの直後でなければ、書かずに進める。 -/
theorem advance (h : Scanned b l n t) (hs : t.s < l.length)
    (hcut : sat isgraph l t.s = true ∨ satBefore isgraph false l t.s = false) : Scanned b l n t.advance := by
  obtain ⟨hchar, -, hrest⟩ := h.rest.succ_drop hs
  refine ⟨hs, hrest, fun i hi hg => ?_, fun i hi hg hng => ?_, h.frame, h.reads, h.writes, h.argc, h.argv⟩
  · rcases Nat.lt_succ_iff_lt_or_eq.mp hi with hi | rfl
    · exact h.kept i hi hg
    · exact hchar
  · rcases Nat.lt_succ_iff_lt_or_eq.mp hi with hi | hi
    · exact h.ended i hi hg hng
    · -- 並びの直後ではない
      rw [← hi, hng, satBefore, hg] at hcut
      rcases hcut with hcut | hcut <;> cases hcut

/-- 図形文字でない所を `0` にして進む。 -/
theorem cut (h : Scanned b l n t) (hs : t.s < l.length) (hg : sat isgraph l t.s = false) :
    ∃ t', t.cut = some t' ∧ Scanned b l n t' ∧ t'.s = t.s + 1 ∧ t'.argc = t.argc := by
  obtain ⟨-, -, hrest⟩ := h.rest.succ_drop hs
  refine ⟨{ t with buffer := Bytes.store t.s 0 t.buffer, s := t.s + 1, writes := t.writes ++ [t.s] }, ?_, ?_, rfl,
    rfl⟩
  · rw [Tokenizer.cut, Buffer.write, if_pos h.rest.lt]
    rfl
  · refine ⟨hs, hrest.congr fun i hi => Bytes.store_of_ne (by omega) _ _, fun i hi hgi => ?_, fun i hi hgi hng => ?_,
      fun i hi => ?_, h.reads, fun i hi => ?_, h.argc, h.argv⟩
    · have hne : i ≠ t.s := by
        rintro rfl
        rw [hg] at hgi
        cases hgi
      exact (Bytes.store_of_ne hne _ _).trans (h.kept i (Nat.lt_of_le_of_ne (Nat.le_of_lt_succ hi) hne) hgi)
    · rcases Nat.lt_succ_iff_lt_or_eq.mp hi with hi | hi
      · exact (Bytes.store_of_ne (Nat.ne_of_lt hi) _ _).trans (h.ended i hi hgi hng)
      · rw [hi]
        exact Bytes.store_self _ _ _
    · have hne : i ≠ t.s := fun he => hi (List.mem_append_right _ (List.mem_singleton.mpr he))
      exact (Bytes.store_of_ne hne _ _).trans (h.frame i fun hw => hi (List.mem_append_left _ hw))
    · rcases List.mem_append.mp hi with hi | hi
      · exact h.writes i hi
      · rw [List.mem_singleton.mp hi]
        exact hs

/-- 並びの始まりを `argv` に加える。 -/
theorem push (h : Scanned b l t.s t) (hargc : t.argc < maxArgc) (hstart : startsAt isgraph false l t.s = true) :
    ∃ t', t.push = some t' ∧ Scanned b l (t.s + 1) t' ∧ t'.s = t.s ∧ t'.argc = t.argc + 1 := by
  have hstarts := Words.starts_succ_of_startsAt hstart
  refine ⟨{ t with argv := Function.update t.argv t.argc (some t.s), argc := t.argc + 1 }, if_pos hargc, ?_, rfl, rfl⟩
  refine ⟨h.pos, h.rest, h.kept, h.ended, h.frame, h.reads, h.writes, ?_, fun k => ?_⟩
  · rw [hstarts, List.length_append, ← h.argc]
    rfl
  · rw [hstarts]
    by_cases hk : k = t.argc
    · subst hk
      exact (Function.update_self _ _ _).trans (by rw [h.argc, List.getElem?_concat_length])
    · refine (Function.update_of_ne hk _ _).trans ((h.argv k).trans ?_)
      rcases Nat.lt_or_gt_of_ne hk with hlt | hgt
      · rw [List.getElem?_append_left (h.argc ▸ hlt)]
      · rw [h.argc] at hgt
        rw [List.getElem?_eq_none (Nat.le_of_lt hgt), List.getElem?_eq_none]
        rw [List.length_append, List.length_singleton]
        exact hgt

end Scanned

/-- 次の文字は、並びの途中ではない。 -/
def Fresh (l : List UInt8) (t : Tokenizer) : Prop := satBefore isgraph false l t.s = false

/-- 繰り返しの位置ごとに成り立つこと。 -/
def Inv (b : Buffer) (l : List UInt8) (t : Tokenizer) : Prop :=
  t.argc ≤ maxArgc ∧ match t.place with
    | .loop => Scanned b l t.s t ∧ Fresh l t
    | .skip | .word => Scanned b l t.s t ∧ Fresh l t ∧ t.argc < maxArgc
    | .scan => Scanned b l (t.s + 1) t
    | .check => Scanned b l t.s t ∧ sat isgraph l t.s = false
    | .mark => Scanned b l t.s t ∧ sat isgraph l t.s = false ∧ t.s < l.length
    | .done => Scanned b l t.s t ∧ (t.s = l.length ∨ t.argc = maxArgc ∧ Fresh l t)

/-- 繰り返しが終わるまでの歩数の上界。 -/
def Place.rank : Place → Nat
  | .loop => 5
  | .skip => 4
  | .word => 3
  | .scan => 2
  | .check => 1
  | .mark | .done => 0

def remaining (l : List UInt8) (t : Tokenizer) : Nat := 6 * (l.length - t.s) + t.place.rank

section Step

variable {b : Buffer} {l : List UInt8} {t : Tokenizer}

theorem inv_start (h : Holds b 0 l) : Inv b l { buffer := b } := by
  refine ⟨Nat.zero_le _, ⟨Nat.zero_le _, h, fun i hi => ?_, fun i hi => ?_, fun _ _ => rfl, fun i hi => ?_,
    fun i hi => ?_, rfl, fun _ => rfl⟩, rfl⟩
  · exact absurd hi (Nat.not_lt_zero i)
  · exact absurd hi (Nat.not_lt_zero _)
  · cases hi
  · cases hi

/-- 次の一歩があり、不変条件を保って、上界を減らす。 -/
def Progress (b : Buffer) (l : List UInt8) (t : Tokenizer) : Prop :=
  ∃ t', tokenStep () t = some t' ∧ Inv b l t' ∧ remaining l t' < remaining l t

theorem progress_loop (hargc : t.argc ≤ maxArgc) (hplace : t.place = .loop) (hs : Scanned b l t.s t)
    (hf : Fresh l t) : Progress b l t := by
  by_cases hroom : t.argc < maxArgc
  · refine ⟨t.goto .skip, by rw [tokenStep, hplace]; simp only [if_pos hroom], ⟨hargc, hs.goto _, hf, hroom⟩, ?_⟩
    simp only [remaining, Tokenizer.goto, hplace, Place.rank]
    omega
  · refine ⟨t.goto .done, by rw [tokenStep, hplace]; simp only [if_neg hroom],
      ⟨hargc, hs.goto _, .inr ⟨Nat.le_antisymm hargc (Nat.not_lt.mp hroom), hf⟩⟩, ?_⟩
    simp only [remaining, Tokenizer.goto, hplace, Place.rank]
    omega

theorem progress_skip (hplace : t.place = .skip) (hs : Scanned b l t.s t) (hf : Fresh l t)
    (hroom : t.argc < maxArgc) : Progress b l t := by
  obtain ⟨t', hget, hs', hpos, hargc, hplace'⟩ := hs.get
  rw [hplace] at hplace'
  have hstep : tokenStep () t = some (if isspace (charAt l t.s) then t'.advance else t'.goto .word) := by
    rw [tokenStep, hplace]
    simp only [hget, Option.bind_eq_bind, Option.bind_some]
  rw [Fresh, ← hpos] at hf
  rw [← hpos] at hs' hstep
  rw [← hargc] at hroom
  cases hc : isspace (charAt l t'.s) with
  | true =>
      have hlt := lt_of_isspace hc
      have hg : sat isgraph l t'.s = false := by rw [← isgraph_charAt, isgraph_of_isspace hc]
      have hnext := (hs'.advance hlt (.inr hf)).extend (Words.starts_succ_of_not_sat hg)
      refine ⟨t'.advance, by rw [hstep, if_pos hc], ⟨Nat.le_of_lt hroom, ?_⟩, ?_⟩
      · rw [show t'.advance.place = .skip from hplace']
        exact ⟨hnext, hg, hroom⟩
      · simp only [remaining, Tokenizer.advance, hplace, hplace', Place.rank]
        omega
  | false =>
      refine ⟨t'.goto .word, by rw [hstep, if_neg (by simp [hc])], ⟨Nat.le_of_lt hroom, hs'.goto _, hf, hroom⟩, ?_⟩
      simp only [remaining, Tokenizer.goto, hplace, hpos, Place.rank]
      omega

theorem progress_word (hplace : t.place = .word) (hs : Scanned b l t.s t) (hf : Fresh l t)
    (hroom : t.argc < maxArgc) : Progress b l t := by
  obtain ⟨t', hget, hs', hpos, hargc, -⟩ := hs.get
  rw [Fresh, ← hpos] at hf
  rw [← hargc] at hroom
  cases hc : isgraph (charAt l t.s) with
  | true =>
      have hstart : startsAt isgraph false l t'.s = true := by
        rw [startsAt, hf, hpos, ← isgraph_charAt, hc]
        rfl
      rw [← hpos] at hs'
      obtain ⟨t'', hpush, hs'', hpos', hargc'⟩ := hs'.push hroom hstart
      rw [← hpos'] at hs''
      refine ⟨t''.goto .scan, ?_, ⟨?_, hs''.goto _⟩, ?_⟩
      · rw [tokenStep, hplace]
        simp only [hget, hc, hpush, Option.bind_eq_bind, Option.bind_some, if_true]
      · rw [show (t''.goto .scan).argc = t''.argc from rfl, hargc']
        exact hroom
      · simp only [remaining, Tokenizer.goto, hplace, hpos, hpos', Place.rank]
        omega
  | false =>
      refine ⟨t'.goto .check, ?_, ⟨Nat.le_of_lt hroom, (hpos ▸ hs' : Scanned b l t'.s t').goto _, ?_⟩, ?_⟩
      · rw [tokenStep, hplace]
        simp only [hget, hc, Option.bind_eq_bind, Option.bind_some, if_false, Bool.false_eq_true]
      · rw [show (t'.goto .check).s = t'.s from rfl, hpos, ← isgraph_charAt, hc]
      · simp only [remaining, Tokenizer.goto, hplace, hpos, Place.rank]
        omega

theorem progress_scan (hargc : t.argc ≤ maxArgc) (hplace : t.place = .scan) (hs : Scanned b l (t.s + 1) t) :
    Progress b l t := by
  obtain ⟨t', hget, hs', hpos, hargc', hplace'⟩ := hs.get
  rw [hplace] at hplace'
  rw [← hargc'] at hargc
  have hstep : tokenStep () t = some (if isgraph (charAt l t.s) then t'.advance else t'.goto .check) := by
    rw [tokenStep, hplace]
    simp only [hget, Option.bind_eq_bind, Option.bind_some]
  rw [← hpos] at hs' hstep
  rw [isgraph_charAt] at hstep
  cases hg : sat isgraph l t'.s with
  | true =>
      have hlt := Words.sat_lt hg
      have hnot : startsAt isgraph false l (t'.s + 1) = false := by
        rw [startsAt, satBefore, hg, Bool.not_true, Bool.and_false]
      have hnext := (hs'.advance hlt (.inl hg)).extend (Words.starts_succ_of_not hnot)
      refine ⟨t'.advance, by rw [hstep, if_pos hg], ⟨hargc, ?_⟩, ?_⟩
      · rw [show t'.advance.place = .scan from hplace']
        exact hnext
      · simp only [remaining, Tokenizer.advance, hplace, hplace', Place.rank]
        omega
  | false =>
      have hnext := (hs'.extend (Words.starts_succ_of_not_sat hg).symm).goto .check
      refine ⟨t'.goto .check, by rw [hstep, if_neg (by simp [hg])], ⟨hargc, hnext, hg⟩, ?_⟩
      simp only [remaining, Tokenizer.goto, hplace, hpos, Place.rank]
      omega

theorem progress_check (hargc : t.argc ≤ maxArgc) (hplace : t.place = .check) (hs : Scanned b l t.s t)
    (hg : sat isgraph l t.s = false) : Progress b l t := by
  obtain ⟨t', hget, hs', hpos, hargc', -⟩ := hs.get
  have hstep : tokenStep () t = some (t'.goto (if charAt l t.s = 0 then .done else .mark)) := by
    rw [tokenStep, hplace]
    simp only [hget, Option.bind_eq_bind, Option.bind_some]
  rw [← hargc'] at hargc
  rw [← hpos] at hs' hstep hg
  rcases Nat.lt_or_eq_of_le hs'.pos with hlt | heq
  · have hne := (hs'.rest.succ_drop hlt).2.1
    refine ⟨t'.goto .mark, by rw [hstep, if_neg hne], ⟨hargc, hs'.goto _, hg, hlt⟩, ?_⟩
    simp only [remaining, Tokenizer.goto, hplace, hpos, Place.rank]
    omega
  · have hzero : charAt l t'.s = 0 := by rw [charAt, List.getElem?_eq_none (Nat.le_of_eq heq.symm)]; rfl
    refine ⟨t'.goto .done, by rw [hstep, if_pos hzero], ⟨hargc, hs'.goto _, .inl heq⟩, ?_⟩
    simp only [remaining, Tokenizer.goto, hplace, hpos, Place.rank]
    omega

theorem progress_mark (hargc : t.argc ≤ maxArgc) (hplace : t.place = .mark) (hs : Scanned b l t.s t)
    (hg : sat isgraph l t.s = false) (hlt : t.s < l.length) : Progress b l t := by
  obtain ⟨t', hcut, hs', hpos, hargc'⟩ := hs.cut hlt hg
  have hnext : Scanned b l t'.s t' := hs'.extend (by rw [hpos, Words.starts_succ_of_not_sat hg])
  refine ⟨t'.goto .loop, ?_, ⟨hargc' ▸ hargc, hnext.goto _, ?_⟩, ?_⟩
  · rw [tokenStep, hplace]
    simp only [hcut, Option.bind_eq_bind, Option.bind_some]
  · rw [Fresh, show (t'.goto .loop).s = t'.s from rfl, hpos]
    exact hg
  · simp only [remaining, Tokenizer.goto, hplace, hpos, Place.rank]
    omega

theorem inv_step (h : Inv b l t) (hp : t.place ≠ .done) : Progress b l t := by
  obtain ⟨hargc, h⟩ := h
  cases hplace : t.place with
  | loop =>
      rw [hplace] at h
      exact progress_loop hargc hplace h.1 h.2
  | skip =>
      rw [hplace] at h
      exact progress_skip hplace h.1 h.2.1 h.2.2
  | word =>
      rw [hplace] at h
      exact progress_word hplace h.1 h.2.1 h.2.2
  | scan =>
      rw [hplace] at h
      exact progress_scan hargc hplace h
  | check =>
      rw [hplace] at h
      exact progress_check hargc hplace h.1 h.2
  | mark =>
      rw [hplace] at h
      exact progress_mark hargc hplace h.1 h.2.1 h.2.2
  | done => exact absurd hplace hp

end Step

/-! ## 繰り返しの終わり -/

section End

variable {b : Buffer} {l : List UInt8} {t t' : Tokenizer}

/-- 終わったときには、始まった並びは終わっていて、その直後は `0` である。 -/
theorem closed_of_done (h : Scanned b l t.s t) (hend : t.s = l.length ∨ t.argc = maxArgc ∧ Fresh l t) {i : Nat}
    (hi : i < t.s) (hg : sat isgraph l i = true) :
    (sat isgraph l (i + 1) = false → t.buffer (i + 1) = 0) ∧ (sat isgraph l (i + 1) = true → i + 1 < t.s) := by
  rcases Nat.lt_or_eq_of_le (Nat.succ_le_of_lt hi) with hlt | heq
  · exact ⟨h.ended i hlt hg, fun _ => hlt⟩
  · rcases hend with hlen | ⟨-, hf⟩
    · have hzero : Holds t.buffer t.s [] := by
        have hrest := h.rest
        rwa [List.drop_eq_nil_of_le (Nat.le_of_eq hlen.symm)] at hrest
      rw [← heq] at hzero
      refine ⟨fun _ => hzero.2, fun hnext => ?_⟩
      have hlt := Words.sat_lt hnext
      omega
    · rw [Fresh, ← heq, satBefore, hg] at hf
      cases hf

theorem holds_wordAt (h : Scanned b l t.s t) (hend : t.s = l.length ∨ t.argc = maxArgc ∧ Fresh l t) {i : Nat}
    (hi : i < t.s) (hg : sat isgraph l i = true) : Holds t.buffer i (Words.wordAt isgraph l i) := by
  obtain ⟨hcut, hnext⟩ := closed_of_done h hend hi hg
  obtain ⟨c, hc, hword⟩ := Words.wordAt_of_sat hg
  have hchar : charAt l i = c := by rw [charAt, hc]; rfl
  have hbuf := h.kept i hi hg
  have hgraph : isgraph c = true := by rw [← hchar, isgraph_charAt, hg]
  have hne : c ≠ 0 := by
    rintro rfl
    cases hgraph
  rw [hword]
  refine ⟨hne, hbuf.trans hchar, ?_⟩
  cases hg' : sat isgraph l (i + 1) with
  | true => exact holds_wordAt h hend (hnext hg') hg'
  | false =>
      rw [Words.wordAt_of_not_sat hg']
      exact ⟨Nat.lt_of_le_of_lt hi h.rest.lt, hcut hg'⟩
termination_by t.s - i

theorem Inv.of_done (h : Inv b l t) (hdone : t.place = .done) :
    Scanned b l t.s t ∧ (t.s = l.length ∨ t.argc = maxArgc ∧ Fresh l t) := by
  have hplace := h.2
  rw [hdone] at hplace
  exact hplace

/-- 終わったときの引数は、極大な並びの初めの `maxArgc` 個である。 -/
theorem argv_of_done (h : Inv b l t) (hdone : t.place = .done) {k : Nat} (hk : k < t.argc) :
    ∃ i, t.argv k = some i ∧ (Words.words isgraph l)[k]? = some (i, Words.wordAt isgraph l i) ∧
      Holds t.buffer i (Words.wordAt isgraph l i) := by
  obtain ⟨hs, hend⟩ := h.of_done hdone
  have hlt : k < (starts isgraph l t.s).length := hs.argc ▸ hk
  have hget := List.getElem?_eq_getElem hlt
  have hmem := List.getElem_mem hlt
  refine ⟨(starts isgraph l t.s)[k], (hs.argv k).trans hget, Words.getElem?_words ?_,
    holds_wordAt hs hend (Words.mem_starts.mp hmem).1 (Words.sat_of_mem_starts hmem)⟩
  exact List.prefix_iff_getElem?.mp (Words.starts_prefix hs.pos) k hlt

theorem argc_of_done (h : Inv b l t) (hdone : t.place = .done) :
    t.argc = min maxArgc (Words.words isgraph l).length := by
  obtain ⟨hs, hend⟩ := h.of_done hdone
  have hargc := h.1
  have hle := (Words.starts_prefix (p := isgraph) (l := l) hs.pos).length_le
  rw [← hs.argc] at hle
  rw [Words.length_words]
  rcases hend with hlen | ⟨hfull, -⟩
  · have hall := hs.argc
    rw [hlen] at hall
    omega
  · omega

theorem run_done (hdone : t.place = .done) (n : Nat) : Run.run tokenStep (List.replicate n ()) t = some t := by
  induction n with
  | zero => rfl
  | succ n ih =>
      have hstep : tokenStep () t = some t := by rw [tokenStep, hdone]
      rw [List.replicate_succ, Run.run, hstep, Option.bind_some, ih]

theorem Ends.unique (h : Ends b t) (h' : Ends b t') : t = t' := by
  obtain ⟨n, hn, hdone⟩ := h
  obtain ⟨n', hn', hdone'⟩ := h'
  have hlong := Run.run_append.mpr ⟨t, hn, run_done hdone n'⟩
  have hlong' := Run.run_append.mpr ⟨t', hn', run_done hdone' n⟩
  rw [← List.replicate_add, Nat.add_comm] at hlong
  rw [← List.replicate_add, hlong] at hlong'
  exact Option.some.inj hlong'

/-- 繰り返しは終わり、終わったときも不変条件が成り立つ。 -/
theorem exists_ends (h : Holds b 0 l) : ∃ t, Ends b t ∧ Inv b l t := by
  obtain ⟨n, t, hrun, hinv, hdone⟩ :=
    Run.run_reaches (P := fun t => t.place = .done) (fun _ => inv_step) _ (inv_start h)
  exact ⟨t, ⟨n, hrun, hdone⟩, hinv⟩

theorem Ends.inv (ht : Ends b t) (h : Holds b 0 l) : Inv b l t := by
  obtain ⟨t', ht', hinv⟩ := exists_ends h
  rwa [ht.unique ht']

end End

end Wagman.Text
