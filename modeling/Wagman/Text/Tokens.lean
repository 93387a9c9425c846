import Wagman.Text.Reader
import Wagman.Lib.Words

/-!
# `processCommand` の一歩ごとの動き

`processCommand` の繰り返しを、`*s` を一度使うごとに一歩とする。読んだ位置と書いた位置をすべて残し、`argv` の、まだ値の
入っていない所は `none` とする。繰り返しが終わると、先頭が `@` の引数を取り除いて `executeCommand` を呼ぶ。
-/

namespace Wagman.Text

open V3 (maxArgc)

/-! ## 引数に分ける繰り返し -/

/-- 繰り返しの中の位置。 -/
inductive Place
  /-- `while (argc < MAX_ARGC)` -/
  | loop
  /-- `while (isspace(*s)) s++` -/
  | skip
  /-- `if (isgraph(*s)) argv[argc++] = s` -/
  | word
  /-- `while (isgraph(*s)) s++` -/
  | scan
  /-- `if (*s == '\0') break` -/
  | check
  /-- `*s++ = '\0'` -/
  | mark
  /-- 繰り返しの後 -/
  | done
  deriving DecidableEq

/-- 繰り返しの途中の状態。 -/
structure Tokenizer where
  buffer : Buffer
  s : Nat := 0
  argc : Nat := 0
  argv : Nat → Option Nat := fun _ => none
  place : Place := .loop
  reads : List Nat := []
  writes : List Nat := []

namespace Tokenizer

/-- `*s` -/
def get (t : Tokenizer) : Option (UInt8 × Tokenizer) := do
  let c ← t.buffer.read t.s
  some (c, { t with reads := t.reads ++ [t.s] })

/-- `argv[argc++] = s` -/
def push (t : Tokenizer) : Option Tokenizer :=
  if t.argc < maxArgc then
    some { t with argv := Function.update t.argv t.argc (some t.s), argc := t.argc + 1 }
  else none

/-- `*s++ = '\0'` -/
def cut (t : Tokenizer) : Option Tokenizer := do
  let b ← t.buffer.write t.s 0
  some { t with buffer := b, s := t.s + 1, writes := t.writes ++ [t.s] }

def goto (p : Place) (t : Tokenizer) : Tokenizer := { t with place := p }

def advance (t : Tokenizer) : Tokenizer := { t with s := t.s + 1 }

end Tokenizer

/-- 一歩。終わった後は変わらない。 -/
def tokenStep (_ : Unit) (t : Tokenizer) : Option Tokenizer :=
  match t.place with
  | .loop => some (t.goto (if t.argc < maxArgc then .skip else .done))
  | .skip => do
      let (c, t) ← t.get
      some (if isspace c then t.advance else t.goto .word)
  | .word => do
      let (c, t) ← t.get
      if isgraph c then
        let t ← t.push
        some (t.goto .scan)
      else some (t.goto .check)
  | .scan => do
      let (c, t) ← t.get
      some (if isgraph c then t.advance else t.goto .check)
  | .check => do
      let (c, t) ← t.get
      some (t.goto (if c = 0 then .done else .mark))
  | .mark => do
      let t ← t.cut
      some (t.goto .loop)
  | .done => some t

/-- 中身が `b` のバッファーについて、繰り返しが `t` で終わる。 -/
def Ends (b : Buffer) (t : Tokenizer) : Prop :=
  ∃ n, Run.run tokenStep (List.replicate n ()) { buffer := b } = some t ∧ t.place = .done

/-! ## `executeCommand` の呼び出し -/

/-- `executeCommand(sid, argc, argv)`。`sid` の `none` は `"0"` を表す。 -/
structure Call where
  sid : Option Nat
  argc : Nat
  argv : Nat → Option Nat
  buffer : Buffer

/-- 繰り返しの後。`argv[0][0]` を読めなければ `none`、呼ばなければ `some none` である。 -/
def Tokenizer.dispatch (t : Tokenizer) : Option (Option Call) :=
  if 0 < t.argc then do
    let i ← t.argv 0
    let c ← t.buffer.read i
    -- 応答に付ける名前を引数から除く
    if c = 0x40 then some (some ⟨some (i + 1), t.argc - 1, fun k => t.argv (k + 1), t.buffer⟩)
    else some (some ⟨none, t.argc, t.argv, t.buffer⟩)
  else some none

/-- 命令の表の項目。`sdinfo` は safemode だけにある。 -/
inductive Handler
  | command (c : V3.Command)
  | sdinfo

/-- 各命令の関数が、`argc` に応じて読みうる `argv` の添字。 -/
def commandArgs (c : V3.Command) (argc : Nat) : List Nat :=
  match c with
  | .ping | .start => if argc = 2 then [1] else []
  | .stop => if argc ≤ 1 then [] else if argc = 3 then [1, 2] else [1]
  | .reset | .log | .blf => if argc = 2 then [1] else []
  | .date => if argc = 7 then [1, 2, 3, 4, 5, 6] else []
  | .bs => if argc = 2 then [1] else if argc = 3 then [1, 2] else []
  | .enable | .disable => List.range' 1 (argc - 1)
  | .watch => if argc = 4 then [1, 2, 3] else []
  | .rtc | .id | .cu | .hb | .env | .th | .bf | .fc | .up | .eereset | .boots | .ver => []

def Handler.args : Handler → Nat → List Nat
  | .command c, argc => commandArgs c argc
  | .sdinfo, _ => []

/-- `executeCommand` が読む `argv` の添字。名前は、表との比較と応答のために必ず読む。 -/
def executeArgs (h : Option Handler) (argc : Nat) : List Nat := 0 :: (h.map fun h => h.args argc).getD []

end Wagman.Text
