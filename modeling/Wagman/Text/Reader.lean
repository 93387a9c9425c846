import Wagman.V3.Commands
import Wagman.Lib.Run

/-!
# 文字による命令の受け取り（`processCommands`、`processCommand`）

v3 のファームウェアと v4 の safemode は、同じ関数で直列ポートから行を受け取る。バイトは、二つの呼び出しの間にも、呼び出しの
途中にも届くので、繰り返しの条件の判定と本体を一歩とする。`buffer` の外の読み書きは `none` で表す。
-/

namespace Wagman.Text

open V3 (maxArgc)

/-- `BUFFER_SIZE` -/
def bufferCapacity : Nat := 80

/-- 一回の呼び出しで読むバイト数の限り。 -/
def readLimit : Nat := 240

/-- `'\n'` -/
def newline : UInt8 := 10

/-! ## バッファー -/

/-- `buffer`。添字は `bufferCapacity` より小さいものだけを使う。 -/
abbrev Buffer := Nat → UInt8

/-- `buffer[i]` -/
def Buffer.read (b : Buffer) (i : Nat) : Option UInt8 := if i < bufferCapacity then some (b i) else none

/-- `buffer[i] = v` -/
def Buffer.write (i : Nat) (v : UInt8) (b : Buffer) : Option Buffer :=
  if i < bufferCapacity then some (Bytes.store i v b) else none

/-- 初めの `n` バイト。 -/
def Buffer.take (b : Buffer) (n : Nat) : List UInt8 := (List.range n).map b

/-! ## `processCommand` -/

/-- `while (p(*s)) s++`。`room` は `s` からバッファーの終わりまでのバイト数である。 -/
def scan (p : UInt8 → Bool) (b : Buffer) : Nat → Nat → Option Nat
  | 0, _ => none
  | room + 1, s => if p (b s) then scan p b room (s + 1) else some s

/-- 引数を一つ読む。引数があればその範囲と、次に調べる位置を返す。 -/
def scanArg (b : Buffer) (s : Nat) : Option (Option (Nat × Nat) × Nat) := do
  let s ← scan isspace b (bufferCapacity - s) s
  let c ← b.read s
  if isgraph c then
    let e ← scan isgraph b (bufferCapacity - s) s
    some (some (s, e), e)
  else some (none, s)

/-- `while (argc < MAX_ARGC)`。`argc` は残りの引数の数である。続けるたびに一バイト以上進むので、`fuel` はバッファーの大きさで足りる。
各引数は、その範囲で表す。 -/
def scanLine : Nat → Nat → Nat → Buffer → Option (List (Nat × Nat) × Buffer)
  | 0, _, _, _ => none
  | _, 0, _, b => some ([], b)
  | fuel + 1, argc + 1, s, b => do
      let (arg, s) ← scanArg b s
      let c ← b.read s
      if c = 0 then some (arg.toList, b)
      else
        -- 引数の終わりに印を付ける
        let b ← b.write s 0
        let (args, b) ← scanLine fuel (if arg.isSome then argc else argc + 1) (s + 1) b
        some (arg.toList ++ args, b)

/-- `processCommand` のうち、行を引数に分ける部分。引数の中身と、書き換えられたバッファーを返す。 -/
def processCommand (b : Buffer) : Option (List (List UInt8) × Buffer) := do
  let (args, b) ← scanLine (bufferCapacity + 1) maxArgc 0 b
  some (args.map fun (s, e) => (List.range (e - s)).map fun k => b (s + k), b)

/-! ## `processCommands` -/

/-- `processCommands` の位置。 -/
inductive Phase
  /-- 呼ばれていない -/
  | idle
  /-- 外側の繰り返し -/
  | reading
  /-- `flush remainder of line` の繰り返し -/
  | flushing
  deriving DecidableEq

/-- 受け取りの状態。`queue` は届いてまだ読まれていないバイト、`consumed` はこれまでに読まれたバイト、`calls` は
`processCommand` が呼ばれたときの終端までのバッファーと、そこから得られた引数である。 -/
structure Reader where
  queue : List UInt8 := []
  buffer : Buffer := fun _ => 0
  bufferSize : Nat := 0
  dataread : Nat := 0
  phase : Phase := .idle
  consumed : List UInt8 := []
  calls : List (List UInt8 × List (List UInt8)) := []

namespace Reader

/-- `buffer[bufferSize] = '\0'; bufferSize = 0; processCommand()` -/
def command (r : Reader) : Option Reader := do
  let b ← r.buffer.write r.bufferSize 0
  let (args, b') ← processCommand b
  some { r with buffer := b', bufferSize := 0, calls := r.calls ++ [(b.take (r.bufferSize + 1), args)] }

/-- 外側の繰り返しの本体。 -/
def receive (c : UInt8) (queue : List UInt8) (r : Reader) : Option Reader := do
  let b ← r.buffer.write r.bufferSize c
  let r := { r with
    queue := queue
    consumed := r.consumed ++ [c]
    buffer := b
    bufferSize := r.bufferSize + 1
    dataread := r.dataread + 1 }
  if bufferCapacity ≤ r.bufferSize then some { r with bufferSize := 0, phase := .flushing }
  else if c = newline then r.command
  else some r

/-- 内側の繰り返しの本体。 -/
def discard (c : UInt8) (queue : List UInt8) (r : Reader) : Reader :=
  let r := { r with queue := queue, consumed := r.consumed ++ [c] }
  if c = newline then { r with phase := .reading } else { r with dataread := r.dataread + 1 }

/-- 一歩。呼ばれていなければ `processCommands` を呼び、繰り返しの中なら条件を判定して本体を一回行う。 -/
def tick (r : Reader) : Option Reader :=
  match r.phase with
  | .idle => some { r with dataread := 0, phase := .reading }
  | .reading =>
      match r.queue with
      | [] => some { r with phase := .idle }
      | c :: queue => if r.dataread < readLimit then r.receive c queue else some { r with phase := .idle }
  | .flushing =>
      match r.queue with
      | [] => some { r with phase := .reading }
      | c :: queue => if r.dataread < readLimit then some (r.discard c queue) else some { r with phase := .reading }

/-- 届いたバイトを待ち行列に加える。 -/
def arrive (bs : List UInt8) (r : Reader) : Reader := { r with queue := r.queue ++ bs }

end Reader

inductive Op
  | arrive (bs : List UInt8)
  | tick

def step : Op → Reader → Option Reader
  | .arrive bs, r => some (r.arrive bs)
  | .tick, r => r.tick

/-- 届いたバイトの全体。 -/
def arrivals : List Op → List UInt8
  | [] => []
  | .arrive bs :: ops => bs ++ arrivals ops
  | .tick :: ops => arrivals ops

end Wagman.Text
