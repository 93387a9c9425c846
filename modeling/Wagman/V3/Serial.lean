import Wagman.V3.Firmware
import Wagman.Lib.Lines
import Wagman.Lib.Words

/-!
# 応答とホスト（`Print.cpp`、`wagman-pub.py`、`wagmancli`）

ファームウェアは、命令ごとに `<<<-` の行と `->>>` の行の間に応答を書く。ホストは `Serial` から行を読み、応答を取り出す。`Logger` の行は、
応答の行の間に現れうる。`float` は `printFloat` の出力、`Decoder` は Python の `decode` を表す。`wagman-pub.py` の、例外の後の再接続は
表さない。
-/

namespace Wagman.V3.Serial

abbrev Line := List UInt8

/-! ## `Print` -/

/-- `printNumber` の繰り返し。下の桁から `s` の前に加える。 -/
def printNumber (base : Nat) : Nat → Nat → List UInt8 → List UInt8
  | 0, _, s => s
  | room + 1, n, s =>
      let c := n % base
      let s := UInt8.ofNat (if c < 10 then c + 48 else c + 55) :: s
      if n / base = 0 then s else printNumber base room (n / base) s

section Print

variable (float : UInt32 → List UInt8)

/-- `Serial.print` が書くバイト。`buf` には 32 桁まで入る。 -/
def render : Out → List UInt8
  | .text s => ascii s.toList
  | .word s => s
  | .num n => printNumber 10 32 n []
  | .hex n => printNumber 16 32 n []
  | .float bits => float bits
  | .newline => [13, 10]

/-- 記録までに `Serial` に書いたバイト。 -/
def said (log : Log) : List UInt8 :=
  log.reverse.flatMap fun x => match x.event with
    | .print o => render float o
    | _ => []

end Print

/-- `println` で終わる行の並び。 -/
def wire (ls : List Line) : List UInt8 := ls.flatMap (· ++ [13, 10])

/-- `str` の ASCII の空白。 -/
def space (c : UInt8) : Bool := isspace c || (0x1c ≤ c && c ≤ 0x1f)

/-- `str.strip` -/
def strip (s : List UInt8) : List UInt8 := ((s.dropWhile space).reverse.dropWhile space).reverse

/-! ## 応答 -/

/-- 一つの命令への応答。 -/
structure Response where
  sid : List UInt8
  name : List UInt8
  body : List Line
  deriving DecidableEq

def beginMark : List UInt8 := ascii ['<', '<', '<', '-']
def endMark : List UInt8 := ascii ['-', '>', '>', '>']
def logMark : List UInt8 := ascii ['l', 'o', 'g', ':']
def cli : List UInt8 := ascii ['c', 'l', 'i']

/-- `<<<- sid=` -/
def beginSid : List UInt8 := beginMark ++ ascii [' ', 's', 'i', 'd', '=']

def Response.header (r : Response) : Line := beginSid ++ r.sid ++ 0x20 :: r.name

def Response.lines (r : Response) : List Line := r.header :: r.body ++ [endMark]

/-- 応答の内容に現れる文字。 -/
def plain (b : UInt8) : Bool := b != 10 && b != 0x3a && b != 0x3c && b != 0x3e && decide (b < 0x80)

/-- 名前は空白を含まず、内容は印を含まない。 -/
structure Response.Good (r : Response) : Prop where
  sid : ∀ b ∈ r.sid, isgraph b = true
  name : r.name ≠ [] ∧ ∀ b ∈ r.name, isgraph b = true
  body : ∀ l ∈ r.body, ∀ b ∈ l, plain b = true

/-- 行の終わりの `'\r'` と `'\n'`。 -/
def crlf (l : Line) : Line := l ++ [13, 10]

/-- 行の `decode`。ASCII の行は必ず読める。 -/
structure Decoder where
  valid : Line → Bool
  ascii : ∀ l : Line, (∀ b ∈ l, b < 0x80) → valid l = true

/-- 応答の間に現れる行 `mid` のうち、読めて、`Logger` の行でないものが、応答の内容である。 -/
def Carries (d : Decoder) (r : Response) (mid : List Line) : Prop :=
  mid.filter (fun l => d.valid (crlf l) && !logMark.isPrefixOf l) = r.body

/-- 応答の並びを書く間に、`Serial` に現れる行。応答ごとに、その始まりと終わりの間の行を添える。応答の間には、読めて `<<<-` で始まる
行は現れない。応答の中には、`Logger` の行と読めない行が入りうる。 -/
inductive Wire (d : Decoder) : List (Response × List Line) → List Line → Prop
  | nil : Wire d [] []
  | idle {l : Line} {xs : List (Response × List Line)} {ws : List Line} :
      (d.valid (crlf l) = true → ¬beginMark <+: strip l) → 10 ∉ l → Wire d xs ws → Wire d xs (l :: ws)
  | response {r : Response} {mid : List Line} {xs : List (Response × List Line)} {ws : List Line} :
      (∀ l ∈ mid, 10 ∉ l) → Carries d r mid → Wire d xs ws →
      Wire d ((r, mid) :: xs) (r.header :: mid ++ endMark :: ws)

/-! ## ホスト -/

/-- `str.split` -/
def split (s : List UInt8) : List (List UInt8) := Words.texts (fun c => !space c) false s

/-- `'\n'.join` -/
def join (ls : List Line) : List UInt8 := (ls.intersperse [10]).flatten

/-- `wagman-pub.py` の繰り返しの変数。`None` を空の名前で表す。 -/
structure Publisher where
  output : List Line := []
  incommand : Bool := false
  commandname : List UInt8 := []

/-- `'cmd.{}:{}'` -/
def cmdMessage (name : List UInt8) (output : List Line) : List UInt8 :=
  ascii ['c', 'm', 'd', '.'] ++ name ++ 0x3a :: join output

/-- 行を一つ読んだ後の変数と、送った文字列。 -/
def Publisher.read (s : Publisher) (line : Line) : Publisher × List (List UInt8) :=
  let line := strip line
  if s.incommand then
    if endMark.isPrefixOf line then
      ({ s with incommand := false, output := [] }, [cmdMessage s.commandname s.output])
    else ({ s with output := s.output ++ [line] }, [])
  else if beginMark.isPrefixOf line then
    let fields := split line
    ({ s with
        commandname := if fields.length ≤ 2 then ascii ['?'] else fields.getD 2 []
        incommand := true }, [])
  else if logMark.isPrefixOf line then (s, [line])
  else (s, [])

/-- 名前だけの行でない。 -/
def Named : Op → Prop
  | .line line _ => ∀ a, splitArgs line = [a] → a.head? ≠ some 0x40
  | _ => True

end Wagman.V3.Serial
