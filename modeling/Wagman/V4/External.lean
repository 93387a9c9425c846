import Wagman.Lib.Bytes
import Wagman.Lib.Simulation

/-!
# 外付けの EEPROM（`EEPROM.h`）

`ExternalEEPROM` は、I2C でつながる EEPROM を一バイトずつ読み書きする。素子と `Wire` は文書のとおりに表す。素子は、書き込みの
間は呼び出しに応答しない。応答した送信の初めの二バイトを番地として覚え、続くバイトをそこから書き、読み出しは覚えている番地から
行う。番地は容量の端で初めに戻る。終わりのない繰り返しには回数の上限を付け、使い切ったときと、届かないバイトを待ち続けるときを
`none` とする。
-/

namespace Wagman.V4.External

/-- 素子の状態。`busy` は、これから応答しない呼び出しの回数、`writes` は、これまでに始めた書き込みの回数である。 -/
structure Chip where
  mem : Nat → UInt8
  pointer : Nat
  busy : Nat
  writes : Nat

-- `capacity` は素子のバイト数、`cycle k` は `k` 番目の書き込みの間に応答しない呼び出しの回数、`fuel` は繰り返しの上限である。
variable (capacity : Nat) (cycle : Nat → Nat) (fuel : Nat)

/-! ## 素子と `Wire` -/

namespace Chip

/-- 覚えている番地に一バイトを置き、番地を進める。 -/
def place (v : UInt8) (c : Chip) : Chip :=
  { c with mem := Bytes.store c.pointer v c.mem, pointer := (c.pointer + 1) % capacity }

/-- 応答した送信を受け取る。 -/
def receive (c : Chip) : List UInt8 → Chip
  | high :: low :: data =>
      let c := { c with pointer := (high.toNat * 256 + low.toNat) % capacity }
      if data = [] then c
      else { data.foldl (fun c v => c.place capacity v) c with busy := cycle c.writes, writes := c.writes + 1 }
  | _ => c

/-- 応答しない呼び出しを一回終える。 -/
def refuse (c : Chip) : Chip := { c with busy := c.busy - 1 }

end Chip

/-- `Wire.endTransmission() == 0` と、送信の後の素子。 -/
def endTransmission (sent : List UInt8) (c : Chip) : Bool × Chip :=
  if 0 < c.busy then (false, c.refuse) else (true, c.receive capacity cycle sent)

/-- `Wire.requestFrom(busaddr, 1)` で届いたバイト。 -/
def requestFrom (c : Chip) : Option UInt8 × Chip :=
  if 0 < c.busy then (none, c.refuse)
  else (some (c.mem c.pointer), { c with pointer := (c.pointer + 1) % capacity })

/-! ## `ExternalEEPROM` -/

def waitForDevice : Nat → Chip → Option Chip
  | 0, _ => none
  | fuel + 1, c =>
      let (acked, c) := endTransmission capacity cycle [] c
      if acked then some c else waitForDevice fuel c

def writeAddress (addr : Nat) : List UInt8 := [UInt8.ofNat (addr / 256), UInt8.ofNat addr]

def read (addr : Nat) (c : Chip) : Option (UInt8 × Chip) := do
  let c ← waitForDevice capacity cycle fuel c
  let (_, c) := endTransmission capacity cycle (writeAddress addr) c
  let (v, c) := requestFrom capacity c
  let v ← v
  some (v, c)

def write (addr : Nat) (data : UInt8) (c : Chip) : Option Chip := do
  let c ← waitForDevice capacity cycle fuel c
  let (_, c) := endTransmission capacity cycle (writeAddress addr ++ [data]) c
  some c

/-- `get`。読んだバイトを、下位から並べた数とみる。 -/
def get (addr : Nat) : Nat → Chip → Option (Nat × Chip)
  | 0, c => some (0, c)
  | size + 1, c => do
      let (v, c) ← read capacity cycle fuel addr c
      let (n, c) ← get (addr + 1) size c
      some (v.toNat + 256 * n, c)

def put (addr : Nat) : Nat → Nat → Chip → Option Chip
  | 0, _, c => some c
  | size + 1, n, c => do
      let c ← write capacity cycle fuel addr (UInt8.ofNat n) c
      put (addr + 1) size (n / 256) c

/-! ## 読み書きの並び -/

/-- `size` バイトの値の読み書き。`EEPROM.read` と `EEPROM.write` は 1 バイトの読み書きと同じである。 -/
inductive Access
  | get (addr size : Nat)
  | put (addr size n : Nat)

/-- 素子の容量に収まる。 -/
def Access.Fits : Access → Prop
  | .get addr size => addr + size ≤ capacity
  | .put addr size _ => addr + size ≤ capacity

/-- 記憶がただの配列だとしたときの読み書き。 -/
def Access.apply : Access → (Nat → UInt8) → Option Nat × (Nat → UInt8)
  | .get addr size, m => (some (Bytes.get m addr size), m)
  | .put addr size n, m => (none, Bytes.put Bytes.store addr size n m)

def Access.perform : Access → Chip → Option (Option Nat × Chip)
  | .get addr size, c => (External.get capacity cycle fuel addr size c).map fun (n, c) => (some n, c)
  | .put addr size n, c => (External.put capacity cycle fuel addr size n c).map fun c => (none, c)

end Wagman.V4.External
