import Wagman.Chars
import Wagman.Lib.Fetch
import Wagman.Lib.Flash

/-!
# ブートローダーの書き込みの手順（`Caterina.c` の `CDC_Task` と `ReadWriteMemoryBlock`）

ホストは USB のパケットで命令を送り、フラッシュと EEPROM を読み書きする。一つの命令を処理し終えると、最後のパケットの余りを捨てる。
ホストが離れた後は、`FetchNextCommandByte` は 0 を返す。フラッシュは 32 KiB で、ページは 128 バイト、`BOOT_START_ADDR` から後が
ブートローダーである。`boot_*` はチップの説明のとおりに動くとする。一時のバッファーは、ページの書き込み、`boot_rww_enable`、EEPROM への
書き込みで空になる。命令 `l` は `NO_LOCK_BYTE_WRITE_SUPPORT` のために翻訳されない。LED とタイマーの割り込みは表さない。
-/

namespace Wagman.V3.Avr109

/-! ## チップ -/

/-- `SPM_PAGESIZE` -/
def pageSize : Nat := 128

/-- `BOOT_START_ADDR` -/
def bootStart : Nat := 0x7000

/-- フラッシュの大きさ。 -/
def flashSize : Nat := 0x8000

/-- `TIMEOUT_PERIOD` -/
def timeoutPeriod : UInt16 := 8000

/-- 変わらない値。`noise` は、読めない間の RWW 領域を読んだ値、`lockFuse` は `boot_lock_fuse_bits_get` の値である。 -/
structure Chip where
  noise : Nat → UInt8
  lockFuse : Nat → UInt8

/-- 命令が読み書きする状態。`responses` は `WriteNextResponseByte` に渡したバイトで、ホストが離れた後のバイトは届かない。 -/
structure Device where
  flash : Nat → UInt8
  page : Flash.Buffer
  /-- RWW 領域を読めない -/
  rwwBusy : Bool
  eeprom : Nat → UInt8
  currAddress : UInt32
  timeout : UInt16
  responses : List UInt8

/-- フラッシュの番地。`Z` レジスターは 16 ビットで、フラッシュの大きさを越えるビットは使われない。 -/
def flashAddress (a : UInt32) : Nat := a.toNat % flashSize

namespace Device

def bootPageErase (a : UInt32) (d : Device) : Device :=
  { d with flash := Flash.erase pageSize (flashAddress a) d.flash
           rwwBusy := d.rwwBusy || decide (flashAddress a < bootStart) }

def bootPageFill (a : UInt32) (v : UInt16) (d : Device) : Device :=
  { d with page := d.page.fill (flashAddress a % pageSize / 2) v }

def bootPageWrite (a : UInt32) (d : Device) : Device :=
  { d with flash := Flash.program pageSize (flashAddress a) d.page d.flash
           page := Flash.Buffer.empty
           rwwBusy := d.rwwBusy || decide (flashAddress a < bootStart) }

def bootRwwEnable (d : Device) : Device := { d with rwwBusy := false, page := Flash.Buffer.empty }

/-- `pgm_read_byte` -/
def pgmReadByte (chip : Chip) (a : UInt32) (d : Device) : UInt8 :=
  if d.rwwBusy && decide (flashAddress a < bootStart) then chip.noise (flashAddress a) else d.flash (flashAddress a)

/-- `(uint8_t*)(intptr_t)(CurrAddress >> 1)` -/
def eepromAddress (d : Device) : Nat := (d.currAddress >>> 1).toNat % 2 ^ 16

def eepromWriteByte (v : UInt8) (d : Device) : Device :=
  { d with eeprom := Function.update d.eeprom d.eepromAddress v, page := Flash.Buffer.empty }

/-- `CurrAddress += 2` -/
def advance (d : Device) : Device := { d with currAddress := d.currAddress + 2 }

def writeNextResponseByte (response : UInt8) (d : Device) : Device := { d with responses := d.responses ++ [response] }

/-- `WriteNextResponseByte` を順に行う。 -/
def respond (bs : List UInt8) (d : Device) : Device := bs.foldl (fun d b => d.writeNextResponseByte b) d

end Device

/-! ## `ReadWriteMemoryBlock` -/

def code (c : Char) : UInt8 := UInt8.ofNat c.toNat

/-- `'\r'` -/
def ok : UInt8 := 13

abbrev fetchNextCommandByte : Fetch UInt8 UInt8 := Fetch.fetch

section Program

variable (chip : Chip)

/-- フラッシュを読む繰り返し。語の二つのバイトを読むと、番地を進める。 -/
def readFlash : Nat → Bool → Device → Device
  | 0, _, d => d
  | n + 1, highByte, d =>
      let d := d.writeNextResponseByte (d.pgmReadByte chip (d.currAddress ||| highByte.toUInt32))
      readFlash n (!highByte) (if highByte then d.advance else d)

/-- EEPROM を読む繰り返し。 -/
def readEeprom : Nat → Device → Device
  | 0, d => d
  | n + 1, d => readEeprom n (d.writeNextResponseByte (d.eeprom d.eepromAddress)).advance

/-- フラッシュに書く値を一時のバッファーに用意する繰り返し。 -/
def fillFlash : Nat → Bool → UInt8 → Device → Fetch UInt8 Device
  | 0, _, _, d => pure d
  | n + 1, highByte, lowByte, d => do
      let b ← fetchNextCommandByte
      if highByte then
        fillFlash n false lowByte (d.bootPageFill d.currAddress (Flash.Buffer.word lowByte b)).advance
      else fillFlash n true b d

/-- EEPROM に書く繰り返し。 -/
def writeEeprom : Nat → Device → Fetch UInt8 Device
  | 0, d => pure d
  | n + 1, d => do
      let b ← fetchNextCommandByte
      writeEeprom n (d.eepromWriteByte b).advance

/-- 読む側の `ReadWriteMemoryBlock`。 -/
def readBlock (memoryType : UInt8) (blockSize : Nat) (d : Device) : Device :=
  let d := d.bootRwwEnable
  if memoryType = code 'F' then readFlash chip blockSize false d else readEeprom blockSize d

/-- 書く側の `ReadWriteMemoryBlock`。 -/
def writeBlock (memoryType : UInt8) (blockSize : Nat) (d : Device) : Fetch UInt8 Device :=
  if memoryType = code 'F' then do
    let start := d.currAddress
    let d ← fillFlash blockSize false 0 (d.bootPageErase start)
    return (d.bootPageWrite start).writeNextResponseByte ok
  else do
    let d ← writeEeprom blockSize d
    return d.writeNextResponseByte ok

def readWriteMemoryBlock (command : UInt8) (d : Device) : Fetch UInt8 Device := do
  let hi ← fetchNextCommandByte
  let lo ← fetchNextCommandByte
  let memoryType ← fetchNextCommandByte
  let blockSize := hi.toNat * 256 + lo.toNat
  if memoryType ≠ code 'E' ∧ memoryType ≠ code 'F' then return d.writeNextResponseByte (code '?')
  else if command = code 'g' then return readBlock chip memoryType blockSize d
  else writeBlock memoryType blockSize d

/-! ## `CDC_Task` -/

/-- 二つのバイトからなる番地。`int` は 16 ビットで、符号を広げる。 -/
def wordAddress (hi lo : UInt8) : UInt32 :=
  toLong (Int.bmod (hi.toNat * 512) (2 ^ 16)) ||| toLong (lo.toNat * 2)

/-- アプリケーションの領域を消す。 -/
def eraseAll (d : Device) : Device :=
  (List.range (bootStart / pageSize)).foldl (fun d k =>
    let a := UInt32.ofNat (k * pageSize)
    (d.bootPageErase a).bootPageWrite a) d

/-- 命令 `c` の分岐。 -/
def dispatch (c : UInt8) (d : Device) : Fetch UInt8 Device := do
  if c = code 'E' then return { d with timeout := timeoutPeriod - 500 }.bootRwwEnable.writeNextResponseByte ok
  else if c = code 'T' then
    let _ ← fetchNextCommandByte
    return d.writeNextResponseByte ok
  else if c = code 'L' ∨ c = code 'P' then return d.writeNextResponseByte ok
  else if c = code 't' then return d.respond [0x44, 0x00]
  else if c = code 'a' then return d.writeNextResponseByte (code 'Y')
  else if c = code 'A' then
    let hi ← fetchNextCommandByte
    let lo ← fetchNextCommandByte
    return { d with currAddress := wordAddress hi lo }.writeNextResponseByte ok
  else if c = code 'p' then return d.writeNextResponseByte (code 'S')
  else if c = code 'S' then return d.respond (ascii ['C', 'A', 'T', 'E', 'R', 'I', 'N'])
  else if c = code 'V' then return d.respond [code '0' + 1, code '0' + 0]
  else if c = code 's' then return d.respond [0x87, 0x95, 0x1e]
  else if c = code 'e' then return (eraseAll d).writeNextResponseByte ok
  else if c = code 'r' then return d.writeNextResponseByte (chip.lockFuse 1)
  else if c = code 'F' then return d.writeNextResponseByte (chip.lockFuse 0)
  else if c = code 'N' then return d.writeNextResponseByte (chip.lockFuse 3)
  else if c = code 'Q' then return d.writeNextResponseByte (chip.lockFuse 2)
  else if c = code 'b' then return d.respond [code 'Y', 0, 128]
  else if c = code 'B' ∨ c = code 'g' then readWriteMemoryBlock chip c { d with timeout := 0 }
  else if c = code 'C' then
    -- 値は語の下位のバイトに入り、番地は進まない
    let b ← fetchNextCommandByte
    return (d.bootPageFill d.currAddress b.toUInt16).writeNextResponseByte ok
  else if c = code 'c' then
    let b ← fetchNextCommandByte
    return (d.bootPageFill (d.currAddress ||| 1) b.toUInt16).advance.writeNextResponseByte ok
  else if c = code 'm' then return (d.bootPageWrite d.currAddress).writeNextResponseByte ok
  else if c = code 'R' then
    return d.respond [d.pgmReadByte chip (d.currAddress + 1), d.pgmReadByte chip d.currAddress]
  else if c = code 'D' then
    let b ← fetchNextCommandByte
    return (d.eepromWriteByte b).advance.writeNextResponseByte ok
  else if c = code 'd' then return (d.writeNextResponseByte (d.eeprom d.eepromAddress)).advance
  else if c ≠ 27 then return d.writeNextResponseByte (code '?')
  else return d

def command (d : Device) : Fetch UInt8 Device := do
  let c ← fetchNextCommandByte
  dispatch chip c d

/-- `CDC_Task`。パケットが届いていれば命令を一つ処理し、最後のパケットの余りを捨てる。 -/
def cdcTask (x : Device × List (List UInt8)) : Device × List (List UInt8) :=
  match x.2 with
  | [] => x
  | p :: ps =>
      let r := (command chip x.1).run 0 ⟨p, ps, true⟩
      (r.1, r.2.queue)

/-- 命令 `bs` を行う。 -/
def perform (d : Device) (bs : List UInt8) : Device := (((command chip d).feed bs).map Prod.fst).getD d

def performAll (d : Device) (cs : List (List UInt8)) : Device := cs.foldl (perform chip) d

end Program

/-! ## ホストの送る命令 -/

/-- 命令の長さ。先頭の四バイトまでで決まる。 -/
def commandLength : List UInt8 → Nat
  | [] => 1
  | c :: args =>
      if c = code 'A' then 3
      else if c = code 'T' ∨ c = code 'C' ∨ c = code 'c' ∨ c = code 'D' then 2
      else if c = code 'B' ∨ c = code 'g' then
        let memoryType := args.getD 2 0
        if c = code 'B' ∧ (memoryType = code 'E' ∨ memoryType = code 'F') then
          4 + ((args.getD 0 0).toNat * 256 + (args.getD 1 0).toNat)
        else 4
      else 1

def setAddress (a : Nat) : List UInt8 := [code 'A', UInt8.ofNat (a / 512), UInt8.ofNat (a / 2)]

def blockCommand (c memoryType : Char) (n : Nat) : List UInt8 :=
  [code c, UInt8.ofNat (n / 256), UInt8.ofNat n, code memoryType]

/-- EEPROM の `base` から `data` を書いた結果。 -/
def overlaid (base : Nat) (data : List UInt8) (m : Nat → UInt8) : Nat → UInt8 := fun x =>
  if base ≤ x then (data[x - base]?).getD (m x) else m x

/-- 先頭の命令が書き込みなら、番地はブートローダーの前にある。 -/
def Guarded (x : Device × List (List UInt8)) : Prop :=
  ∀ c, x.2.flatten.head? = some c → c = code 'B' ∨ c = code 'm' → flashAddress x.1.currAddress < bootStart

end Wagman.V3.Avr109
