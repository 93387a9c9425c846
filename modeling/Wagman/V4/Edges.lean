import Wagman.V4.Firmware

/-!
# 心拍ピンの検出の細かい実行

`loop` の末尾は、`detectHB[i]` を読み、真なら消して `heartbeatCounters[i]` を増やす。三つは別々の操作で、その間にもタイマー
割り込み `checkPinHB` が入る。割り込みは途中で割り込まれないので、一つの操作とする。
-/

namespace Wagman.V4.Edges

/-- `loop` が検出を調べている位置。 -/
inductive Phase
  | rest
  /-- `detectHB[i]` が真であることを読んだ -/
  | seen (i : Port)
  /-- `detectHB[i]` を消した -/
  | cleared (i : Port)
  deriving DecidableEq

/-- 割り込みと `loop` が使う変数。 -/
structure Shared where
  detectHB : Port → Bool
  lastHBPinState : Port → Bool
  heartbeatCounters : Port → UInt32
  phase : Phase

inductive Op
  /-- 割り込み。`state` は `CS_HB_PIN` の値である -/
  | checkPinHB (state : Bool)
  /-- `if (detectHB[i])` -/
  | examine (i : Port)
  /-- `detectHB[i] = false` -/
  | clear
  /-- `heartbeatCounters[i]++` -/
  | count
  /-- `devices[i].updateHeartbeat()` -/
  | updateHeartbeat (i : Port)

/-- 割り込みが見た `CS_HB_PIN` の値。 -/
def Op.sample : Op → Option Bool
  | .checkPinHB state => some state
  | _ => none

/-- 操作の並びの中で、`CS_HB_PIN` について見られた値の並び。 -/
def samples (ops : List Op) : List Bool := ops.filterMap Op.sample

namespace Shared

def checkPinHB (state : Bool) (s : Shared) : Shared :=
  { s with
    detectHB := Function.update (Function.update (Function.update s.detectHB
      2 (state != s.lastHBPinState 2)) 3 false) 4 false
    lastHBPinState := Function.update s.lastHBPinState 2 state }

/-- 一つの操作。`loop` の操作は、プログラムの順にだけ行える。 -/
def step : Op → Shared → Option Shared
  | .checkPinHB state, s => some (s.checkPinHB state)
  | .examine i, s =>
      match s.phase with
      | .rest => some (if s.detectHB i then { s with phase := .seen i } else s)
      | _ => none
  | .clear, s =>
      match s.phase with
      | .seen i => some { s with detectHB := Function.update s.detectHB i false, phase := .cleared i }
      | _ => none
  | .count, s =>
      match s.phase with
      | .cleared i => some { s with
          heartbeatCounters := Function.update s.heartbeatCounters i (s.heartbeatCounters i + 1), phase := .rest }
      | _ => none
  | .updateHeartbeat i, s =>
      match s.phase with
      | .rest => some (if 4 ≤ s.heartbeatCounters i then
          { s with heartbeatCounters := Function.update s.heartbeatCounters i 0 } else s)
      | _ => none

end Shared

/-! ## 経過 -/

/-- `detectHB[2]` についての出来事。 -/
inductive Mark
  /-- `checkPinHB` が実行され、ピンの値が前に見た値と違っていたかどうか -/
  | ran (edge : Bool)
  /-- `loop` が `detectHB[2]` を消した -/
  | cleared
  deriving DecidableEq

/-- 実行の経過。`level` は最後に見られたピンの値で、初めは `LOW` とする。`since` は、`loop` が前に `detectHB[2]` を調べてからの
出来事で、新しいものを先頭に置く。 -/
structure History where
  level : Bool := false
  increments : Nat := 0
  since : List Mark := []

def History.record : Op → Shared → History → History
  | .checkPinHB state, _, h => { h with level := state, since := .ran (state != h.level) :: h.since }
  | .examine i, _, h => if i = 2 then { h with since := [] } else h
  | .clear, s, h => if s.phase = .seen 2 then { h with since := .cleared :: h.since } else h
  | .count, s, h => if s.phase = .cleared 2 then { h with increments := h.increments + 1 } else h
  | .updateHeartbeat _, _, h => h

/-- 経過を記しながらの一歩。 -/
def step (o : Op) (x : Shared × History) : Option (Shared × History) :=
  (x.1.step o).map fun s => (s, x.2.record o x.1)

/-- 静的な変数の初期値。 -/
def start : Shared × History :=
  ({ detectHB := fun _ => false, lastHBPinState := fun _ => false,
     heartbeatCounters := fun _ => 0, phase := .rest }, {})

/-! ## 常用ファームウェアとの対応 -/

/-- `loop` が検出を調べていないときの変数。 -/
def Shared.ofRam (r : Ram) : Shared := ⟨r.detectHB, r.lastHBPinState, r.heartbeatCounters, .rest⟩

/-- 割り込みの入らない、`loop` の末尾の操作。 -/
def examineAll (detectHB : Port → Bool) (is : List Port) : List Op :=
  is.flatMap fun i => if detectHB i then [.examine i, .clear, .count] else [.examine i]

end Wagman.V4.Edges
