import Wagman.V3.Firmware

/-!
# 心拍を数える細かい実行

`Device::updateHeartbeat` は、`heartbeatCounters[i]` を 8 と比べ、0 にし、`onHeartbeat()` を呼ぶ。比べることと 0 にすることは
別々の操作で、その間にもタイマー 1 の割り込みが入る。割り込みは途中で割り込まれないので、一つの操作とする。
-/

namespace Wagman.V3.Beats

/-- `updateHeartbeat` の位置。 -/
inductive Phase
  | rest
  /-- `heartbeatCounters[i]` が 8 以上であることを読んだ -/
  | reached (i : Port)
  /-- `heartbeatCounters[i]` を 0 にした -/
  | cleared (i : Port)
  deriving DecidableEq

/-- 割り込みと `loop` が使う変数。`calls` は `updateHeartbeat` が `onHeartbeat()` を呼んだ回数である。 -/
structure Shared where
  heartbeatState : Port → Bool
  heartbeatCounters : Port → UInt8
  phase : Phase
  calls : Port → Nat

inductive Op
  /-- 割り込み。`levels` は `HEARTBEAT_PINS` の値である -/
  | timer1Overflow (levels : Port → Bool)
  /-- `if (heartbeatCounters[i] >= 8)` -/
  | compare (i : Port)
  /-- `heartbeatCounters[i] = 0` -/
  | clear
  /-- `onHeartbeat()` -/
  | onHeartbeat

/-- 割り込みが見た、ポート `p` のピンの値。 -/
def Op.sample (p : Port) : Op → Option Bool
  | .timer1Overflow levels => some (levels p)
  | _ => none

/-- 操作の並びの中で、ポート `p` のピンについて見られた値の並び。 -/
def samples (p : Port) (ops : List Op) : List Bool := ops.filterMap (Op.sample p)

namespace Shared

def timer1Overflow (levels : Port → Bool) (s : Shared) : Shared :=
  { s with
    heartbeatCounters := fun i =>
      if s.heartbeatState i ≠ levels i then s.heartbeatCounters i + 1 else s.heartbeatCounters i
    heartbeatState := levels }

/-- 一つの操作。`loop` の操作は、プログラムの順にだけ行える。 -/
def step : Op → Shared → Option Shared
  | .timer1Overflow levels, s => some (s.timer1Overflow levels)
  | .compare i, s =>
      match s.phase with
      | .rest => some (if 8 ≤ s.heartbeatCounters i then { s with phase := .reached i } else s)
      | _ => none
  | .clear, s =>
      match s.phase with
      | .reached i => some { s with
          heartbeatCounters := Function.update s.heartbeatCounters i 0, phase := .cleared i }
      | _ => none
  | .onHeartbeat, s =>
      match s.phase with
      | .cleared i => some { s with calls := Function.update s.calls i (s.calls i + 1), phase := .rest }
      | _ => none

/-- `Wagman::init` の直後。割り込みはまだ入っていないので、`heartbeatState` は静的な初期値 `LOW` である。 -/
def start : Shared where
  heartbeatState _ := false
  heartbeatCounters _ := 0
  phase := .rest
  calls _ := 0

end Shared

end Wagman.V3.Beats
