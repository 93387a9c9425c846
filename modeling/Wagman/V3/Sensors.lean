import Wagman.V3.Firmware

/-!
# 計測器の健康の値を数える細かい実行

`checkSensors` は、計測器を読む前に健康の値を 1 増やして EEPROM に書き、読めたら 1 減らす。値が範囲の外なら三回まで
繰り返す。読むことがリセットを起こせば、増やした値が残る。リセットは、書き込みの間にも、読んでいる間にも起きる。
-/

namespace Wagman.V3.Sensors

inductive Kind
  | current
  | thermistor
  deriving DecidableEq, Repr

structure Sensor where
  kind : Kind
  port : Port
  deriving DecidableEq, Repr

/-- 健康の値の番地。 -/
def Sensor.healthAddr : Sensor → Nat
  | ⟨.current, i⟩ => Record.deviceRegion i + Record.portCurrentHealth
  | ⟨.thermistor, i⟩ => Record.deviceRegion i + Record.portThermistorHealth

/-- 読んだ値がこれ以下なら、繰り返さない。 -/
def Sensor.bound : Sensor → UInt16
  | ⟨.current, _⟩ => 5000
  | ⟨.thermistor, _⟩ => 10000

/-- `checkCurrentSensors` と `checkThermistors` が調べる順。 -/
def sensors : List Sensor :=
  (List.finRange 5).map (fun i => ⟨.current, i⟩) ++ (List.finRange 5).map fun i => ⟨.thermistor, i⟩

/-- `checkSensors` の位置。`rest` は残りの計測器、`left` は今の回の後に残る回数である。 -/
inductive Spot
  /-- 実行の間 -/
  | idle
  /-- 次の計測器の健康の値を調べる -/
  | next (rest : List Sensor)
  /-- `s` の健康の値を増やす -/
  | attempt (s : Sensor) (left : Nat) (rest : List Sensor)
  /-- 増やした。`s` を読む -/
  | raised (s : Sensor) (left : Nat) (rest : List Sensor)
  /-- `value` を読んだ。`s` の健康の値を減らす -/
  | sensed (s : Sensor) (left : Nat) (value : UInt16) (rest : List Sensor)
  deriving DecidableEq

/-- 健康の値を増やして、まだ減らしていない計測器。 -/
def Spot.probing : Spot → Option Sensor
  | .raised s _ _ | .sensed s _ _ _ => some s
  | _ => none

/-- 調べている計測器。 -/
def Spot.sensor : Spot → Option Sensor
  | .attempt s _ _ | .raised s _ _ | .sensed s _ _ _ => some s
  | _ => none

/-- EEPROM と実行の位置。`cuts` は健康の値を増やしてから減らすまでの間に途切れた実行の回数、`reads` は読んだ回数である。 -/
structure Probe where
  eeprom : Nat → UInt8
  spot : Spot
  cuts : Sensor → Nat
  reads : Sensor → Nat

inductive Move
  /-- `checkSensors` を始める -/
  | begin
  /-- `if (health >= 5) continue` -/
  | check
  /-- `setHealth(getHealth() + 1)` -/
  | raise
  /-- 計測器を読み、`value` を得る -/
  | sense (value : UInt16)
  /-- `setHealth(getHealth() - 1)` と、繰り返すかどうかの判定 -/
  | lower
  /-- `checkSensors` を終える -/
  | finish
  | reset

namespace Probe

def health (p : Probe) (s : Sensor) : UInt8 := p.eeprom s.healthAddr

def setHealth (s : Sensor) (health : UInt8) (p : Probe) : Probe :=
  { p with eeprom := Bytes.store s.healthAddr health p.eeprom }

/-- `left` 回残っているとき、`value` を読んだ後の位置。 -/
def after (s : Sensor) (left : Nat) (value : UInt16) (rest : List Sensor) : Spot :=
  if value ≤ s.bound then .next rest
  else
    match left with
    | 0 => .next rest
    | left + 1 => .attempt s left rest

/-- 一つの操作。リセットのほかは、プログラムの順にだけ行える。 -/
def step : Move → Probe → Option Probe
  | .begin, p =>
      match p.spot with
      | .idle => some { p with spot := .next sensors }
      | _ => none
  | .check, p =>
      match p.spot with
      | .next (s :: rest) => some { p with spot := if 5 ≤ p.health s then .next rest else .attempt s 2 rest }
      | _ => none
  | .raise, p =>
      match p.spot with
      | .attempt s left rest => some { p.setHealth s (p.health s + 1) with spot := .raised s left rest }
      | _ => none
  | .sense value, p =>
      match p.spot with
      | .raised s left rest => some { p with
          reads := Function.update p.reads s (p.reads s + 1), spot := .sensed s left value rest }
      | _ => none
  | .lower, p =>
      match p.spot with
      | .sensed s left value rest => some { p.setHealth s (p.health s - 1) with spot := after s left value rest }
      | _ => none
  | .finish, p =>
      match p.spot with
      | .next [] => some { p with spot := .idle }
      | _ => none
  | .reset, p =>
      match p.spot.probing with
      | some s => some { p with cuts := Function.update p.cuts s (p.cuts s + 1), spot := .idle }
      | none => some { p with spot := .idle }

/-- まだ一度も実行していない。 -/
def start (eeprom : Nat → UInt8) : Probe where
  eeprom := eeprom
  spot := .idle
  cuts _ := 0
  reads _ := 0

end Probe

end Wagman.V3.Sensors
