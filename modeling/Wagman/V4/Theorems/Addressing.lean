import Wagman.V4.Lemmas.Setup

/-!
# 要求の番号と機器

要求の番号 `sub_id` は 1 から始まり、機器 `sub_id - 1` を指す。`FC` と `TH` だけは 1 を引かずに使い、`validPort` は番号の
下位の一バイトだけを調べる。番号ごとに、すべての要求が同じ機器を指す条件を示す。
-/

namespace Wagman.V4

open Machine

variable {env : Env} {w : World} {subId : Int}

/-! ## 番号の意味 -/

/-- 番号の指す機器。 -/
def device? (subId : Int) : Option Port :=
  if h : 1 ≤ subId ∧ subId ≤ 5 then some ⟨(subId - 1).toNat, by omega⟩ else none

/-- 番号で機器を指す要求と、電圧の報告。 -/
inductive Addressed
  | hb
  | fc
  | th
  | deviceState
  | start
  | stop
  | deviceEnable
  | ping
  | voltage
  deriving DecidableEq, Repr

namespace Addressed

/-- 要求を送ることが許されている。 -/
def Allowed (isadmin : Bool) (port : Int) (subId : Int) : Addressed → Prop
  | .start | .stop | .deviceEnable => isadmin = true
  | .ping => isadmin = true ∨ port = subId - 1
  | _ => True

/-- ファームウェアの処理。 -/
def handle (env : Env) (isadmin : Bool) (port : Int) (subId : Int) (value : Option UInt32) (w : World) :
    Addressed → Option World
  | .hb => dispatch env isadmin port ⟨0xc002, subId, value⟩ w
  | .fc => dispatch env isadmin port ⟨0xc006, subId, value⟩ w
  | .th => dispatch env isadmin port ⟨0xc003, subId, value⟩ w
  | .deviceState => dispatch env isadmin port ⟨0xc00b, subId, value⟩ w
  | .start => dispatch env isadmin port ⟨0xc007, subId, value⟩ w
  | .stop => dispatch env isadmin port ⟨0xc008, subId, value⟩ w
  | .deviceEnable => dispatch env isadmin port ⟨0xc00c, subId, value⟩ w
  | .ping => dispatch env isadmin port ⟨0xff1e, subId, value⟩ w
  | .voltage => some (commandVoltage env subId w)

/-- 要求の意味。機器 `target` についてだけ働き、指す機器がなければ 0 を応答するだけである。 -/
def serve (env : Env) (subId : Int) (value : Option UInt32) (target : Option Port) (w : World) : Addressed → World
  | .hb => basicResp env pubWagmanHb subId (some (target.elim 0 fun i => Device.timeSinceHeartbeat i w)) w
  | .fc =>
      basicResp env pubWagmanFc subId (some (target.elim 0 fun i => Record.getBootFailures w.hw.eeprom i))
        (ioRead env w)
  | .th => basicResp env pubWagmanTh subId (some (target.elim 0 (env.thermistor w.io))) (ioRead env w)
  | .voltage => basicResp env pubWagmanVoltage subId (some (target.elim 0 (env.voltage w.io))) (ioRead env w)
  | .deviceState =>
      basicResp env pubWagmanDeviceState subId (some (target.elim 0 fun i => (dev w i).state.code)) w
  | .start =>
      match target with
      | some i => basicResp env pubWagmanStart subId (some 1)
          (w.setRam { w.ram with deviceWantsStart := UInt8.ofNat i.val })
      | none => basicResp env pubWagmanStart subId (some 0) w
  | .stop =>
      match value, target with
      | some after, some i => basicResp env pubWagmanStop subId (some 1)
          (Device.stop env i (Device.setStopTimeout i (after * 1000) w)).2
      | _, _ => basicResp env pubWagmanStop subId (some 0) w
  | .deviceEnable =>
      match target with
      | some i => basicResp env pubWagmanDeviceEnable subId (some 1) (Device.enable env i w)
      | none => basicResp env pubWagmanDeviceEnable subId (some 0) w
  | .ping =>
      match target with
      | some i => basicResp env pubWagmanPing subId (some 1)
          (w |> setLED env (i.val + 1) false
             |> Device.sendExternalHeartbeat env i
             |> delay env 50
             |> setLED env (i.val + 1) true)
      | none => basicResp env pubWagmanPing subId (some 0) w

end Addressed

/-- 番号 `subId` のすべての要求が、どの到達可能な状態でも、同じ機器を指す。 -/
def Consistent (subId : Int) : Prop :=
  ∀ (env : Env) (h : Hardware) (ops : List Op) (w : World), run env ops (booted env h) = some w →
    ∀ (q : Addressed) (isadmin : Bool) (port : Int) (value : Option UInt32), q.Allowed isadmin port subId →
      q.handle env isadmin port subId value w = some (q.serve env subId value (device? subId) w)

theorem device?_eq_none (h : ¬ (1 ≤ subId ∧ subId ≤ 5)) : device? subId = none := dif_neg h

theorem device?_succ (i : Port) : device? ((i.val : Int) + 1) = some i := by
  have hlt := i.isLt
  have heq : device? ((i.val : Int) + 1) = some ⟨((i.val : Int) + 1 - 1).toNat, by omega⟩ := dif_pos (by omega)
  rw [heq]
  simp

/-! ## 機器を指さない番号 -/

/-- 下位の一バイトが 5 より大きい番号は、どの要求にも退けられる。 -/
theorem consistent_of_lt (h : 5 < subId % 256) : Consistent subId := by
  intro env _ _ w _ q isadmin port value hq
  have hnone : device? subId = none := device?_eq_none (by omega)
  have hv : validPort (subId - 1) = false := by
    simp only [validPort, decide_eq_false_iff_not]
    omega
  have hv' : validPort subId = false := by
    simp only [validPort, decide_eq_false_iff_not]
    omega
  rw [hnone]
  cases q with
  | hb =>
      simp [Addressed.handle, Addressed.serve, dispatch, Req.ofId, commandHeartbeat, commandHeartbeatMain, sensorMain,
        hv]
  | fc => simp [Addressed.handle, Addressed.serve, dispatch, Req.ofId, commandFailCount, commandFailCountMain, hv']
  | th =>
      simp [Addressed.handle, Addressed.serve, dispatch, Req.ofId, commandThermistor, commandThermistorMain,
        sensorMain, hv']
  | deviceState =>
      simp [Addressed.handle, Addressed.serve, dispatch, Req.ofId, commandState, commandStateMain, sensorMain, hv]
  | voltage => simp [Addressed.handle, Addressed.serve, commandVoltage, commandVoltageMain, sensorMain, hv]
  | start =>
      have ha : isadmin = true := hq
      simp [Addressed.handle, Addressed.serve, dispatch, Req.ofId, ha, commandStart, commandStartMain, hv]
  | stop =>
      have ha : isadmin = true := hq
      cases value with
      | none => simp [Addressed.handle, Addressed.serve, dispatch, Req.ofId, ha]
      | some after => simp [Addressed.handle, Addressed.serve, dispatch, Req.ofId, ha, commandStop, commandStopMain, hv]
  | deviceEnable =>
      have ha : isadmin = true := hq
      simp [Addressed.handle, Addressed.serve, dispatch, Req.ofId, ha, commandEnable, commandEnableMain, hv]
  | ping =>
      have ha : isadmin = true ∨ port = subId - 1 := hq
      simp [Addressed.handle, Addressed.serve, dispatch, Req.ofId, ha, commandPing, commandPingMain, hv]

/-! ## 機器を指す番号 -/

theorem validPort_val (i : Port) : validPort (i.val : Int) = true := by
  have hlt := i.isLt
  simp only [validPort, decide_eq_true_eq]
  omega

theorem index?_val (i : Port) : index? (i.val : Int) = some i := by
  have hlt := i.isLt
  rw [index?, dif_pos (by omega)]
  simp

/-- 1 から 5 までの番号の要求は、`FC` と `TH` のほかは、1 を引いた番号の機器を指す。 -/
theorem handle_eq_serve (env : Env) (i : Port) (w : World) {q : Addressed} {isadmin : Bool} {port : Int}
    (value : Option UInt32)
    (hq : q.Allowed isadmin port ((i.val : Int) + 1)) (hfc : q ≠ .fc) (hth : q ≠ .th) :
    q.handle env isadmin port ((i.val : Int) + 1) value w =
      some (q.serve env ((i.val : Int) + 1) value (device? ((i.val : Int) + 1)) w) := by
  have hv := validPort_val i
  have hi := index?_val i
  have hsub : (i.val : Int) + 1 - 1 = i.val := Int.add_sub_cancel _ _
  rw [device?_succ]
  cases q with
  | hb =>
      simp [Addressed.handle, Addressed.serve, dispatch, Req.ofId, commandHeartbeat, commandHeartbeatMain, sensorMain,
        hsub, hv, hi]
  | fc => exact absurd rfl hfc
  | th => exact absurd rfl hth
  | deviceState =>
      simp [Addressed.handle, Addressed.serve, dispatch, Req.ofId, commandState, commandStateMain, sensorMain, hsub,
        hv, hi]
  | voltage => simp [Addressed.handle, Addressed.serve, commandVoltage, commandVoltageMain, sensorMain, hsub, hv, hi]
  | start =>
      have ha : isadmin = true := hq
      have hlt := i.isLt
      have hbyte : ((i.val : Int) % 256).toNat = i.val := by omega
      simp [Addressed.handle, Addressed.serve, dispatch, Req.ofId, ha, commandStart, commandStartMain, hsub, hv, hbyte]
  | stop =>
      have ha : isadmin = true := hq
      cases value with
      | none => simp [Addressed.handle, Addressed.serve, dispatch, Req.ofId, ha]
      | some after =>
          simp [Addressed.handle, Addressed.serve, dispatch, Req.ofId, ha, commandStop, commandStopMain, hsub, hv, hi]
  | deviceEnable =>
      have ha : isadmin = true := hq
      simp [Addressed.handle, Addressed.serve, dispatch, Req.ofId, ha, commandEnable, commandEnableMain, hsub, hv, hi]
  | ping =>
      have ha : isadmin = true ∨ port = i.val := hsub ▸ hq
      simp [Addressed.handle, Addressed.serve, dispatch, Req.ofId, ha, commandPing, commandPingMain, hsub, hv, hi]

/-! ## 食い違う番号 -/

theorem basicResp_inj {id : Nat} {v v' : Option UInt32} (h : basicResp env id subId v w = basicResp env id subId v' w) :
    v = v' := by
  have hlog := congrArg (fun u => u.log.head?) h
  simpa [basicResp, Machine.emit] using hlog

/-- 温度計ごとに違う値を返す環境。 -/
def Env.marked : Env := { Env.ideal with thermistor := fun _ i => UInt32.ofNat (i.val + 1) }

/-- どの番号でも、すべての要求が揃うなら、`TH` と `HB` の読む先も揃う。 -/
theorem reads_of_consistent (h : Consistent subId) (w : World) (hw : w = booted Env.marked Hardware.ready) :
    commandThermistorMain Env.marked subId w = some ((device? subId).elim 0 fun i => UInt32.ofNat (i.val + 1)) ∧
      (commandHeartbeatMain (subId - 1) w).isSome := by
  have hth := h Env.marked Hardware.ready [] w (by rw [hw]; rfl) .th true 0 none trivial
  have hhb := h Env.marked Hardware.ready [] w (by rw [hw]; rfl) .hb true 0 none trivial
  simp only [Addressed.handle, Addressed.serve, dispatch, Req.ofId, commandThermistor, commandHeartbeat,
    Option.some.injEq] at hth hhb
  exact ⟨basicResp_inj hth, by rw [basicResp_inj hhb]; rfl⟩

theorem not_consistent_of_le (h : subId % 256 ≤ 5) : ¬ Consistent subId := by
  intro hall
  obtain ⟨hth, hhb⟩ := reads_of_consistent hall _ rfl
  by_cases h5 : subId % 256 = 5
  · -- `TH` は機器 4 を退け、`HB` は 5 でない番号で配列の外を読む
    by_cases h5' : subId = 5
    · subst h5'
      simp [commandThermistorMain, sensorMain, validPort, device?] at hth
    · have hv : validPort (subId - 1) = true := by
        simp only [validPort, decide_eq_true_eq]
        omega
      have hi : index? (subId - 1) = none := dif_neg (by omega)
      simp [commandHeartbeatMain, sensorMain, hv, hi] at hhb
  · have hv : validPort subId = true := by
      simp only [validPort, decide_eq_true_eq]
      omega
    by_cases hin : 0 ≤ subId ∧ subId < 5
    · -- `TH` は一つ後の機器を読む
      have hi : index? subId = some ⟨subId.toNat, by omega⟩ := dif_pos hin
      simp only [commandThermistorMain, sensorMain, hv, hi, if_true, Option.map_some, Option.some.injEq] at hth
      have hnat := congrArg UInt32.toNat hth
      by_cases h0 : subId = 0
      · subst h0
        simp [device?, Env.marked] at hnat
      · have hd : device? subId = some ⟨(subId - 1).toNat, by omega⟩ := dif_pos (by omega)
        simp only [hd, Option.elim_some, Env.marked, UInt32.toNat_ofNat'] at hnat
        omega
    · -- `TH` は配列の外を読む
      have hi : index? subId = none := dif_neg hin
      simp [commandThermistorMain, sensorMain, hv, hi] at hth

/-! ## 報告の並び -/

/-- 一つの番号についての報告。値は報告する時点の装置の状態と、読む回数で決まる。 -/
def report (env : Env) (id : Nat) (f : Hardware → Nat → Int → Option UInt32) (w : World) (k : Int) : World :=
  basicResp env id k (f w.hw w.io k) (ioRead env w)

/-- 順に報告される値。 -/
def reported (f : Hardware → Nat → Int → Option UInt32) (hw : Hardware) : Nat → List Int → List (Option UInt32)
  | _, [] => []
  | io, k :: ks => f hw io k :: reported f hw (io + 2) ks

/-- 記録にある `id` の応答の値を、古い順に並べたもの。 -/
def answers (id : Nat) (log : Log) : List (Option UInt32) :=
  log.reverse.filterMap fun x => match x.event with
    | .resp i _ v => if i = id then some v else none
    | _ => none

/-- `id` の応答のほかの事象。 -/
def Event.Skips (id : Nat) : Event → Prop
  | .resp i _ _ => i ≠ id
  | _ => True

theorem answers_eq {id : Nat} {w' : World} (h : Trail (Event.Skips id) w w') : answers id w'.log = answers id w.log := by
  refine h.log_eq fun x l hx => ?_
  unfold answers
  rw [List.reverse_cons, List.filterMap_append]
  cases he : x.event with
  | resp i s v =>
      rw [he] at hx
      have hne : i ≠ id := hx
      simp [he, hne]
  | _ => simp [he]

section Report

variable {id : Nat} (f g : Hardware → Nat → Int → Option UInt32) (ks : List Int)

theorem foldl_report_hw (w : World) : (ks.foldl (report env id f) w).hw = w.hw := by
  induction ks generalizing w with
  | nil => rfl
  | cons k ks ih => exact ih _

theorem foldl_report_io (w : World) : (ks.foldl (report env id f) w).io = w.io + 2 * ks.length := by
  induction ks generalizing w with
  | nil => rfl
  | cons k ks ih =>
      rw [List.foldl_cons, ih, List.length_cons]
      simp only [report, basicResp, Machine.emit, ioRead, delay, elapse]
      omega

theorem answers_foldl_report (w : World) :
    answers id (ks.foldl (report env id f) w).log = answers id w.log ++ reported f w.hw w.io ks := by
  induction ks generalizing w with
  | nil => simp [reported]
  | cons k ks ih =>
      have hone : answers id (report env id f w k).log = answers id w.log ++ [f w.hw w.io k] := by
        simp [answers, report, basicResp, Machine.emit, ioRead, delay, elapse]
      rw [List.foldl_cons, ih, hone, List.append_assoc]
      rfl

variable {f g ks}

theorem foldl_report_congr (w : World) (h : reported f w.hw w.io ks = reported g w.hw w.io ks) :
    ks.foldl (report env id f) w = ks.foldl (report env id g) w := by
  induction ks generalizing w with
  | nil => rfl
  | cons k ks ih =>
      simp only [reported, List.cons.injEq] at h
      have hone : report env id f w k = report env id g w k := by simp only [report, h.1]
      rw [List.foldl_cons, List.foldl_cons, ← hone]
      exact ih _ h.2

end Report

/-! ## 状態の報告 -/

/-- 五つの機器の失敗の回数、電圧、温度を、それぞれ一度ずつ報告する。 -/
def reportEach (env : Env) (w : World) : World :=
  let w := commandID env w
  let w := [1, 2, 3, 4, 5, 6].foldl (fun w port => commandCurrent env port w) w
  let w := [1, 2, 3, 4, 5].foldl (fun w port => Addressed.fc.serve env port none (device? port) w) w
  let w := [1, 2, 3, 4, 5].foldl (fun w port => Addressed.voltage.serve env port none (device? port) w) w
  let w := [1, 2, 3, 4, 5].foldl (fun w port => Addressed.th.serve env port none (device? port) w) w
  commandEnvironment env w

/-- `FC` が報告する値。 -/
def failCountAt (hw : Hardware) (_ : Nat) (k : Int) : Option UInt32 :=
  some (if validPort k then Record.getBootFailures hw.eeprom (bytePort k) else 0)

/-- 番号の指す機器の失敗の回数。 -/
def failCountOf (hw : Hardware) (_ : Nat) (k : Int) : Option UInt32 :=
  some ((device? k).elim 0 fun i => Record.getBootFailures hw.eeprom i)

/-- `TH` が報告する値。 -/
def thermistorAt (env : Env) (_ : Hardware) (io : Nat) (k : Int) : Option UInt32 := sensorMain (env.thermistor io) k

/-- 番号の指す機器の温度。 -/
def thermistorOf (env : Env) (_ : Hardware) (io : Nat) (k : Int) : Option UInt32 :=
  some ((device? k).elim 0 (env.thermistor io))

/-- `logStatus` が報告する電圧。 -/
def voltageAt (env : Env) (_ : Hardware) (io : Nat) (k : Int) : Option UInt32 := sensorMain (env.voltage io) (k - 1)

/-- 番号の指す機器の電圧。 -/
def voltageOf (env : Env) (_ : Hardware) (io : Nat) (k : Int) : Option UInt32 :=
  some ((device? k).elim 0 (env.voltage io))

/-- `CU` が報告する値。 -/
def currentAt (env : Env) (_ : Hardware) (io : Nat) (k : Int) : Option UInt32 :=
  some (if k - 1 = 0 then env.systemCurrent io
    else if validPort (k - 1 - 1) then env.current io (bytePort (k - 1 - 1))
    else 0)

/-- 電流までの報告。 -/
def beforeFailCounts (env : Env) (w : World) : World :=
  [1, 2, 3, 4, 5, 6].foldl (report env pubWagmanCu (currentAt env)) (commandID env w)

theorem beforeFailCounts_hw (env : Env) (w : World) : (beforeFailCounts env w).hw = w.hw := foldl_report_hw _ _ _

theorem beforeFailCounts_io (env : Env) (w : World) : (beforeFailCounts env w).io = w.io + 14 :=
  foldl_report_io _ _ _

/-- 機器の番号。 -/
abbrev ports : List Int := [1, 2, 3, 4, 5]

theorem commandCurrent_eq (env : Env) : (fun w k => commandCurrent env k w) =
    report env pubWagmanCu (currentAt env) := rfl

theorem logStatus_eq (env : Env) (w : World) : logStatus env w =
    commandEnvironment env (ports.foldl (report env pubWagmanTh (thermistorAt env))
      (ports.foldl (report env pubWagmanVoltage (voltageAt env))
        (ports.foldl (report env pubWagmanFc failCountAt) (beforeFailCounts env w)))) := by
  simp only [logStatus, commandCurrent_eq, beforeFailCounts]
  rfl

theorem serve_fc (env : Env) : (fun w k => Addressed.fc.serve env k none (device? k) w) =
    report env pubWagmanFc failCountOf := rfl

theorem serve_voltage (env : Env) : (fun w k => Addressed.voltage.serve env k none (device? k) w) =
    report env pubWagmanVoltage (voltageOf env) := rfl

theorem serve_th (env : Env) : (fun w k => Addressed.th.serve env k none (device? k) w) =
    report env pubWagmanTh (thermistorOf env) := rfl

theorem reportEach_eq (env : Env) (w : World) : reportEach env w =
    commandEnvironment env (ports.foldl (report env pubWagmanTh (thermistorOf env))
      (ports.foldl (report env pubWagmanVoltage (voltageOf env))
        (ports.foldl (report env pubWagmanFc failCountOf) (beforeFailCounts env w)))) := by
  simp only [reportEach, commandCurrent_eq, serve_fc, serve_voltage, serve_th, beforeFailCounts]

theorem foldl_voltage_eq (env : Env) (w : World) :
    ports.foldl (report env pubWagmanVoltage (voltageOf env)) w =
      ports.foldl (report env pubWagmanVoltage (voltageAt env)) w :=
  foldl_report_congr w (by simp [reported, voltageAt, voltageOf, sensorMain, validPort, index?, device?])

theorem skips_environment (env : Env) (id : Nat) (hid : id ≠ sensorIdHtu21d) (w : World) :
    Trail (Event.Skips id) w (commandEnvironment env w) := by
  have hresp : ∀ (k : Int) (read : Nat → Option UInt32) (v : World),
      Trail (Event.Skips id) v (respEnvironment env k read v) := by
    intro k read v
    simp only [respEnvironment]
    split
    · exact (still_ioRead.trans (still_basicResp hid.symm)).trail
    · exact still_ioRead.trail
  exact (hresp 1 env.temperature w).trans (hresp 2 env.humidity _)

theorem skips_foldl_report (id id' : Nat) (h : id' ≠ id) (f : Hardware → Nat → Int → Option UInt32) (ks : List Int)
    (w : World) : Trail (Event.Skips id) w (ks.foldl (report env id' f) w) :=
  (Still.foldl (fun _ _ _ => still_ioRead.trans (still_basicResp h)) w).trail

/-- 失敗の回数の報告が揃うのは、どの機器も失敗を数えていないときだけである。 -/
theorem reported_failCount_iff (hw : Hardware) (io : Nat) :
    reported failCountAt hw io ports = reported failCountOf hw io ports ↔
      ∀ i, Record.getBootFailures hw.eeprom i = 0 := by
  have hcode : reported failCountAt hw io ports =
      [some (Record.getBootFailures hw.eeprom 1), some (Record.getBootFailures hw.eeprom 2),
        some (Record.getBootFailures hw.eeprom 3), some (Record.getBootFailures hw.eeprom 4), some 0] := rfl
  have hspec : reported failCountOf hw io ports =
      [some (Record.getBootFailures hw.eeprom 0), some (Record.getBootFailures hw.eeprom 1),
        some (Record.getBootFailures hw.eeprom 2), some (Record.getBootFailures hw.eeprom 3),
        some (Record.getBootFailures hw.eeprom 4)] := rfl
  rw [hcode, hspec]
  simp only [List.cons.injEq, Option.some.injEq, and_true]
  constructor
  · rintro ⟨h₁, h₂, h₃, h₄, h₅⟩ i
    match i with
    | 0 => rw [← h₁, ← h₂, ← h₃, ← h₄, ← h₅]
    | 1 => rw [← h₂, ← h₃, ← h₄, ← h₅]
    | 2 => rw [← h₃, ← h₄, ← h₅]
    | 3 => rw [← h₄, ← h₅]
    | 4 => rw [← h₅]
  · intro h
    simp only [h, and_self]

/-- 温度の報告が揃うのは、隣の温度計の値が等しいときだけである。 -/
theorem reported_thermistor_iff (env : Env) (hw : Hardware) (io : Nat) :
    reported (thermistorAt env) hw io ports = reported (thermistorOf env) hw io ports ↔
      ∀ i : Port, env.thermistor (io + 2 * i.val) i =
        if h : i.val + 1 < 5 then env.thermistor (io + 2 * i.val) ⟨i.val + 1, h⟩ else 0 := by
  have hcode : reported (thermistorAt env) hw io ports =
      [some (env.thermistor io 1), some (env.thermistor (io + 2) 2), some (env.thermistor (io + 4) 3),
        some (env.thermistor (io + 6) 4), some 0] := rfl
  have hspec : reported (thermistorOf env) hw io ports =
      [some (env.thermistor io 0), some (env.thermistor (io + 2) 1), some (env.thermistor (io + 4) 2),
        some (env.thermistor (io + 6) 3), some (env.thermistor (io + 8) 4)] := rfl
  rw [hcode, hspec]
  simp only [List.cons.injEq, Option.some.injEq, and_true]
  constructor
  · rintro ⟨h₁, h₂, h₃, h₄, h₅⟩ i
    match i with
    | 0 => exact h₁.symm
    | 1 => exact h₂.symm
    | 2 => exact h₃.symm
    | 3 => exact h₄.symm
    | 4 => exact h₅.symm
  · exact fun h => ⟨(h 0).symm, (h 1).symm, (h 2).symm, (h 3).symm, (h 4).symm⟩

/-- 状態の報告が各機器の値を一度ずつ報告するのは、失敗の回数がすべて 0 で、続く温度計の値が等しいときだけである。 -/
theorem logStatus_eq_iff (env : Env) (w : World) : logStatus env w = reportEach env w ↔
    (∀ i, Record.getBootFailures w.hw.eeprom i = 0) ∧
    (∀ i : Port, env.thermistor (w.io + 34 + 2 * i.val) i =
      if h : i.val + 1 < 5 then env.thermistor (w.io + 34 + 2 * i.val) ⟨i.val + 1, h⟩ else 0) := by
  let u := ports.foldl (report env pubWagmanVoltage (voltageAt env))
    (ports.foldl (report env pubWagmanFc failCountOf) (beforeFailCounts env w))
  have hio : u.io = w.io + 34 := by
    simp only [u, foldl_report_io, beforeFailCounts_io]
    rfl
  rw [← reported_failCount_iff w.hw (w.io + 14), ← reported_thermistor_iff env u.hw, ← hio]
  rw [logStatus_eq, reportEach_eq, foldl_voltage_eq]
  have hcongr : reported failCountAt w.hw (w.io + 14) ports = reported failCountOf w.hw (w.io + 14) ports →
      ports.foldl (report env pubWagmanFc failCountAt) (beforeFailCounts env w) =
        ports.foldl (report env pubWagmanFc failCountOf) (beforeFailCounts env w) :=
    fun h => foldl_report_congr _ (by rw [beforeFailCounts_hw, beforeFailCounts_io]; exact h)
  constructor
  · intro heq
    have hfc := congrArg (fun v : World => answers pubWagmanFc v.log) heq
    simp only [answers_eq (skips_environment env pubWagmanFc (by decide) _),
      answers_eq (skips_foldl_report pubWagmanFc pubWagmanTh (by decide) _ _ _),
      answers_eq (skips_foldl_report pubWagmanFc pubWagmanVoltage (by decide) _ _ _), answers_foldl_report,
      List.append_cancel_left_eq, beforeFailCounts_hw, beforeFailCounts_io] at hfc
    have hth := congrArg (fun v : World => answers pubWagmanTh v.log) heq
    simp only [hcongr hfc, answers_eq (skips_environment env pubWagmanTh (by decide) _), answers_foldl_report,
      List.append_cancel_left_eq] at hth
    exact ⟨hfc, hth⟩
  · rintro ⟨hfc, hth⟩
    rw [hcongr hfc]
    exact congrArg (commandEnvironment env) (foldl_report_congr u hth)

/-! ## 番号の一致 -/

/-- すべての要求と電圧の報告が同じ機器を指すのは、番号の下位の一バイトが 5 より大きく、どの機器も指さないときに限る。
1 から 5 までの番号では、`FC` と `TH` のほかは揃う。状態の報告は、失敗の回数と温度を一つずれて報告する。 -/
theorem addressing_consistent_iff (subId : Int) :
    (Consistent subId ↔ 5 < subId % 256) ∧
    (∀ (i : Port) (env : Env) (w : World) (q : Addressed) (isadmin : Bool) (port : Int) (value : Option UInt32),
      subId = i.val + 1 → q.Allowed isadmin port subId → q ≠ .fc → q ≠ .th →
      q.handle env isadmin port subId value w = some (q.serve env subId value (device? subId) w)) ∧
    (∀ (env : Env) (w : World), logStatus env w = reportEach env w ↔
      (∀ i, Record.getBootFailures w.hw.eeprom i = 0) ∧
      (∀ i : Port, env.thermistor (w.io + 34 + 2 * i.val) i =
        if h : i.val + 1 < 5 then env.thermistor (w.io + 34 + 2 * i.val) ⟨i.val + 1, h⟩ else 0)) := by
  refine ⟨⟨fun h => Int.not_le.mp fun hle => not_consistent_of_le hle h, consistent_of_lt⟩, ?_, logStatus_eq_iff⟩
  rintro i env w q isadmin port value rfl hq hfc hth
  exact handle_eq_serve env i w value hq hfc hth

/-- 番号 6 は、どの要求でもどの機器も指さない。番号 2 の `PING` は機器 1 を指す。 -/
theorem addressing_consistent_iff_six : Consistent 6 ∧
    Addressed.ping.handle Env.ideal false 1 2 none (booted Env.ideal Hardware.ready) =
      some (Addressed.ping.serve Env.ideal 2 none (some 1) (booted Env.ideal Hardware.ready)) :=
  ⟨(addressing_consistent_iff 6).1.mpr (by decide),
    (addressing_consistent_iff 2).2.1 1 Env.ideal _ .ping false 1 none rfl (Or.inr rfl) (by decide) (by decide)⟩

/-- 番号 1 の要求は機器 0 に揃わず、状態の報告は機器 0 の温度を報告しない。 -/
theorem addressing_fails_one : ¬ Consistent 1 ∧
    ∃ w, run Env.marked [] (booted Env.marked Hardware.ready) = some w ∧ logStatus Env.marked w ≠ reportEach Env.marked w := by
  refine ⟨not_consistent_of_le (by decide), _, rfl, fun h => ?_⟩
  have hth := ((logStatus_eq_iff _ _).mp h).2 4
  simp [Env.marked] at hth

end Wagman.V4
