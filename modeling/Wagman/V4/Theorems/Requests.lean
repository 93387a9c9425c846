import Wagman.V4.Theorems.Sequencer

/-!
# 起動の要求の受け渡し

`START` の要求は、一つの変数 `deviceWantsStart` を通して次の `loop` の `startNextDevice` に渡される。1 と応答した要求が
次の `loop` で果たされるのは、同じ `loop` の後の要求に上書きされず、リセットも要求されていないときに限る。
-/

namespace Wagman.V4

open Machine

/-! ## 要求の分類 -/

/-- 1 と応答される `START` の要求が指すポート。 -/
def Op.accepted : Op → Option Port
  | .request true _ r =>
      if Req.ofId r.id = some .start ∧ validPort (r.subId - 1) = true then some (bytePort (r.subId - 1)) else none
  | _ => none

/-- 実行される `RESET` の要求。 -/
def Op.resets : Op → Bool
  | .request true _ r => decide (Req.ofId r.id = some .reset)
  | _ => false

def Op.isRequest : Op → Bool
  | .request _ _ _ => true
  | _ => false

/-- 一回の `loop` で処理される要求の並び。 -/
def PassInput.requests (inp : PassInput) : List Op :=
  processCommands true 0 inp.serialUSB ++ processCommands true 0 inp.serial1 ++
    processCommands false 1 inp.serial2 ++ processCommands false 2 inp.serial3 ++ processCommands false 0 inp.serial

/-- ポート `p` の起動が、後の何回かの `loop` のうちに、要求によって必ず始まる。 -/
def Leads (env : Env) (p : Port) (w : World) : Prop :=
  ∃ n, ∀ passes : List (PassInput × List Op), passes.length = n → (∀ x ∈ passes, Pass x.1 x.2) →
    ∀ w', run env (passes.flatMap Prod.snd) w = some w' →
      ∃ new, w'.log = new ++ w.log ∧ ∃ x ∈ new, x.event = .next p true

/-! ## 一歩が受け渡しに及ぼす作用 -/

section Step

variable {env : Env} {o : Op} {w w' : World}

theorem step_accepted {p : Port} (h : step env o w = some w') (hh : w.ram.halted = false) (ho : o.accepted = some p) :
    w'.ram = { w.ram with deviceWantsStart := UInt8.ofNat p.val } := by
  cases o with
  | request a port r =>
      cases a with
      | false => cases ho
      | true =>
          simp only [Op.accepted] at ho
          split at ho
          · rename_i hc
            have hlt : (r.subId - 1) % 256 < 5 := of_decide_eq_true hc.2
            have hp : ((r.subId - 1) % 256).toNat = p.val := by
              rw [← Option.some.inj ho, bytePort, Fin.val_ofNat]
              omega
            simp only [step, hh, dispatch, hc.1, Bool.false_eq_true, if_false, if_true, Option.some.injEq] at h
            rw [← h]
            simp only [commandStart, commandStartMain, hc.2, if_true, basicResp, Machine.emit, hp]
            rfl
          · cases ho
  | _ => cases ho

/-- `START` の要求への応答が 1 になるのは、ポートの番号が正しいときである。 -/
theorem step_start {a : Bool} {port : Int} {r : Request} {p : Port} (h : step env (.request a port r) w = some w')
    (hh : w.ram.halted = false) (hr : Req.ofId r.id = some .start) :
    (Op.request a port r).accepted = some p ↔
      (r.subId - 1) % 256 = p.val ∧ w'.log = ⟨w.now, .resp pubWagmanStart r.subId (some 1)⟩ :: w.log := by
  simp only [step, hh, dispatch, hr, Bool.false_eq_true, if_false, Option.some.injEq] at h
  cases a with
  | false =>
      rw [if_neg Bool.false_ne_true] at h
      subst h
      exact ⟨fun ho => (by cases ho), fun ho => absurd (congrArg List.length ho.2) (by simp)⟩
  | true =>
      rw [if_pos rfl] at h
      subst h
      have hp := p.isLt
      by_cases hv : validPort (r.subId - 1) = true
      · have hlt : (r.subId - 1) % 256 < 5 := of_decide_eq_true hv
        have hval : bytePort (r.subId - 1) = p ↔ (r.subId - 1) % 256 = p.val := by
          rw [Fin.ext_iff, bytePort, Fin.val_ofNat]
          omega
        simp [Op.accepted, hr, hv, hval, commandStart, commandStartMain, basicResp, Machine.emit]
      · simp [Op.accepted, hr, hv, commandStart, commandStartMain, basicResp, Machine.emit]

theorem step_resets (h : step env o w = some w') (hh : w.ram.halted = false) (ho : o.resets = true) :
    w'.ram.shouldResetSystem = true := by
  cases o with
  | request a port r =>
      cases a with
      | false => cases ho
      | true =>
          have hr : Req.ofId r.id = some .reset := of_decide_eq_true ho
          simp only [step, hh, dispatch, hr, Bool.false_eq_true, if_false, if_true, Option.some.injEq] at h
          rw [← h]
          rfl
  | _ => cases ho

/-- `deviceWantsStart` を変えるのは、受け付けられる `START` と `startNextDevice` だけである。 -/
theorem Step.wants_eq (h : Step env o w w') (hall : w.ram.shouldResetAll = false) (ho : o.accepted = none)
    (hn : o.startsNext = false) : w'.ram.deviceWantsStart = w.ram.deviceWantsStart := by
  cases h with
  | tick ht => exact ht.wants
  | update i => exact (Device.acts_update env w i).wants_eq
  | next hs => cases hn
  | ping i _ _ _ h₁ h₂ => rw [h₂.ram, (Device.acts_onHeartbeat env _ i).wants_eq, h₁.ram]
  | @start port r _ _ i hr hi h₁ =>
      have hlt := i.isLt
      have hvalid : validPort (r.subId - 1) = true := decide_eq_true (by omega)
      simp [Op.accepted, hr, hvalid] at ho
  | stop i t _ _ h₁ => rw [h₁.ram, (Device.acts_stop env _ i).wants_eq, (Device.acts_setStopTimeout w i t).wants_eq]
  | enable i _ _ h₁ => rw [h₁.ram, (Device.acts_enable env w i).wants_eq]
  | media i m _ _ _ h₁ => rw [h₁.ram, (Device.acts_setNextBootMedia env w i m).wants_eq]
  | eereset _ h₁ => rw [h₁.ram, Record.clearMagic, put_ram]
  | reset _ => rfl
  | resetAll h => rw [hall] at h; cases h

theorem Step.resetSystem_eq (h : Step env o w w') (hall : w.ram.shouldResetAll = false) (ho : o.resets = false) :
    w'.ram.shouldResetSystem = w.ram.shouldResetSystem := by
  cases h with
  | tick ht => exact ht.resetSystem
  | update i => exact (Device.acts_update env w i).resetSystem_eq
  | next hs =>
      have hstart : ∀ i b,
          (Device.start env i (beginStart i b w)).2.ram.shouldResetSystem = w.ram.shouldResetSystem :=
        fun i b => (Device.acts_start env (beginStart i b w) i).resetSystem_eq
      rcases startNextDevice_inv env w with h | ⟨i, -, -, h⟩ | ⟨i, -, -, -, h⟩
      · rw [h]
      · rw [h]; exact hstart i true
      · rw [h]; exact hstart i false
  | ping i _ _ _ h₁ h₂ => rw [h₂.ram, (Device.acts_onHeartbeat env _ i).resetSystem_eq, h₁.ram]
  | start i _ _ h₁ => rw [h₁.ram]; rfl
  | stop i t _ _ h₁ =>
      rw [h₁.ram, (Device.acts_stop env _ i).resetSystem_eq, (Device.acts_setStopTimeout w i t).resetSystem_eq]
  | enable i _ _ h₁ => rw [h₁.ram, (Device.acts_enable env w i).resetSystem_eq]
  | media i m _ _ _ h₁ => rw [h₁.ram, (Device.acts_setNextBootMedia env w i m).resetSystem_eq]
  | eereset _ h₁ => rw [h₁.ram, Record.clearMagic, put_ram]
  | reset hr => simp [Op.resets, hr] at ho
  | resetAll h => rw [hall] at h; cases h

theorem Step.halted_imp (h : Step env o w w') (hall : w.ram.shouldResetAll = false) (hh : w'.ram.halted = true) :
    w.ram.halted = true ∨ w.ram.shouldResetSystem = true := by
  cases h with
  | tick ht => exact ht.halted hh
  | update i => exact Or.inl ((Device.acts_update env w i).halted_eq.symm.trans hh)
  | next hs =>
      have hstart : ∀ i b, (Device.start env i (beginStart i b w)).2.ram.halted = w.ram.halted :=
        fun i b => (Device.acts_start env (beginStart i b w) i).halted_eq
      rcases startNextDevice_inv env w with h | ⟨i, -, -, h⟩ | ⟨i, -, -, -, h⟩
      · rw [h] at hh; exact Or.inl hh
      · rw [h] at hh; exact Or.inl ((hstart i true).symm.trans hh)
      · rw [h] at hh; exact Or.inl ((hstart i false).symm.trans hh)
  | ping i _ _ _ h₁ h₂ =>
      rw [h₂.ram, (Device.acts_onHeartbeat env _ i).halted_eq, h₁.ram] at hh
      exact Or.inl hh
  | start i _ _ h₁ => rw [h₁.ram] at hh; exact Or.inl hh
  | stop i t _ _ h₁ =>
      rw [h₁.ram, (Device.acts_stop env _ i).halted_eq, (Device.acts_setStopTimeout w i t).halted_eq] at hh
      exact Or.inl hh
  | enable i _ _ h₁ => rw [h₁.ram, (Device.acts_enable env w i).halted_eq] at hh; exact Or.inl hh
  | media i m _ _ _ h₁ => rw [h₁.ram, (Device.acts_setNextBootMedia env w i m).halted_eq] at hh; exact Or.inl hh
  | eereset _ h₁ => rw [h₁.ram, Record.clearMagic, put_ram] at hh; exact Or.inl hh
  | reset _ => exact Or.inl hh
  | resetAll h => rw [hall] at h; cases h

/-- 要求による起動として記録されるのは、`deviceWantsStart` が指すポートだけである。 -/
theorem Step.trail_next (h : Step env o w w') (hall : w.ram.shouldResetAll = false) :
    Trail (fun e => ∀ i, e = .next i true → w.ram.deviceWantsStart.toNat = i.val) w w' := by
  by_cases ho : o = .startNext
  · subst ho
    have hacts : ∀ {F : Footprint} {v v' : World}, Acts F v v' →
        Trail (fun e => ∀ i, e = .next i true → w.ram.deviceWantsStart.toNat = i.val) v v' := fun ha =>
      ha.trail.mono fun e he i hi => by subst hi; exact he.elim
    have hbegin : ∀ {i : Port} {b : Bool}, (b = true → w.ram.deviceWantsStart.toNat = i.val) →
        Trail (fun e => ∀ i, e = .next i true → w.ram.deviceWantsStart.toNat = i.val) w
          (Device.start env i (beginStart i b w)).2 := fun {i b} hb =>
      (((Trail.refl w).setRam _).mark fun j hj => by cases hj; exact hb rfl).trans
        (hacts (Device.acts_start env (beginStart i b w) i))
    cases h with
    | tick ht => exact ht.trail.mono fun e he i hi => by subst hi; exact he.elim
    | next hs =>
        rcases startNextDevice_inv env w with h | ⟨i, -, hi, h⟩ | ⟨i, -, -, -, h⟩
        · rw [h]; exact Trail.refl w
        · rw [h]; exact (hbegin fun _ => hi).setRam _
        · rw [h]; exact hbegin fun hb => by cases hb
  · refine (h.not_powersUp (fun hs => absurd hs ho) hall).mono fun e he i hi => ?_
    subst hi
    exact absurd trivial he

end Step

/-! ## 実行が受け渡しに及ぼす作用 -/

/-- 止まっておらず、リセットも決めていない。 -/
structure Live (w : World) : Prop where
  running : w.ram.halted = false
  resetSystem : w.ram.shouldResetSystem = false
  resetAll : w.ram.shouldResetAll = false

section Run

variable {env : Env} {o : Op} {ops : List Op} {w w' : World}

theorem Live.step (hw : Live w) (h : step env o w = some w') (ho : o.resets = false) : Live w' := by
  have hs := step_inv h
  have hr : w'.ram.shouldResetSystem = false := (hs.resetSystem_eq hw.resetAll ho).trans hw.resetSystem
  refine ⟨Bool.eq_false_iff.mpr fun hh => ?_, hr, hs.resetAll_eq hw.resetAll⟩
  rcases hs.halted_imp hw.resetAll hh with h | h
  · rw [hw.running] at h; cases h
  · rw [hw.resetSystem] at h; cases h

theorem Live.run (hw : Live w) (h : run env ops w = some w') (ho : ∀ o ∈ ops, o.resets = false) : Live w' :=
  Run.run_induct_of_meets (C := fun o _ => o.resets = false) (fun _ _ _ hc hv hs => Live.step hv hs hc) h
    (Run.Meets.of_forall ho w) hw

/-- 受け渡しの変数は、`p` のほかのポートの起動が受け付けられず、`startNextDevice` も呼ばれない間は `p` のままである。 -/
theorem Live.run_wants {p : Port} (hw : Live w) (h : V4.run env ops w = some w')
    (ho : ∀ o ∈ ops, o.resets = false ∧ o.startsNext = false ∧ ∀ q, o.accepted = some q → q = p)
    (hp : w.ram.deviceWantsStart = UInt8.ofNat p.val) : w'.ram.deviceWantsStart = UInt8.ofNat p.val := by
  refine (Run.run_induct_of_meets (P := fun v => Live v ∧ v.ram.deviceWantsStart = UInt8.ofNat p.val)
    (C := fun o _ => o.resets = false ∧ o.startsNext = false ∧ ∀ q, o.accepted = some q → q = p)
    ?_ h (Run.Meets.of_forall ho w) ⟨hw, hp⟩).2
  rintro o v v' ⟨hr, hn, ha⟩ ⟨hv, hp⟩ hs
  refine ⟨hv.step hs hr, ?_⟩
  cases hq : o.accepted with
  | none => rw [(step_inv hs).wants_eq hv.resetAll hq hn, hp]
  | some q => rw [step_accepted hs hv.running hq, ha q hq]

theorem run_resets (h : run env ops w = some w') (hall : w.ram.shouldResetAll = false)
    (hhalt : w.ram.halted = true → w.ram.shouldResetSystem = true) (hr : ∃ o ∈ ops, o.resets = true) :
    w'.ram.shouldResetSystem = true := by
  induction ops generalizing w with
  | nil => simp at hr
  | cons o ops ih =>
      obtain ⟨v, hv, hrun⟩ := Run.run_cons.mp h
      have hs := step_inv hv
      by_cases ho : o.resets = true
      · have hset : v.ram.shouldResetSystem = true := by
          cases hh : w.ram.halted with
          | true => exact hs.resetSystem_mono hall (hhalt hh)
          | false => exact step_resets hv hh ho
        refine (Run.run_induct_of_meets (C := fun _ _ => True)
          (P := fun u => u.ram.shouldResetAll = false ∧ u.ram.shouldResetSystem = true)
          (fun _ _ _ _ hu hs => ⟨(step_inv hs).resetAll_eq hu.1, (step_inv hs).resetSystem_mono hu.1 hu.2⟩)
          hrun (Run.Meets.of_forall (fun _ _ => trivial) v) ⟨hs.resetAll_eq hall, hset⟩).2
      · refine ih hrun (hs.resetAll_eq hall) (fun hh => ?_) ?_
        · exact hs.resetSystem_mono hall ((hs.halted_imp hall hh).elim hhalt id)
        · obtain ⟨o', ho', hres⟩ := hr
          rcases List.mem_cons.mp ho' with rfl | ho'
          · exact absurd hres ho
          · exact ⟨o', ho', hres⟩

/-- 要求を含まない操作は、必ず終わりまで進む。 -/
theorem exists_run (env : Env) (w : World) (h : ∀ o ∈ ops, o.isRequest = false) : ∃ w', run env ops w = some w' := by
  induction ops generalizing w with
  | nil => exact ⟨w, rfl⟩
  | cons o ops ih =>
      have hstep : ∃ v, step env o w = some v := by
        unfold step
        split
        · exact ⟨w, rfl⟩
        · cases o with
          | request a port r => simpa [Op.isRequest] using h (.request a port r) (by simp)
          | _ => exact ⟨_, rfl⟩
      obtain ⟨v, hv⟩ := hstep
      obtain ⟨w', hw'⟩ := ih (w := v) fun o ho => h o (by simp [ho])
      exact ⟨w', Run.run_cons.mpr ⟨v, hv, hw'⟩⟩

/-- 要求されていないポートは、要求がないかぎり、要求による起動を始めない。 -/
theorem trail_of_wants_ne {p : Port} (h : run env ops w = some w') (hall : w.ram.shouldResetAll = false)
    (ho : ∀ o ∈ ops, o.isRequest = false) (hp : w.ram.deviceWantsStart.toNat ≠ p.val) :
    Trail (fun e => e ≠ .next p true) w w' := by
  induction ops generalizing w with
  | nil => cases h; exact Trail.refl _
  | cons o ops ih =>
      obtain ⟨v, hv, hr⟩ := Run.run_cons.mp h
      have hs := step_inv hv
      have hstarts : ¬ o.Starts p := by
        intro hst
        cases o with
        | request a port r => simpa [Op.isRequest] using ho (.request a port r) (by simp)
        | _ => exact hst.elim
      refine Trail.trans ((hs.trail_next hall).mono fun e he hi => hp (he p hi)) ?_
      exact ih hr (hs.resetAll_eq hall) (fun o ho' => ho o (by simp [ho'])) (hs.wants_ne hall hstarts hp)

end Run

/-! ## 後の `loop` -/

theorem loopOps_eq (inp : PassInput) : loopOps inp =
    .startNext :: ((List.finRange 5).map .update ++ inp.requests ++ [.resetAll, .status, .reset, .leds]) := by
  simp [loopOps, PassInput.requests]

theorem PassInput.isRequest_of_mem {inp : PassInput} {o : Op} (h : o ∈ inp.requests) : o.isRequest = true := by
  simp only [PassInput.requests, processCommands, List.mem_append, List.mem_map] at h
  rcases h with (((⟨r, -, rfl⟩ | ⟨r, -, rfl⟩) | ⟨r, -, rfl⟩) | ⟨r, -, rfl⟩) | ⟨r, -, rfl⟩ <;> rfl

/-- 一回の `loop` は、時間の経過と割り込みの後の `startNextDevice` から始まり、その後で要求を順に処理する。 -/
theorem Pass.split {inp : PassInput} {ops : List Op} (h : Pass inp ops) :
    ∃ pre rest, ops = pre ++ .startNext :: rest ∧ (∀ o ∈ pre, o.inLoop = false) ∧
      rest.filter Op.isRequest = inp.requests ∧ ∀ o ∈ rest, o.startsNext = false := by
  rw [Pass, loopOps_eq, List.filter_eq_cons_iff] at h
  obtain ⟨pre, rest, hops, hpre, -, hrest⟩ := h
  refine ⟨pre, rest, hops, fun o ho => by simpa using hpre o ho, ?_, fun o ho => ?_⟩
  · have hin : ∀ o : Op, (o.isRequest && o.inLoop) = o.isRequest := by
      intro o
      cases o <;> rfl
    have hreq : inp.requests.filter Op.isRequest = inp.requests :=
      List.filter_eq_self.mpr fun o ho => PassInput.isRequest_of_mem ho
    have hf := congrArg (List.filter Op.isRequest) hrest
    simp only [List.filter_filter, hin] at hf
    refine hf.trans ?_
    simp [List.filter_append, hreq, Op.isRequest, List.filter_map, Function.comp_def]
  · -- `startNextDevice` も `loop` の中の操作なので、残りにあれば操作の並びにも現れる
    refine Bool.eq_false_iff.mpr fun hs => ?_
    cases o with
    | startNext =>
        have hmem : Op.startNext ∈ rest.filter Op.inLoop := List.mem_filter.mpr ⟨ho, rfl⟩
        rw [hrest] at hmem
        simp only [List.mem_append, List.mem_map, List.mem_cons] at hmem
        have hreq : Op.startNext ∈ inp.requests := by simpa using hmem
        cases PassInput.isRequest_of_mem hreq
    | _ => cases hs

section Leads

variable {env : Env} {p : Port} {w : World}

/-- 受け渡しの変数が `p` を指し、リセットを決めていなければ、次の `loop` で `p` の起動が始まる。 -/
theorem leads_of_wants (hw : Live w) (hp : w.ram.deviceWantsStart = UInt8.ofNat p.val) : Leads env p w := by
  refine ⟨1, fun passes hlen hpass w' hrun => ?_⟩
  obtain ⟨⟨inp, ops⟩, rfl⟩ := List.length_eq_one_iff.mp hlen
  have hpass' : Pass inp ops := hpass (inp, ops) (by simp)
  obtain ⟨pre, rest, rfl, hpre, -, -⟩ := hpass'.split
  simp only [List.flatMap_cons, List.flatMap_nil, List.append_nil] at hrun
  obtain ⟨u, hu, hrun⟩ := Run.run_append.mp hrun
  obtain ⟨v, hv, hrun⟩ := Run.run_cons.mp hrun
  have hquiet : ∀ o ∈ pre, o.resets = false ∧ o.startsNext = false ∧ ∀ q, o.accepted = some q → q = p := by
    intro o ho
    have hout := hpre o ho
    cases o with
    | idle ms => exact ⟨rfl, rfl, fun q hq => by cases hq⟩
    | pinHB s => exact ⟨rfl, rfl, fun q hq => by cases hq⟩
    | _ => cases hout
  have hlive : Live u := hw.run hu fun o ho => (hquiet o ho).1
  have hwants : u.ram.deviceWantsStart.toNat = p.val := by
    have hlt := p.isLt
    rw [hw.run_wants hu hquiet hp, UInt8.toNat_ofNat']
    omega
  obtain ⟨pre', hl₁, -, -⟩ := (trail_run hu hw.resetAll).log
  obtain ⟨post, hl₃, -, -⟩ := (trail_run hrun ((step_inv hv).resetAll_eq hlive.resetAll)).log
  have hstart : ∃ mid, v.log = mid ++ ⟨u.now, .next p true⟩ :: u.log := by
    simp only [step, hlive.running, hlive.resetSystem, Bool.false_eq_true, if_false, Option.some.injEq] at hv
    subst hv
    have hp' : (⟨u.ram.deviceWantsStart.toNat, by omega⟩ : Port) = p := Fin.ext hwants
    obtain ⟨mid, hl₂, -, -⟩ := (Device.acts_start env (beginStart p true u) p).trail.log
    refine ⟨mid, ?_⟩
    rw [startNextDevice, dif_pos (by omega), hp']
    exact hl₂
  obtain ⟨mid, hl₂⟩ := hstart
  refine ⟨post ++ mid ++ ⟨u.now, .next p true⟩ :: pre', by simp [hl₃, hl₂, hl₁], ⟨u.now, .next p true⟩, by simp, rfl⟩

/-- 要求のない `loop` を繰り返しても `p` の起動が始まらないなら、`p` の要求は果たされない。 -/
theorem not_leads (h : ∀ ops w', (∀ o ∈ ops, o.isRequest = false) → run env ops w = some w' →
    Trail (fun e => e ≠ .next p true) w w') : ¬ Leads env p w := by
  rintro ⟨n, hn⟩
  let inp : PassInput := ⟨[], [], [], [], []⟩
  have hreq : ∀ o ∈ (List.replicate n (inp, loopOps inp)).flatMap Prod.snd, o.isRequest = false := by
    intro o ho
    obtain ⟨x, hx, hox⟩ := List.mem_flatMap.mp ho
    rw [List.eq_of_mem_replicate hx] at hox
    exact (by decide : ∀ o ∈ loopOps inp, o.isRequest = false) o hox
  obtain ⟨w', hw'⟩ := exists_run env w hreq
  obtain ⟨new, hl, x, hx, he⟩ := hn _ (List.length_replicate ..)
    (fun x hx => by rw [List.eq_of_mem_replicate hx]; exact rfl) w' hw'
  exact ((h _ w' hreq hw').of_log hl).2 x hx he

/-- 果たされる要求は、リセットが決まっておらず、受け渡しの変数が指すものだけである。 -/
theorem Leads.wants (h : Leads env p w) (hall : w.ram.shouldResetAll = false) :
    w.ram.shouldResetSystem = false ∧ w.ram.deviceWantsStart.toNat = p.val := by
  constructor
  · refine Bool.eq_false_iff.mpr fun hr => ?_
    refine not_leads (fun ops w' _ hrun => ?_) h
    refine (trail_of_resetSystem hrun hall hr).mono fun e he hi => he ?_
    rw [hi]
    trivial
  · by_contra hp
    exact not_leads (fun ops w' ho hrun => trail_of_wants_ne hrun hall ho hp) h

end Leads

/-! ## 同じ `loop` の中の要求 -/

/-- 1 と応答される `START` の要求のうち、後にリセットの要求がないものについては、前にもリセットの要求がなく、後に別の
ポートの `START` が受け付けられることもない。 -/
def PassInput.Exclusive (inp : PassInput) : Prop :=
  ∀ l₁ o l₂ p, inp.requests = l₁ ++ o :: l₂ → o.accepted = some p → (∀ x ∈ l₂, x.resets = false) →
    (∀ x ∈ l₁, x.resets = false) ∧ ∀ x ∈ l₂, ∀ q, x.accepted = some q → q = p

theorem Op.not_request {o : Op} (h : o.isRequest = false) : o.resets = false ∧ o.accepted = none := by
  cases o with
  | request a port r => cases h
  | _ => exact ⟨rfl, rfl⟩

theorem split_of_filter {l l₁ l₂ : List Op} {o : Op} (h : l.filter Op.isRequest = l₁ ++ o :: l₂) :
    ∃ k₁ k₂, l = k₁ ++ o :: k₂ ∧ k₁.filter Op.isRequest = l₁ ∧ k₂.filter Op.isRequest = l₂ := by
  obtain ⟨k₁, k₂, rfl, hk₁, hk₂⟩ := List.filter_eq_append_iff.mp h
  obtain ⟨m₁, m₂, rfl, hm₁, -, hm₂⟩ := List.filter_eq_cons_iff.mp hk₂
  refine ⟨k₁ ++ m₁, m₂, by simp, ?_, hm₂⟩
  rw [List.filter_append, hk₁, List.filter_eq_nil_iff.mpr hm₁, List.append_nil]

theorem forall_of_filter {l : List Op} {P : Op → Prop} (h : ∀ o ∈ l.filter Op.isRequest, P o)
    (hP : ∀ o, o.isRequest = false → P o) : ∀ o ∈ l, P o := by
  intro o ho
  cases hr : o.isRequest with
  | true => exact h o (List.mem_filter.mpr ⟨ho, hr⟩)
  | false => exact hP o hr

theorem halted_imp_resetSystem {env : Env} {h : Hardware} {ops : List Op} {w : World}
    (hrun : run env ops (booted env h) = some w) :
    w.ram.shouldResetAll = false ∧ (w.ram.halted = true → w.ram.shouldResetSystem = true) := by
  refine run_induct (C := fun _ _ => True) (P := fun v => v.ram.halted = true → v.ram.shouldResetSystem = true)
    (fun o v v' _ hall hs hv hh => ?_) hrun (Run.Meets.of_forall (fun _ _ => trivial) _) ?_
  · exact hs.resetSystem_mono hall ((hs.halted_imp hall hh).elim hv id)
  · intro hh
    rw [(booted_globals env h).2.2.1] at hh
    cases hh

section Served

variable {env : Env} {inp : PassInput} {pass : List Op} {w w' : World}

theorem Op.accepted_resets {o : Op} {p : Port} (h : o.accepted = some p) : o.resets = false := by
  cases o with
  | request a port r =>
      cases a with
      | false => rfl
      | true =>
          simp only [Op.accepted] at h
          split at h
          · rename_i hc
            simp [Op.resets, hc.1]
          · cases h
  | _ => rfl

theorem leads_of_exclusive (hw : Live w) (hpass : Pass inp pass) (hrun : run env pass w = some w')
    (hex : inp.Exclusive) {l₁ l₂ : List Op} {o : Op} {p : Port} (hl : inp.requests = l₁ ++ o :: l₂)
    (ho : o.accepted = some p) (hr : ∀ x ∈ l₂, x.resets = false) : Leads env p w' := by
  obtain ⟨hr₁, hq⟩ := hex l₁ o l₂ p hl ho hr
  obtain ⟨pre, rest, rfl, hpre, hreq, hnext⟩ := hpass.split
  obtain ⟨k₁, k₂, rfl, hk₁, hk₂⟩ := split_of_filter (hreq.trans hl)
  have hpre' : ∀ x ∈ pre ++ .startNext :: k₁, x.resets = false := by
    intro x hx
    rcases List.mem_append.mp hx with hx | hx
    · cases x with
      | request a port r => cases hpre _ hx
      | _ => rfl
    · rcases List.mem_cons.mp hx with rfl | hx
      · rfl
      · exact forall_of_filter (hk₁ ▸ hr₁) (fun _ h => (Op.not_request h).1) x hx
  have hpost : ∀ x ∈ k₂, x.resets = false ∧ x.startsNext = false ∧ ∀ q, x.accepted = some q → q = p := by
    intro x hx
    refine ⟨forall_of_filter (hk₂ ▸ hr) (fun _ h => (Op.not_request h).1) x hx, hnext x (by simp [hx]), ?_⟩
    refine forall_of_filter (P := fun x => ∀ q, x.accepted = some q → q = p) (hk₂ ▸ hq) (fun y hy q hq' => ?_) x hx
    rw [(Op.not_request hy).2] at hq'
    cases hq'
  rw [← List.cons_append, ← List.append_assoc] at hrun
  obtain ⟨u, hu, hrun⟩ := Run.run_append.mp hrun
  obtain ⟨v, hv, hrun⟩ := Run.run_cons.mp hrun
  have hlive : Live u := hw.run hu hpre'
  have hlive' : Live v := hlive.step hv (Op.accepted_resets ho)
  have hwants : v.ram.deviceWantsStart = UInt8.ofNat p.val := by rw [step_accepted hv hlive.running ho]
  exact leads_of_wants (hlive'.run hrun fun x hx => (hpost x hx).1) (hlive'.run_wants hrun hpost hwants)

end Served

/-- `START` の要求が受け付けられるのは、正しいポートを指して 1 と応答されるときである。
到達できる状態でリセットが決まっていないとき、一回の `loop` で 1 と応答されたどの `START` の要求も（後にリセットの
要求がなければ）後の `loop` で果たされるのは、要求が排他的であるとき、またそのときに限る。 -/
theorem starts_served_iff {env : Env} {h : Hardware} {ops : List Op} {w : World}
    (hrun : run env ops (booted env h) = some w) (hreset : w.ram.shouldResetSystem = false)
    {inp : PassInput} {pass : List Op} {w' : World} (hpass : Pass inp pass) (hrun' : run env pass w = some w') :
    (∀ a port r p v v', Req.ofId r.id = some .start → v.ram.halted = false →
      step env (.request a port r) v = some v' → ((Op.request a port r).accepted = some p ↔
        (r.subId - 1) % 256 = p.val ∧ v'.log = ⟨v.now, .resp pubWagmanStart r.subId (some 1)⟩ :: v.log)) ∧
    ((∀ l₁ o l₂ p, inp.requests = l₁ ++ o :: l₂ → o.accepted = some p → (∀ x ∈ l₂, x.resets = false) →
      Leads env p w') ↔ inp.Exclusive) := by
  refine ⟨fun a port r p v v' hr hh hs => step_start hs hh hr, ?_⟩
  obtain ⟨hall, hhalt⟩ := halted_imp_resetSystem hrun
  have hlive : Live w := by
    refine ⟨Bool.eq_false_iff.mpr fun hh => ?_, hreset, hall⟩
    rw [hhalt hh] at hreset
    cases hreset
  have hall' : w'.ram.shouldResetAll = false := (halted_imp_resetSystem (Run.run_append.mpr ⟨w, hrun, hrun'⟩)).1
  constructor
  · intro hserved l₁ o l₂ p hl ho hr
    obtain ⟨hr', hp⟩ := (hserved l₁ o l₂ p hl ho hr).wants hall'
    obtain ⟨pre, rest, rfl, -, hreq, -⟩ := hpass.split
    refine ⟨fun x hx => Bool.eq_false_iff.mpr fun hres => ?_, fun x hx q hq => ?_⟩
    · -- 前にリセットの要求があれば、`loop` の後でもリセットが決まっている
      have hmem : x ∈ rest.filter Op.isRequest := by rw [hreq, hl]; simp [hx]
      have hset := run_resets hrun' hall hhalt
        ⟨x, List.mem_append_right _ (List.mem_cons_of_mem _ (List.mem_filter.mp hmem).1), hres⟩
      rw [hset] at hr'
      cases hr'
    · obtain ⟨m₁, m₂, rfl⟩ := List.append_of_mem hx
      have hl' : inp.requests = (l₁ ++ o :: m₁) ++ x :: m₂ := by rw [hl]; simp
      have hq' := ((hserved _ x m₂ q hl' hq fun y hy => hr y (by simp [hy])).wants hall').2
      exact Fin.ext (hq'.symm.trans hp)
  · intro hex l₁ o l₂ p hl ho hr
    exact leads_of_exclusive hlive hpass hrun' hex hl ho hr

/-- USB から一行で `START` を続けて受け取る。 -/
def PassInput.starts (ports : List Int) : PassInput where
  serialUSB := [ports.map fun i => ⟨0xc007, i, none⟩]
  serial1 := []
  serial2 := []
  serial3 := []
  serial := []

/-- 一つだけの `START` は果たされる。 -/
theorem starts_served_iff_single :
    ∃ w', run Env.ideal (loopOps (.starts [2])) (booted Env.ideal Hardware.ready) = some w' ∧
    (PassInput.starts [2]).Exclusive ∧ Leads Env.ideal 1 w' := by
  have hb : (run Env.ideal (loopOps (.starts [2])) (booted Env.ideal Hardware.ready)).isSome = true :=
    by decide +kernel
  obtain ⟨w', hw'⟩ := Option.isSome_iff_exists.mp hb
  have hex : (PassInput.starts [2]).Exclusive := by
    intro l₁ o l₂ p hl _ _
    have hl' : [Op.request true 0 ⟨0xc007, 2, none⟩] = l₁ ++ o :: l₂ := hl
    cases l₁ with
    | nil =>
        obtain rfl : l₂ = [] := (List.cons.inj hl').2.symm
        exact ⟨by simp, by simp⟩
    | cons x l₁ => exact absurd (congrArg List.length hl') (by simp)
  have hpass : Pass (.starts [2]) (loopOps (.starts [2])) := rfl
  have hnil : run Env.ideal [] (booted Env.ideal Hardware.ready) = some (booted Env.ideal Hardware.ready) := rfl
  exact ⟨w', hw', hex, ((starts_served_iff hnil (booted_globals _ _).2.1 hpass hw').2).mpr hex
    [] (.request true 0 ⟨0xc007, 2, none⟩) [] 1 rfl rfl (by simp)⟩

/-- 続けて受け取った二つの `START` は、どちらも 1 と応答されるが、先のものは果たされない。 -/
theorem start_overwritten :
    ∃ w', run Env.ideal (loopOps (.starts [2, 3])) (booted Env.ideal Hardware.ready) = some w' ∧
    (∃ x ∈ w'.log, x.event = .resp pubWagmanStart 2 (some 1)) ∧
    (PassInput.starts [2, 3]).requests = [] ++ .request true 0 ⟨0xc007, 2, none⟩ ::
      [.request true 0 ⟨0xc007, 3, none⟩] ∧
    (Op.request true 0 ⟨0xc007, 2, none⟩).accepted = some 1 ∧
    (Op.request true 0 ⟨0xc007, 3, none⟩).resets = false ∧ ¬ Leads Env.ideal 1 w' := by
  have hb : ((run Env.ideal (loopOps (.starts [2, 3])) (booted Env.ideal Hardware.ready)).any fun w =>
      decide (∃ x ∈ w.log, x.event = .resp pubWagmanStart 2 (some 1)) && w.ram.deviceWantsStart == 2 &&
        w.ram.shouldResetAll == false) = true := by
    decide +kernel
  obtain ⟨w', hw', hx⟩ := (Option.any_eq_true _ _).mp hb
  simp only [Bool.and_eq_true, decide_eq_true_eq, beq_iff_eq] at hx
  refine ⟨w', hw', hx.1.1, rfl, rfl, rfl, fun hl => ?_⟩
  have hwants := (hl.wants hx.2).2
  rw [hx.1.2] at hwants
  cases hwants

end Wagman.V4
