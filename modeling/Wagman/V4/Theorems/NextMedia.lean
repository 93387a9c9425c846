import Wagman.V4.Theorems.Media

/-!
# 次に起動する媒体の照会と切り替え

`GET_MEDIA_SELECT` が答える媒体は、残っている `managed` から決まる。`start` は `managed` を計算し直してから媒体を
選ぶので、二つが一致するための条件を示す。また、監視されていない機器の媒体の切り替えが、前の起動と違う媒体を
選ぶための条件を示す。
-/

namespace Wagman.V4

open Machine

/-- もう一方の媒体。 -/
def Media.other : Media → Media
  | .sd => .emmc
  | .emmc => .sd

@[simp] theorem Media.other_other (m : Media) : m.other.other = m := by cases m <;> rfl

theorem Media.other_inj {m n : Media} : m.other = n.other ↔ m = n := by cases m <;> cases n <;> decide

theorem Media.ne_iff_eq_other {m n : Media} : m ≠ n ↔ m = n.other := by cases m <;> cases n <;> decide

theorem Media.code_inj {m n : Media} : m.code = n.code ↔ m = n := by cases m <;> cases n <;> decide

/-! ## 照会と起動 -/

theorem media_portOf (s : Fin 2) :
    (setupDevice (portOf s) {}).primaryMedia = .emmc ∧ (setupDevice (portOf s) {}).secondaryMedia = .sd := by
  revert s; decide

theorem bytePort_portOf (s : Fin 2) : bytePort (s.val : Int) = portOf s := by revert s; decide

theorem commandGetMediaSelectMain_portOf (s : Fin 2) (w : World) :
    commandGetMediaSelectMain (s.val : Int) w = (Device.getNextBootMedia (portOf s) w).code := by
  have hs : (s.val : Int) = 0 ∨ (s.val : Int) = 1 := by omega
  simp only [commandGetMediaSelectMain, hs, if_true, bytePort_portOf]

/-- 残っている `managed` から決まる媒体。 -/
theorem getNextBootMedia_eq {s : Fin 2} {w : World}
    (hc : (dev w (portOf s)).config = (setupDevice (portOf s) {}).config) :
    Device.getNextBootMedia (portOf s) w =
      if (dev w (portOf s)).shouldForceBootMedia then (dev w (portOf s)).forceBootMedia
      else if (dev w (portOf s)).managed then
        if Record.getBootFailures w.hw.eeprom (portOf s) % 4 = 3 then .sd else .emmc
      else if Record.getBootAttempts w.hw.eeprom (portOf s) % 2 = 1 then .sd else .emmc := by
  obtain ⟨hp, hs⟩ := media_portOf s
  simp only [Device.config, Prod.mk.injEq, hp, hs] at hc
  obtain ⟨-, hprim, hsec, -⟩ := hc
  simp only [Device.getNextBootMedia, hprim, hsec]

/-- `devices[p]` の `start()` が受け付けられて選んだ媒体。 -/
def Event.started (p : Port) : Event → Option Media
  | .start q m => if q = p then some m else none
  | _ => none

/-- `devices[p]` の起動ごとに選んだ媒体。新しい起動を先頭に置く。 -/
def starts (p : Port) (log : Log) : List Media := log.filterMap (·.event.started p)

theorem starts_eq {p : Port} {w w' : World} (h : Trail (fun e => e.started p = none) w w') :
    starts p w'.log = starts p w.log :=
  h.log_eq fun _ _ hx => List.filterMap_cons_none hx

theorem starts_suffix {env : Env} {p : Port} {ops : List Op} {w v : World} (hrun : run env ops w = some v)
    (hall : w.ram.shouldResetAll = false) : starts p w.log <:+ starts p v.log := by
  obtain ⟨new, hl, -⟩ := (trail_run hrun hall).log
  rw [hl, starts, starts, List.filterMap_append]
  exact List.suffix_append _ _

theorem getNextBootMedia_of_forced {p : Port} {w : World} {f : Media} (h : (dev w p).forced = some f) :
    Device.getNextBootMedia p w = f := by
  unfold Device.forced at h
  split at h
  · rename_i hs
    simp only [Device.getNextBootMedia, hs, if_true, Option.some.inj h]
  · cases h

theorem starts_powerUp (env : Env) (p : Port) (w : World) : starts p (Device.powerUp env p w).log =
    Device.getNextBootMedia p (Device.manage p w) :: starts p w.log := by
  have hpin : ∀ (v : World) (s : Nat) (m : Media),
      starts p (setBootMedia env s m (v.mark (.start p m))).log = m :: starts p v.log := by
    intro v s m
    rw [starts_eq (still_setBootMedia fun _ _ => rfl).trail]
    simp [starts, Event.started]
  rw [starts_eq (trail_afterSelect (fun _ _ => rfl) (fun _ _ => rfl) rfl rfl)]
  exact hpin _ _ _

theorem MediaOk.run {env : Env} {h : Hardware} {ops : List Op} {w : World} (s : Fin 2)
    (hrun : V4.run env ops (V4.booted env h) = some w) : MediaOk s h w :=
  run_invariant_on (fun _ _ _ hs hw => MediaOk.step hs hw) hrun (MediaOk.booted env h s)

/-- 残っている `managed` は、次の `start` が計算し直しても媒体を変えない。 -/
def MediaAgrees (p : Port) (w : World) : Prop :=
  (dev w p).shouldForceBootMedia = true ∨
    (dev w p).managed = decide (Record.getBootFailures w.hw.eeprom p < 30) ∨
    (Record.getBootFailures w.hw.eeprom p % 4 = 3 ↔ Record.getBootAttempts w.hw.eeprom p % 2 = 1)

/-- 止めている途中でない機器について、照会の答えは、次の `start` が選ぶ媒体と、`MediaAgrees` のときに限り等しい。 -/
theorem media_query_iff (env : Env) (h : Hardware) (s : Fin 2) (ops : List Op) (w : World)
    (hrun : run env ops (booted env h) = some w) (hs : (dev w (portOf s)).state ≠ .stopping) :
    ∃ m, starts (portOf s) (Device.start env (portOf s) w).2.log = m :: starts (portOf s) w.log ∧
      (commandGetMediaSelectMain (s.val : Int) w = m.code ↔ MediaAgrees (portOf s) w) := by
  have hc := (MediaOk.run s hrun).config
  have hc' : (dev (Device.manage (portOf s) w) (portOf s)).config = (setupDevice (portOf s) {}).config := by
    rw [← hc]
    simp [Device.manage, Device.config]
  have hd : dev (Device.manage (portOf s) w) (portOf s) = { dev w (portOf s) with
      managed := decide (Record.getBootFailures w.hw.eeprom (portOf s) < 30) } := by simp [Device.manage]
  have he : (Device.manage (portOf s) w).hw = w.hw := rfl
  refine ⟨_, by rw [Device.start_of_ne env hs]; exact starts_powerUp env _ w, ?_⟩
  rw [commandGetMediaSelectMain_portOf, Media.code_inj, getNextBootMedia_eq hc, getNextBootMedia_eq hc', hd, he]
  unfold MediaAgrees
  cases (dev w (portOf s)).shouldForceBootMedia with
  | true => simp
  | false =>
      -- 二つの `managed` が食い違うときだけ、別の規則で選んだ媒体を比べることになる
      cases (dev w (portOf s)).managed <;>
        by_cases hf : Record.getBootFailures w.hw.eeprom (portOf s) < 30 <;>
        by_cases h3 : Record.getBootFailures w.hw.eeprom (portOf s) % 4 = 3 <;>
        by_cases h1 : Record.getBootAttempts w.hw.eeprom (portOf s) % 2 = 1 <;> simp [hf, h3, h1]

/-- 初期化されたばかりの基板では、照会の答えはポート 1 の次の媒体である。 -/
theorem media_query_iff_ready : (dev (booted Env.ideal Hardware.ready) 1).state ≠ .stopping ∧ ∃ m,
    starts 1 (Device.start Env.ideal 1 (booted Env.ideal Hardware.ready)).2.log =
      m :: starts 1 (booted Env.ideal Hardware.ready).log ∧
      commandGetMediaSelectMain 1 (booted Env.ideal Hardware.ready) = m.code := by
  have hs : (dev (booted Env.ideal Hardware.ready) 1).state ≠ .stopping := by decide +kernel
  obtain ⟨m, hm, hiff⟩ := media_query_iff Env.ideal Hardware.ready 1 [] _ rfl hs
  refine ⟨hs, m, hm, hiff.mpr (Or.inr (Or.inr ?_))⟩
  decide +kernel

/-- EEPROM の一バイトだけが `Hardware.ready` と違う基板。 -/
def Hardware.readyWith (addr : Nat) (value : UInt8) : Hardware := Hardware.ready.write addr value

/-- 前の電源投入でポート 1 を一度起動した基板では、`managed` が初期値のままの間、照会は SD と答え、`start` は eMMC を
選ぶ。 -/
theorem media_query_stale : (dev (booted Env.ideal (Hardware.readyWith 391 1)) 1).state = .stopped ∧
    starts 1 (Device.start Env.ideal 1 (booted Env.ideal (Hardware.readyWith 391 1))).2.log =
      .emmc :: starts 1 (booted Env.ideal (Hardware.readyWith 391 1)).log ∧
    commandGetMediaSelectMain 1 (booted Env.ideal (Hardware.readyWith 391 1)) = Media.sd.code := by
  refine ⟨?_, ?_, ?_⟩ <;> decide +kernel

/-! ## 監視されていない機器の切り替え -/

/-- 次の媒体を強制する事象。 -/
def Event.forces (p : Port) : Event → Bool
  | .media q _ => q == p
  | _ => false

/-- `devices[p]` の次の媒体を強制する要求。 -/
abbrev Op.SetsMedia (p : Port) : Op → Prop :=
  Op.Admin fun r => Req.ofId r.id = some .setMediaSelect ∧ r.Targets p

/-- `devices[p]` の次の媒体を強制した回数。 -/
def forcings (p : Port) (log : Log) : Nat := log.countP (·.event.forces p)

theorem forcings_eq {p : Port} {w w' : World} (h : Trail (fun e => e.forces p = false) w w') :
    forcings p w'.log = forcings p w.log :=
  h.log_eq fun _ _ hx => List.countP_cons_of_neg (by simp [hx])

theorem Media.other_iterate (k : Nat) (m : Media) : Media.other^[k] m = if Even k then m else m.other := by
  induction k with
  | zero => simp
  | succ k ih =>
      rw [Function.iterate_succ_apply', ih]
      by_cases hk : Even k <;> simp [hk, Nat.even_add_one]

/-- `devices[p]` を起動せず、次の媒体を強制もしない。 -/
structure KeepsMedia (p : Port) (w w' : World) : Prop where
  starts : starts p w'.log = starts p w.log
  forced : (dev w' p).forced = (dev w p).forced
  forcings : forcings p w'.log = forcings p w.log

namespace KeepsMedia

variable {p : Port} {w w' w'' : World}

theorem trans (h₁ : KeepsMedia p w w') (h₂ : KeepsMedia p w' w'') : KeepsMedia p w w'' :=
  ⟨h₂.starts.trans h₁.starts, h₂.forced.trans h₁.forced, h₂.forcings.trans h₁.forcings⟩

theorem of_frame (hf : Frame p w w') : KeepsMedia p w w' := by
  refine ⟨starts_eq (hf.trail.mono fun e he => ?_), by rw [hf.dev], forcings_eq (hf.trail.mono fun e he => ?_)⟩
  · cases e with
    | start q m => exact if_neg he
    | _ => rfl
  · cases e with
    | media q m => exact beq_eq_false_iff_ne.mpr he
    | _ => rfl

theorem of_acts {F : Footprint} (ha : Acts F w w') (hp : F.port = p) (hn : ¬ F.on) (hf : ¬ F.force) :
    KeepsMedia p w w' := by
  refine ⟨starts_eq (ha.trail.mono fun e he => ?_), hp ▸ ha.forced hn hf,
    forcings_eq (ha.trail.mono fun e he => ?_)⟩
  · cases e with
    | start q m => exact absurd he.2 hn
    | _ => rfl
  · cases e with
    | media q m => exact absurd he.2 hf
    | _ => rfl

end KeepsMedia

/-- 強制されている媒体があればその媒体が、なければ起動の回数の偶奇で決まる媒体が、`m` である。 -/
def PointsTo (p : Port) (m : Media) (w : World) : Prop :=
  match (dev w p).forced with
  | some f => f = m
  | none => Record.getBootAttempts w.hw.eeprom p % 2 = 1 ↔ m = .sd

/-- 切り替えの時間に達した `update` が見る次の媒体。 -/
theorem pointsTo_iff {s : Fin 2} {w : World}
    (hc : (dev w (portOf s)).config = (setupDevice (portOf s) {}).config)
    (hm : (dev w (portOf s)).managed = false) (m : Media) :
    PointsTo (portOf s) m w ↔ Device.getNextBootMedia (portOf s) w = m := by
  rw [getNextBootMedia_eq hc, hm]
  unfold PointsTo Device.forced
  cases (dev w (portOf s)).shouldForceBootMedia with
  | true => simp
  | false =>
      cases m <;> by_cases h1 : Record.getBootAttempts w.hw.eeprom (portOf s) % 2 = 1 <;> simp [h1]

theorem pointsTo_sense (env : Env) (p : Port) (m : Media) (w : World) :
    PointsTo p m (Device.sense env p w) ↔ PointsTo p m w := by
  have ha := Device.acts_sense env w p
  have hf : (dev (Device.sense env p w) p).forced = (dev w p).forced := ha.forced id id
  have hn : Record.getBootAttempts (Device.sense env p w).hw.eeprom p = Record.getBootAttempts w.hw.eeprom p := by
    refine congrArg UInt32.ofNat (Footprint.word_eq ha.trail (by simp [Record.portBootAttempts]) (Or.inr ?_))
    simp only [Footprint.power, Record.portBootAttempts]
    omega
  unfold PointsTo
  rw [hf, hn]

/-- 切り替えの時間に達した `updateState` は、起動せずに、次の媒体のもう一方を強制する。 -/
theorem updateState_switch (env : Env) {p : Port} {w : World} (hd : Device.SwitchDue p w) :
    starts p (Device.updateState env p w).log = starts p w.log ∧
      (dev (Device.updateState env p w) p).forced = some (Device.getNextBootMedia p w).other ∧
      forcings p (Device.updateState env p w).log = forcings p w.log + 1 := by
  obtain ⟨m, hm⟩ : ∃ m, m = (Device.getNextBootMedia p w).other := ⟨_, rfl⟩
  have heq :
      Device.updateState env p w = (Device.stop env p (Device.setNextBootMedia env p m (ioRead env w))).2 := by
    rw [Device.updateState_of_due env hd, hm]
    simp only [Device.updateStartedUnmanaged, hd.2.2, if_true]
    cases Device.getNextBootMedia p w <;> rfl
  have hstop : KeepsMedia p (Device.setNextBootMedia env p m (ioRead env w))
      (Device.stop env p (Device.setNextBootMedia env p m (ioRead env w))).2 :=
    .of_acts (Device.acts_stop env _ p) rfl id id
  have hset : ∀ v : World, starts p (Device.setNextBootMedia env p m v).log = starts p v.log ∧
      forcings p (Device.setNextBootMedia env p m v).log = forcings p v.log + 1 := by
    intro v
    unfold Device.setNextBootMedia
    rw [starts_eq (still_setBootMedia fun _ _ => rfl).trail, forcings_eq (still_setBootMedia fun _ _ => rfl).trail]
    simp [starts, Event.started, forcings, Event.forces, setDev]
  rw [heq, hstop.starts, hstop.forced, hstop.forcings, (hset _).1, (hset _).2, ← hm]
  simp [Device.forced, ioRead, delay, elapse]

/-- 媒体を強制する要求のほかの一歩は、媒体に関わらないか、切り替えを行うか、`devices[p]` を起動する。 -/
theorem StepOn.media_cases {env : Env} {p : Port} {o : Op} {w w' : World} (hs : StepOn env p o w w')
    (ho : ¬ o.SetsMedia p) : KeepsMedia p w w' ∨
      (starts p w'.log = starts p w.log ∧
        (dev w' p).forced = some (Device.getNextBootMedia p (Device.sense env p w)).other ∧
        forcings p w'.log = forcings p w.log + 1) ∨
      ∃ u, dev u p = dev w p ∧ starts p w'.log = Device.getNextBootMedia p (Device.manage p u) :: starts p w.log := by
  cases hs with
  | frame hf => exact Or.inl (.of_frame hf)
  | update =>
      have hk : KeepsMedia p w (Device.sense env p w) := .of_acts (Device.acts_sense env w p) rfl id id
      by_cases hd : Device.SwitchDue p (Device.sense env p w)
      · have hsw := updateState_switch env hd
        rw [hk.starts, hk.forcings] at hsw
        exact Or.inr (Or.inl hsw)
      · exact Or.inl (hk.trans (.of_acts (Device.acts_updateState_of_not_due env hd) rfl id id))
  | @next _ u _ _ _ h₁ h₂ =>
      by_cases hst : (dev u p).state = .stopping
      · rw [Device.start_of_stopping env hst] at h₂
        exact Or.inl ((KeepsMedia.of_frame h₁).trans (.of_frame h₂))
      · rw [Device.start_of_ne env hst] at h₂
        refine Or.inr (Or.inr ⟨u, h₁.dev, ?_⟩)
        rw [(KeepsMedia.of_frame h₂).starts, starts_powerUp, (KeepsMedia.of_frame h₁).starts]
  | ping _ _ _ h₁ h₂ =>
      exact Or.inl (((KeepsMedia.of_frame h₁).trans (.of_acts (Device.acts_onHeartbeat env _ p) rfl id id)).trans
        (.of_frame h₂))
  | stop t _ _ h₁ =>
      have ha := (Device.acts_setStopTimeout w p t).trans (Device.acts_stop env _ p)
      exact Or.inl ((KeepsMedia.of_acts ha rfl id id).trans (.of_frame h₁))
  | enable _ _ h₁ =>
      exact Or.inl ((KeepsMedia.of_acts (Device.acts_enable env w p) rfl id id).trans (.of_frame h₁))
  | media m hr ht _ _ => exact absurd ⟨hr, ht⟩ ho

/-- 強制されている媒体は、切り替えのたびに入れ替わり、次の起動で選ばれる。 -/
theorem run_toggles {env : Env} {p : Port} {ops : List Op} {w v : World} {f : Media}
    (hrun : run env ops w = some v) (hall : w.ram.shouldResetAll = false) (hset : ∀ o ∈ ops, ¬ o.SetsMedia p)
    (hf : (dev w p).forced = some f) (hnone : starts p v.log = starts p w.log) :
    ∃ k, forcings p v.log = forcings p w.log + k ∧ (dev v p).forced = some (Media.other^[k] f) := by
  induction ops generalizing w f with
  | nil => cases hrun; exact ⟨0, rfl, hf⟩
  | cons o ops ih =>
      obtain ⟨u, hu, hr⟩ := Run.run_cons.mp hrun
      have hall' := (step_inv hu).resetAll_eq hall
      have hset' : ∀ o ∈ ops, ¬ o.SetsMedia p := fun o ho => hset o (by simp [ho])
      rcases ((step_inv hu).on hall p).media_cases (hset o (by simp)) with hk | ⟨hs, hfu, hn⟩ | ⟨x, -, hs⟩
      · obtain ⟨k, hk', hv⟩ := ih hr hall' hset' (hk.forced.trans hf) (hnone.trans hk.starts.symm)
        exact ⟨k, by rw [hk', hk.forcings], hv⟩
      · have hnext : Device.getNextBootMedia p (Device.sense env p w) = f :=
          getNextBootMedia_of_forced ((Device.acts_sense env w p).forced id id |>.trans hf)
        rw [hnext] at hfu
        obtain ⟨k, hk', hv⟩ := ih hr hall' hset' hfu (hnone.trans hs.symm)
        exact ⟨k + 1, by omega, hv⟩
      · -- 起動の後に、起動の回数が元に戻ることはない
        have hle : starts p u.log <:+ starts p v.log := starts_suffix hr hall'
        rw [hnone, hs] at hle
        exact absurd hle.length_le (by simp)

/-- 前の起動で媒体 `m₀` を選んだ機器が、切り替えの時間に達したとする。次の起動で選ぶ媒体が `m₀` と違うのは、
切り替えのときに次の媒体が `m₀` であり、かつ次の起動までの切り替えがほかに偶数回であるときと、次の媒体が `m₀` でなく
ほかに奇数回であるときに限る。 -/
theorem switch_alternates_iff {env : Env} {h : Hardware} {s : Fin 2} {ops ops' : List Op} {o : Op}
    {w w' v v' : World} {m : Media} (hrun : run env ops (booted env h) = some w)
    (hhalt : w.ram.halted = false) (hdue : Device.SwitchDue (portOf s) (Device.sense env (portOf s) w))
    (hupd : step env (.update (portOf s)) w = some w') (hrest : run env ops' w' = some v)
    (hstart : step env o v = some v') (hset : ∀ o' ∈ ops' ++ [o], ¬ o'.SetsMedia (portOf s))
    (hnone : starts (portOf s) v.log = starts (portOf s) w'.log)
    (hnext : starts (portOf s) v'.log = m :: starts (portOf s) v.log) :
    ∀ m₀, (starts (portOf s) w.log).head? = some m₀ → (m ≠ m₀ ↔
      (PointsTo (portOf s) m₀ w ↔ Even (forcings (portOf s) v.log - forcings (portOf s) w'.log))) := by
  intro m₀ _
  have hall := run_resetAll hrun
  have hall' := (step_inv hupd).resetAll_eq hall
  have hw := (MediaOk.run s hrun).of_acts (Device.acts_sense env w (portOf s)) rfl id id
  have heq : w' = Device.update env (portOf s) w := by simpa [V4.step, hhalt] using hupd.symm
  -- 切り替えの直後に強制されている媒体
  have hforced : (dev w' (portOf s)).forced =
      some (Device.getNextBootMedia (portOf s) (Device.sense env (portOf s) w)).other := by
    rw [heq]
    exact (updateState_switch env hdue).2.1
  obtain ⟨k, hk, hv⟩ := run_toggles hrest hall' (fun o ho => hset o (by simp [ho])) hforced hnone
  have hm : m = Media.other^[k] (Device.getNextBootMedia (portOf s) (Device.sense env (portOf s) w)).other := by
    have hon := (step_inv hstart).on (resetAll_run hrest hall') (portOf s)
    rcases hon.media_cases (hset o (by simp)) with hkeep | ⟨hs, -, -⟩ | ⟨u, hu, hs⟩
    · rw [hkeep.starts] at hnext
      exact absurd hnext.symm (List.cons_ne_self m _)
    · rw [hs] at hnext
      exact absurd hnext.symm (List.cons_ne_self m _)
    · rw [hs] at hnext
      have hf : (dev (Device.manage (portOf s) u) (portOf s)).forced = (dev v (portOf s)).forced := by
        rw [← hu]
        simp [Device.manage, Device.forced]
      rw [← (List.cons.inj hnext).1]
      exact getNextBootMedia_of_forced (hf.trans hv)
  rw [← pointsTo_sense env, pointsTo_iff hw.config hdue.2.1, hm, hk, Nat.add_sub_cancel_left,
    Media.other_iterate, Media.ne_iff_eq_other]
  by_cases he : Even k
  · simp only [he, if_true, iff_true]
    exact Media.other_inj
  · simp only [he, if_false, iff_false, Media.other_other]
    exact Media.ne_iff_eq_other.symm

/-- ポート 1 の起動を要求して起動し、切り替えの時間まで待つ。 -/
def startOps : List Op := [.request true 0 ⟨0xc007, 2, none⟩, .startNext, .idle 14400001]

/-- 切り替えの後、待ち時間が過ぎるのを待ってリレーを切り、ポート 1 の起動を要求する。 -/
def restartOps : List Op := [.idle 60001, .update 1, .request true 0 ⟨0xc007, 2, none⟩]

/-- 失敗が 30 回に達していて、起動の前に SD を強制されたポート 1 は、切り替えの後に eMMC で起動する。 -/
theorem switch_alternates_iff_forced : ∃ w w' v v',
    run Env.ideal (.request true 0 ⟨0xc00e, 2, some 0⟩ :: startOps) (booted Env.ideal (Hardware.readyWith 395 30)) =
      some w ∧ step Env.ideal (.update 1) w = some w' ∧ run Env.ideal restartOps w' = some v ∧
      step Env.ideal .startNext v = some v' ∧ starts 1 w.log = [.sd] ∧ starts 1 v'.log = [.emmc, .sd] ∧
      (Media.emmc ≠ .sd ↔ (PointsTo 1 .sd w ↔ Even (forcings 1 v.log - forcings 1 w'.log))) := by
  have hb : ((run Env.ideal (.request true 0 ⟨0xc00e, 2, some 0⟩ :: startOps)
      (booted Env.ideal (Hardware.readyWith 395 30))).any fun w =>
        decide (w.ram.halted = false ∧ Device.SwitchDue 1 (Device.sense Env.ideal 1 w) ∧ starts 1 w.log = [.sd]) &&
        (step Env.ideal (.update 1) w).any fun w' => (run Env.ideal restartOps w').any fun v =>
          decide (starts 1 v.log = starts 1 w'.log ∧ starts 1 v.log = [.sd]) &&
          (step Env.ideal .startNext v).any fun v' => decide (starts 1 v'.log = [.emmc, .sd])) = true := by
    decide +kernel
  simp only [Option.any_eq_true, Bool.and_eq_true, decide_eq_true_eq] at hb
  obtain ⟨w, hw, ⟨hh, hd, hsw⟩, w', hw', v, hv, ⟨hsv, hsv'⟩, v', hv', hsn⟩ := hb
  have hset : ∀ o ∈ restartOps ++ [.startNext], ¬ o.SetsMedia 1 := by decide +kernel
  refine ⟨w, w', v, v', hw, hw', hv, hv', hsw, hsn, ?_⟩
  have hall := switch_alternates_iff (s := 1) (m := .emmc) hw hh hd hw' hv hv' hset hsv
    (hsn.trans (by rw [← hsv']; rfl))
  exact hall .sd (congrArg List.head? hsw)

/-- 失敗が 30 回に達したポート 1 は、切り替えの後も同じ eMMC で起動する。 -/
theorem switch_repeats_media : ∃ w v,
    run Env.ideal startOps (booted Env.ideal (Hardware.readyWith 395 30)) = some w ∧ w.ram.halted = false ∧
      Device.SwitchDue 1 (Device.sense Env.ideal 1 w) ∧
      run Env.ideal (.update 1 :: restartOps ++ [.startNext]) w = some v ∧
      (∀ o ∈ startOps ++ restartOps, ¬ o.SetsMedia 1) ∧ starts 1 w.log = [.emmc] ∧
      starts 1 v.log = [.emmc, .emmc] := by
  have hb : ((run Env.ideal startOps (booted Env.ideal (Hardware.readyWith 395 30))).any fun w =>
      decide (w.ram.halted = false ∧ Device.SwitchDue 1 (Device.sense Env.ideal 1 w) ∧ starts 1 w.log = [.emmc]) &&
      (run Env.ideal (.update 1 :: restartOps ++ [.startNext]) w).any fun v =>
        decide (starts 1 v.log = [.emmc, .emmc])) = true := by
    decide +kernel
  simp only [Option.any_eq_true, Bool.and_eq_true, decide_eq_true_eq] at hb
  obtain ⟨w, hw, ⟨hh, hd, hsw⟩, v, hv, hsv⟩ := hb
  exact ⟨w, v, hw, hh, hd, hv, by decide +kernel, hsw, hsv⟩

end Wagman.V4
