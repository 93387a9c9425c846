import Wagman.V2.Lemmas.Effects

/-!
# 監視の繰り返しの作用

`loop` は、検査、対処、報告、起動を続けたものである。EEPROM のうち、機器の有効の印だけを書く。
-/

namespace Wagman.V2

open Machine

variable {env : Env} {w w' w'' : World}

/-! ## 回数と段階を変えない部分 -/

/-- 検査と対処のほかに、`loop` の間に起きる事象。 -/
def Event.Calm (e : Event) : Prop := ∃ d, e.Boots d

theorem Event.Passive.calm {e : Event} (h : e.Passive) : e.Calm := ⟨.nc, h.boots .nc⟩

/-- 検査を評価せず、対処もせず、続けて失敗した回数と段階を変えない。 -/
structure Serves (w w' : World) : Prop where
  trail : Trail Event.Calm w w'
  counts : w'.ram.countTimeout = w.ram.countTimeout
  stage : w'.ram.stage = w.ram.stage

namespace Serves

theorem refl (w : World) : Serves w w := ⟨Trail.refl w, rfl, rfl⟩

theorem trans (h₁ : Serves w w') (h₂ : Serves w' w'') : Serves w w'' :=
  ⟨h₁.trail.trans h₂.trail, h₂.counts.trans h₁.counts, h₂.stage.trans h₁.stage⟩

theorem setRam {r : Ram} (hc : r.countTimeout = w.ram.countTimeout) (hs : r.stage = w.ram.stage) :
    Serves w (w.setRam r) :=
  ⟨(Trail.refl w).setRam r, hc, hs⟩

theorem ofPassive (h : Still Event.Passive w w') : Serves w w' :=
  ⟨h.trail.mono fun _ he => he.calm, by rw [h.ram], by rw [h.ram]⟩

theorem ofBoots {d : Device} (h : Boots d w w') : Serves w w' := by
  obtain ⟨ht, b, hr⟩ := h
  exact ⟨ht.mono fun _ he => ⟨d, he⟩, by rw [hr], by rw [hr]⟩

theorem boot (d : Device) : Serves w (boot env d w).2 := ofBoots (boots_boot d)

end Serves

theorem passive_sendStatus : Still Event.Passive w (sendStatus env w) :=
  (passive_println "@").trans ((still_delay 10).trans (still_ioRead.trans still_ioRead))

theorem passive_sendTime : Still Event.Passive w (sendTime env w) :=
  (passive_println "(").trans ((still_delay 10).trans still_ioRead)

theorem serves_reportStatus : Serves w (reportStatus env w) := by
  unfold reportStatus
  have hset : Serves w (w.setRam { w.ram with countStatusReport := 0 }) := Serves.setRam rfl rfl
  split
  · exact hset.trans (Serves.ofPassive passive_sendStatus)
  · exact Serves.refl w

theorem serves_requestTime : Serves w (requestTime env w) := by
  unfold requestTime
  have hset : Serves w (w.setRam { w.ram with countTimeUpdateRequest := 0 }) := Serves.setRam rfl rfl
  split
  · exact hset.trans (Serves.ofPassive passive_getTimeNC)
  · exact Serves.refl w

theorem serves_serveRequest : Serves w (serveRequest env w) := by
  have hread : Serves w (ioRead env w) := Serves.ofPassive still_ioRead
  simp only [serveRequest]
  split
  · exact hread.trans (Serves.ofPassive passive_sendTime)
  · exact hread.trans (Serves.ofPassive passive_sendStatus)
  · exact hread.trans (Serves.boot _)
  · exact hread.trans (Serves.boot _)
  · exact hread.trans (Serves.boot _)
  · exact hread.trans (Serves.boot _)
  · exact hread.trans (Serves.boot _)
  · exact hread

theorem serves_rebootIdle : Serves w (rebootIdle env w) := by
  unfold rebootIdle
  split
  · refine List.foldlRecOn devices _ (motive := fun v => Serves w v) (Serves.setRam rfl rfl) fun v hv d _ => ?_
    split
    · exact hv.trans (Serves.boot d)
    · exact hv
  · exact Serves.refl w

theorem serves_finish : Serves w (finish env w) :=
  serves_reportStatus.trans <| serves_requestTime.trans <| serves_serveRequest.trans <|
    serves_rebootIdle.trans (Serves.setRam rfl rfl)

theorem serves_tick : Serves w (tick w) := Serves.setRam rfl rfl

/-! ## EEPROM に書く事象 -/

/-- 監視の間に起きる事象。EEPROM には機器の有効の印だけを書く。 -/
def Event.Monitors : Event → Prop
  | .evaluated _ _ | .reaction _ => True
  | e => e.Calm

theorem Event.Calm.monitors {e : Event} (h : e.Calm) : e.Monitors := by
  cases e with
  | evaluated c ok => trivial
  | reaction c => trivial
  | _ => exact h

theorem Serves.monitors (h : Serves w w') : Trail Event.Monitors w w' := h.trail.mono fun _ he => he.monitors

theorem trail_foldl {α : Type} {A : Event → Prop} {f : World → α → World} (hf : ∀ w a, Trail A w (f w a))
    (as : List α) : Trail A w (as.foldl f w) :=
  List.foldlRecOn as f (motive := fun v => Trail A w v) (Trail.refl w) fun v hv a _ => hv.trans (hf v a)

theorem trail_evaluate (c : Check) : Trail Event.Monitors w (evaluate env c w) :=
  (((Serves.ofPassive (passive_run c)).monitors).setRam _).mark trivial

theorem trail_countTimeouts (s : Subject) : Trail Event.Monitors w (countTimeouts env s w) := by
  unfold countTimeouts
  split
  · exact trail_foldl (fun _ c => trail_evaluate c) _
  · exact Trail.refl w

theorem trail_reboot (s : Subject) : Trail Event.Monitors w (reboot env s w) := by
  cases s with
  | sysMon => exact (Trail.refl w).setRam _
  | device d => exact (Serves.boot d).monitors

theorem trail_react (s : Subject) (c : Check) : Trail Event.Monitors w (react env s c w) := by
  have hclear : ∀ v : World, Trail Event.Monitors v
      ((reactions s).foldl (fun w c => w.setRam (w.ram.setCount c 0)) v) := fun v =>
    trail_foldl (fun v c => (Trail.refl v).setRam _) _
  exact ((Serves.ofPassive (passive_sendProblem _)).monitors.trans (hclear _)).trans
    (((Trail.refl _).mark trivial).trans (trail_reboot s))

theorem trail_respond (s : Subject) : Trail Event.Monitors w (respond env s w) := by
  unfold respond
  split
  · split
    · exact trail_react s _
    · exact Trail.refl w
  · exact Trail.refl w

theorem trail_countAll : Trail Event.Monitors w (countAll env w) :=
  trail_foldl (fun _ s => trail_countTimeouts s) subjects

theorem trail_loop : Trail Event.Monitors w (loop env w) := by
  have hrespond : ∀ v : World, Trail Event.Monitors v (respondAll env (countAll env (tick v))) := fun v =>
    (serves_tick.monitors.trans trail_countAll).trans
      (((Trail.refl _).setRam _).trans (trail_foldl (fun _ s => trail_respond s) _))
  simp only [loop]
  split
  · exact Trail.refl w
  · split
    · exact (hrespond w).trans serves_finish.monitors
    · exact hrespond w

theorem trail_step (o : Op) : Trail Event.Monitors w (step env o w) := by
  unfold step
  split
  · cases o with
    | timer1 => exact (Trail.refl w).setRam _
    | loop => exact trail_loop
  · exact Trail.refl w

theorem trail_run (ops : List Op) : Trail Event.Monitors w (run env ops w) :=
  trail_foldl (fun _ o => trail_step o) ops

theorem byte_of_monitors {e : Event} (he : e.Monitors) {c : ByteCell} (hc : ∀ d : Device, c ≠ d.enabled)
    (s : Hardware) : (Effect.apply e s).eeprom.byte c = s.eeprom.byte c := by
  cases e with
  | byte q v =>
      obtain ⟨d, hq⟩ := he
      have hne : c ≠ q := fun h => hc d (h.trans hq)
      simp [Effect.apply, Function.update_of_ne hne]
  | _ => rfl

end Wagman.V2
