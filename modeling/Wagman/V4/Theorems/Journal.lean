import Wagman.V4.Lemmas.Setup

/-!
# リレーの記録の正しさ

EEPROM に残るリレーの状態は、電源がどの書き込みの間で切れても、何回切れても、ラッチの状態と食い違わない。
電源が切れた時点の装置の状態は、記録をそこまで再生した状態である。
-/

namespace Wagman.V4

open Machine

/-- 記録が `RELAY_ON` ならラッチは入っており、`RELAY_OFF` なら切れている。 -/
structure JournalSound (p : Port) (h : Hardware) : Prop where
  on : Record.getRelayState h.eeprom p = relayOn → h.latch p = true
  off : Record.getRelayState h.eeprom p = relayOff → h.latch p = false

/-- 何回かの起動のどこかの時点での装置の状態。`reset` は電源が切れるかリセットされることで、EEPROM とラッチは残り、
ピンの出力は任意になる。`boot` は、記録が初期化された装置を起動して実行した途中である。 -/
inductive Instant (h₀ : Hardware) : Hardware → Prop
  | initial : Instant h₀ h₀
  | reset {h} (pins : Nat → Bool) : Instant h₀ h → Instant h₀ { h with pin := pins }
  | boot {h w} {l : Log} (env : Env) (ops : List Op) : Instant h₀ h → Record.initialized h.eeprom = true →
      run env ops (booted env h) = some w → l <:+ w.log → Instant h₀ (replay h l)

theorem JournalSound.apply {p : Port} {h : Hardware} (hs : JournalSound p h) {e : Event}
    (he : ¬ e.MovesRelay p) :
    JournalSound p (Effect.apply e h) := by
  cases e with
  | eeprom a v =>
      have hne : Record.deviceRegion p + Record.portRelayJournal ≠ a := fun ha => he ha.symm
      have hj : Record.getRelayState (Bytes.store a v h.eeprom) p = Record.getRelayState h.eeprom p :=
        Bytes.store_of_ne hne v h.eeprom
      exact ⟨fun hon => hs.on (hj ▸ hon), fun hoff => hs.off (hj ▸ hoff)⟩
  | pin k b =>
      have hl : (h.digitalWrite k b).latch p = h.latch p := if_neg fun hc => he hc.1
      exact ⟨fun hon => hl.trans (hs.on hon), fun hoff => hl.trans (hs.off hoff)⟩
  | _ => exact hs

/-- 装置は記録の再生で得られ、記録のどの時点でもリレーの記録は正しい。 -/
structure Recorded (p : Port) (h : Hardware) (w : World) : Prop where
  replayed : w.hw = replay h w.log
  always : Always (fun l => JournalSound p (replay h l)) w.log

namespace Recorded

variable {env : Env} {p : Port} {h : Hardware} {w w' : World}

theorem of_trail (hr : Recorded p h w) (hp : Trail (fun e => ¬ e.MovesRelay p) w w') :
    Recorded p h w' := by
  refine ⟨hp.replayed hr.replayed, ?_⟩
  have hK : ∀ (x : Entry Event) (l : Log), ¬ x.event.MovesRelay p → JournalSound p (replay h l) →
      JournalSound p (replay h (x :: l)) := fun x l hx hs => hs.apply hx
  exact (hp.always hK (fun _ hs => hs) (hr.always _ (List.suffix_refl _)) hr.always).2

theorem of_frame (hr : Recorded p h w) (hf : Frame p w w') : Recorded p h w' :=
  hr.of_trail (hf.trail.mono fun _ he => not_movesRelay_of_not_about he)

theorem of_setDev (hr : Recorded p h w) (d : Device) : Recorded p h (setDev p d w) :=
  hr.of_trail (trail_setDev p d)

theorem changeState (hr : Recorded p h w) (s : State) : Recorded p h (Device.changeState p s w) :=
  hr.of_trail (trail_changeState id)

theorem sound_of_turning {t : UInt8} (ht : t = relayTurningOn ∨ t = relayTurningOff) {h : Hardware}
    (hj : Record.getRelayState h.eeprom p = t) : JournalSound p h := by
  constructor <;> intro he <;> rw [hj] at he <;> rcases ht with rfl | rfl <;> cases he

/-- リレーを動かす間は記録が遷移中であり、ラッチが落ち着いてから確定した値を書く。 -/
theorem driveRelay (hr : Recorded p h w) {t s : UInt8} {mode : Bool}
    (ht : t = relayTurningOn ∨ t = relayTurningOff)
    (hs : ∀ h' : Hardware, h'.latch p = mode → Record.getRelayState h'.eeprom p = s → JournalSound p h') :
    Recorded p h (Device.driveRelay env p t mode s w) := by
  -- 最初の書き込みの後
  have hp₁ : Trail (fun _ => True) w (delay env 10 (Record.setRelayState env p t w)) :=
    (still_write trivial).trail.trans (still_delay 10).trail
  generalize hw₁ : delay env 10 (Record.setRelayState env p t w) = w₁ at hp₁
  have hr₁ := hp₁.replayed hr.replayed
  have hj₁ : Record.getRelayState w₁.hw.eeprom p = t := by
    rw [← hw₁]
    exact Bytes.store_self _ _ _
  have ha₁ : Always (fun l => JournalSound p (replay h l)) w₁.log := by
    have hlog :
        w₁.log = ⟨w.now, .eeprom (Record.deviceRegion p + Record.portRelayJournal) t⟩ :: w.log := by
      rw [← hw₁]
      rfl
    rw [hr₁, hlog] at hj₁
    rw [hlog]
    exact always_cons.mpr ⟨sound_of_turning ht hj₁, hr.always⟩
  -- リレーを動かす間は、記録は書き換わらない
  have hp₂ : Trail (fun e => ∀ a v, e ≠ .eeprom a v) w₁ (setRelay env p mode w₁) :=
    (still_setRelay (by simp) (by simp) (by simp)).trail
  have hl₂ : (setRelay env p mode w₁).hw.latch p = mode := setRelay_latch_self p mode
  have hK : ∀ (x : Entry Event) (l : Log), (∀ a v, x.event ≠ .eeprom a v) →
      Record.getRelayState (replay h l).eeprom p = t → Record.getRelayState (replay h (x :: l)).eeprom p = t := by
    intro x l hx hj
    obtain ⟨τ, e⟩ := x
    cases e with
    | eeprom a v => exact absurd rfl (hx a v)
    | _ => exact hj
  have h₂ := hp₂.always hK (fun _ hj => sound_of_turning ht hj) (hr₁ ▸ hj₁) ha₁
  have hr₂ := hp₂.replayed hr₁
  generalize hw₂ : setRelay env p mode w₁ = w₂ at hl₂ h₂ hr₂
  have heq : Device.driveRelay env p t mode s w =
      delay env 10 (Record.setRelayState env p s (delay env 500 w₂)) := by
    rw [← hw₂, ← hw₁]
    rfl
  rw [heq]
  -- 確定した値を書くときには、ラッチは `mode` になっている
  refine ⟨?_, always_cons.mpr ⟨?_, h₂.2⟩⟩
  · have hp₃ :
        Trail (fun _ => True) w₂ (delay env 10 (Record.setRelayState env p s (delay env 500 w₂))) :=
      (still_delay 500).trail.trans ((still_write trivial).trail.trans (still_delay 10).trail)
    exact hp₃.replayed hr₂
  · have hhw : replay h (delay env 500 w₂).log = w₂.hw := hr₂.symm
    rw [replay_cons, hhw]
    exact hs _ hl₂ (Bytes.store_self _ _ _)

/-! ## 操作ごとの保存 -/

theorem powerDown (hr : Recorded p h w) : Recorded p h (Device.powerDown env p w) := by
  have hd : Recorded p h (Device.driveRelay env p relayTurningOff false relayOff w) := by
    refine hr.driveRelay (Or.inr rfl) fun h' hl hj => ⟨fun hon => ?_, fun _ => hl⟩
    rw [hj] at hon
    cases hon
  exact (hd.changeState .stopped).of_trail (((Trail.refl _).setRam _).mark id)

theorem powerUp (hr : Recorded p h w) : Recorded p h (Device.powerUp env p w) := by
  have hsel : Recorded p h (Device.selectMedia env p w) :=
    hr.of_trail (trail_selectMedia (fun _ => id) fun s _ => bootSelectorPin_ne_relayClk s p)
  have hrec : Recorded p h (Device.recordBoot env p (Device.selectMedia env p w)) := by
    refine hsel.of_trail (still_recordBoot fun o v ho hj => ?_).trail
    simp only [Event.MovesRelay, Record.portRelayJournal] at hj
    omega
  refine Recorded.changeState (hrec.driveRelay (Or.inl rfl) fun h' hl hj => ⟨fun _ => hl, fun hoff => ?_⟩) .started
  rw [hj] at hoff
  cases hoff

theorem enable (hr : Recorded p h w) : Recorded p h (Device.enable env p w) :=
  (hr.of_trail (still_setDeviceEnabled env p true w).trail).changeState .stopped

theorem prim (hs : Prim env p (Frame p) w w') (hr : Recorded p h w) : Recorded p h w' := by
  cases hs with
  | frame hf => exact hr.of_frame hf
  | tweak d _ => exact hr.of_setDev d
  | beat => exact hr.of_trail ((trail_setDev p _).mark id)
  | refuse _ _ => exact (hr.of_trail (still_setDeviceEnabled env p false w).trail).changeState .disabled
  | halt _ => exact hr.changeState .stopping
  | revive _ _ => exact hr.enable
  | off _ => exact hr.powerDown
  | on _ => exact hr.powerUp
  | fail _ =>
      refine hr.of_trail (still_put (fun b v h₁ h₂ hb => ?_) _).trail
      simp only [Event.MovesRelay, Record.portRelayJournal, Record.portBootFailures] at h₁ h₂ hb
      omega
  | media m => exact hr.of_trail (trail_setNextBootMedia id fun s _ => bootSelectorPin_ne_relayClk s p)

theorem step {o : Op} (hs : StepOn env p o w w') (hr : Recorded p h w) : Recorded p h w' :=
  hs.induct (fun _ _ hp hr => Recorded.prim hp hr) (fun _ hr => hr.enable)
    (fun _ _ _ _ hr => hr.changeState .started) hr

theorem booted (hi : Record.initialized h.eeprom = true) (hs : JournalSound p h) :
    Recorded p h (V4.booted env h) := by
  have h₀ : Recorded p h (powerOn h) := by
    refine ⟨rfl, fun l hl => ?_⟩
    rw [List.suffix_nil.mp hl]
    exact hs
  have hprep : Frame p (powerOn h) (prepare env (powerOn h)) := frame_prepare hi p
  have hdevs : Trail (fun e => ¬ e.MovesRelay p) (prepare env (powerOn h))
      (setupDevices env (prepare env (powerOn h))) := trail_setupDevices (fun _ _ => id) env _
  have ha : Recorded p h (armed env h) := ((h₀.of_frame hprep).of_trail hdevs).of_frame (frame_arm p _)
  rw [booted_eq]
  by_cases hp : p = 0
  · subst hp
    exact prim_start (fun _ _ hp hr => Recorded.prim hp.ofTick hr) ha
  · exact ha.of_frame (Frame.ofActs (Device.acts_start env _ 0) hp)

end Recorded

/-- どの起動のどの時点でも、リレーの記録はラッチの状態と食い違わない。 -/
theorem relay_journal_sound (p : Port) (h₀ h : Hardware) (hs : JournalSound p h₀) (hi : Instant h₀ h) :
    JournalSound p h := by
  induction hi with
  | initial => exact hs
  | reset pins _ ih => exact ⟨ih.on, ih.off⟩
  | boot env ops _ hinit hrun hl ih =>
      have hb : Recorded p _ (booted env _) := Recorded.booted hinit ih
      have hw := run_invariant_on (fun _ _ _ hstep hr => Recorded.step hstep hr) hrun hb
      exact hw.always _ hl

/-- 起動の途中、ポート 0 のラッチが入ってから `RELAY_ON` を書く前に電源が切れた時点。 -/
theorem relay_journal_sound_turning : ∃ h, Instant Hardware.ready h ∧
    Record.getRelayState h.eeprom 0 = relayTurningOn ∧ h.latch 0 = true ∧ JournalSound 0 h := by
  have hi :
      Instant Hardware.ready (replay Hardware.ready ((booted Env.ideal Hardware.ready).log.drop 2)) :=
    .boot Env.ideal [] .initial (by decide +kernel) rfl (List.drop_suffix 2 _)
  have h₀ : JournalSound 0 Hardware.ready := ⟨fun h => absurd h (by decide), fun _ => rfl⟩
  exact ⟨_, hi, by decide +kernel, by decide +kernel, relay_journal_sound 0 _ _ h₀ hi⟩

end Wagman.V4
