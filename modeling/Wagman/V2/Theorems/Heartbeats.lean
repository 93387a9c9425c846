import Wagman.V2.Lemmas.Effects

/-!
# 心拍による起動の確認

`boot_NC` と `boot_GN` は、許された回数だけ心拍を調べ、心拍がなければ電源を入れ直す。一度心拍があっても繰り返しは終わらないので、その後の
検査に失敗すると、電源が入れ直され、確かめられないまま動いているとされる。
-/

namespace Wagman.V2

open Machine

variable {env : Env} {d : Device} {v w w' : World}

/-! ## 呼び出しの間の事象 -/

/-- `w` から `w'` までに起きた事象。起きた順である。 -/
def newEvents (w w' : World) : List Event :=
  ((w'.log.take (w'.log.length - w.log.length)).map Entry.event).reverse

/-- 機器 `d` の起動で、動いているとされるなら最後に電源を入れた後に心拍があり、心拍があった後は電源を入れ直さない。 -/
structure Confirmed (d : Device) (ok : Bool) (w w' : World) : Prop where
  beat : ok = true → ∃ before after, newEvents w w' = before ++ .heartbeat d true :: after ∧ .relay d true ∉ after
  uncycled : ∀ before after, newEvents w w' = before ++ .heartbeat d true :: after →
    ¬[.relay d false, .relay d true].Sublist after

/-- `w` から `w'` までに、事象 `es` がこの順に起きた。 -/
def Emits (w w' : World) (es : List Event) : Prop := w'.log.map Entry.event = es.reverse ++ w.log.map Entry.event

theorem newEvents_eq {es : List Event} (h : Emits w w' es) : newEvents w w' = es := by
  have hlen : w'.log.length = es.length + w.log.length := by
    simpa using congrArg List.length h
  have htake : (es.reverse ++ w.log.map Entry.event).take es.length = es.reverse := by
    rw [List.take_append_of_le_length (Nat.le_of_eq List.length_reverse.symm), List.take_of_length_le]
    rw [List.length_reverse]
  rw [newEvents, hlen, Nat.add_sub_cancel, List.map_take, h, htake, List.reverse_reverse]

namespace Emits

variable {es es' : List Event}

theorem trans (h₁ : Emits w v es) (h₂ : Emits v w' es') : Emits w w' (es ++ es') := by
  rw [Emits, h₂, h₁, List.reverse_append, List.append_assoc]

theorem of_trail {A : Event → Prop} (h : Trail A w w') : ∃ es, Emits w w' es ∧ ∀ e ∈ es, A e := by
  obtain ⟨new, hnew, -, hall⟩ := h.log
  refine ⟨(new.map Entry.event).reverse, by rw [Emits, hnew, List.map_append, List.reverse_reverse], fun e he => ?_⟩
  obtain ⟨x, hx, rfl⟩ := List.mem_map.mp (List.mem_reverse.mp he)
  exact (hall x hx).1

end Emits

/-! ## 検査の結果の並び -/

/-- 入出力が `io` 回済んだときに始めた心拍の検査の結果。 -/
def Env.beat (env : Env) (d : Device) (io : Nat) : Bool :=
  (env.heartbeat io d != env.heartbeat (io + 2) d) || (env.heartbeat (io + 4) d != env.heartbeat (io + 6) d)

/-- その検査が終わったときの、入出力の回数。 -/
def Env.afterBeat (env : Env) (d : Device) (io : Nat) : Nat :=
  if env.heartbeat io d != env.heartbeat (io + 2) d then io + 4 else io + 8

/-- 続けて `n` 回調べるときの結果。失敗のたびに、電源の入れ直しに四回の入出力をはさむ。 -/
def Env.beats (env : Env) (d : Device) : Nat → Nat → List Bool
  | 0, _ => []
  | n + 1, io => env.beat d io :: env.beats d n (env.afterBeat d io + if env.beat d io then 0 else 4)

/-- 一度成功すると、その後は失敗しない。 -/
def Lasting (results : List Bool) : Prop := results.Pairwise fun a b => a = true → b = true

instance (results : List Bool) : Decidable (Lasting results) := inferInstanceAs (Decidable (List.Pairwise _ _))

/-- 初めの検査に成功するか、許された残りの検査の結果が、一度成功すると失敗しない。 -/
def Steady (env : Env) (d : Device) (limit : UInt8) (io : Nat) : Prop :=
  env.beat d io = true ∨ Lasting (env.beats d (limit.toNat - 1) (env.afterBeat d io))

instance (limit : UInt8) (io : Nat) : Decidable (Steady env d limit io) := inferInstanceAs (Decidable (_ ∨ _))

/-- 検査の結果 `ok` に応じて起きる事象。失敗すれば電源を入れ直す。 -/
def script (d : Device) (ok : Bool) : List Event :=
  if ok then [.heartbeat d true] else [.heartbeat d false, .relay d false, .relay d true]

theorem checkHeartbeatOdroid_spec (env : Env) (d : Device) (w : World) :
    (checkHeartbeatOdroid env d w).1 = env.beat d w.io ∧
      (checkHeartbeatOdroid env d w).2.io = env.afterBeat d w.io ∧
      Emits w (checkHeartbeatOdroid env d w).2 [.heartbeat d (env.beat d w.io)] := by
  have hfirst : (sampleHeartbeat env d w).1 = (env.heartbeat w.io d != env.heartbeat (w.io + 2) d) := rfl
  have hsecond : (sampleHeartbeat env d (delay env 2 (sampleHeartbeat env d w).2)).1 =
      (env.heartbeat (w.io + 4) d != env.heartbeat (w.io + 6) d) := rfl
  rw [Env.beat, Env.afterBeat, ← hfirst, ← hsecond]
  cases h : (sampleHeartbeat env d w).1 with
  | true =>
      simp only [checkHeartbeatOdroid, h, if_true, Bool.true_or]
      exact ⟨trivial, rfl, rfl⟩
  | false =>
      simp only [checkHeartbeatOdroid, h, Bool.false_eq_true, if_false, Bool.false_or]
      exact ⟨trivial, rfl, rfl⟩

/-- 電源を入れてから次に調べるまで、待つだけの操作。 -/
structure Pauses (boot : World → World) : Prop where
  log : ∀ v, (boot v).log = v.log
  io : ∀ v, (boot v).io = v.io + 1

theorem pauses_waitNC : Pauses (waitNC env) := ⟨fun _ => rfl, fun _ => rfl⟩

theorem pauses_waitGN (g : GN) : Pauses (waitGN env g) := ⟨fun _ => rfl, fun _ => rfl⟩

theorem retryHeartbeat_spec {boot : World → World} (hb : Pauses boot) (n : Nat) (detected : Bool) (w : World) :
    (retryHeartbeat env d boot n detected w).1 = (detected || (env.beats d n w.io).any id) ∧
      Emits w (retryHeartbeat env d boot n detected w).2 ((env.beats d n w.io).flatMap (script d)) := by
  induction n generalizing detected w with
  | zero => exact ⟨(Bool.or_false _).symm, rfl⟩
  | succ n ih =>
      obtain ⟨hok, hio, hemits⟩ := checkHeartbeatOdroid_spec env d w
      cases h : env.beat d w.io with
      | true =>
          obtain ⟨hrest, hlog⟩ := ih true (checkHeartbeatOdroid env d w).2
          rw [hio] at hrest hlog
          rw [h] at hok hemits
          simp only [retryHeartbeat, hok, Env.beats, h, if_true, Nat.add_zero, List.any_cons, List.flatMap_cons]
          exact ⟨by rw [hrest]; simp, hemits.trans hlog⟩
      | false =>
          have hcycle : Emits (checkHeartbeatOdroid env d w).2
              (boot (powerCycle env d (checkHeartbeatOdroid env d w).2)) [.relay d false, .relay d true] := by
            rw [Emits, hb.log]
            rfl
          obtain ⟨hrest, hlog⟩ := ih detected (boot (powerCycle env d (checkHeartbeatOdroid env d w).2))
          have hio' : (boot (powerCycle env d (checkHeartbeatOdroid env d w).2)).io = env.afterBeat d w.io + 4 := by
            rw [hb.io, ← hio]
            rfl
          rw [hio'] at hrest hlog
          rw [h] at hok hemits
          simp only [retryHeartbeat, hok, Env.beats, h, Bool.false_eq_true, if_false, List.any_cons, List.flatMap_cons]
          exact ⟨by rw [hrest]; simp, (hemits.trans hcycle).trans hlog⟩

/-! ## 結果の並びと、起きた事象 -/

section Results

variable {results : List Bool}

theorem exists_of_not_lasting (h : ¬Lasting results) :
    ∃ l₁ l₂ l₃, results = l₁ ++ true :: (l₂ ++ false :: l₃) := by
  induction results with
  | nil => exact absurd List.Pairwise.nil h
  | cons a results ih =>
      by_cases hrest : Lasting results
      · have hfail : ∃ b ∈ results, ¬(a = true → b = true) := by
          by_contra hall
          simp only [not_exists, not_and, not_not] at hall
          exact h (List.pairwise_cons.mpr ⟨hall, hrest⟩)
        obtain ⟨b, hb, hab⟩ := hfail
        obtain ⟨rfl, hfalse⟩ := Classical.not_imp.mp hab
        obtain ⟨l₂, l₃, rfl⟩ := List.append_of_mem hb
        exact ⟨[], l₂, l₃, by rw [Bool.eq_false_of_not_eq_true hfalse]; rfl⟩
      · obtain ⟨l₁, l₂, l₃, rfl⟩ := ih hrest
        exact ⟨a :: l₁, l₂, l₃, rfl⟩

/-- 失敗が続いた後は、成功だけが続く。 -/
theorem Lasting.eq (h : Lasting results) : ∃ k m, results = List.replicate k false ++ List.replicate m true := by
  induction results with
  | nil => exact ⟨0, 0, rfl⟩
  | cons a results ih =>
      obtain ⟨hall, hrest⟩ := List.pairwise_cons.mp h
      cases a with
      | false =>
          obtain ⟨k, m, rfl⟩ := ih hrest
          exact ⟨k + 1, m, rfl⟩
      | true => exact ⟨0, results.length + 1, congrArg _ (List.eq_replicate_length.mpr fun b hb => hall b hb rfl)⟩

theorem not_mem_script_false (k : Nat) : .heartbeat d true ∉ (List.replicate k false).flatMap (script d) := by
  intro hmem
  obtain ⟨b, hb, he⟩ := List.mem_flatMap.mp hmem
  rw [List.eq_of_mem_replicate hb] at he
  simp [script] at he

theorem flatMap_script_true (m : Nat) :
    (List.replicate m true).flatMap (script d) = List.replicate m (.heartbeat d true) := by
  induction m with
  | zero => rfl
  | succ m ih => rw [List.replicate_succ, List.flatMap_cons, ih, List.replicate_succ]; rfl

end Results

/-- `x` が初めて現れる所より後は、`x` の現れるどの所より後も含む。 -/
theorem suffix_of_append_cons_eq {α : Type} {x : α} {l l' r r' : List α} (hx : x ∉ l)
    (h : l ++ x :: r = l' ++ x :: r') : r' <:+ r := by
  rcases List.append_eq_append_iff.mp h with ⟨c, rfl, hc⟩ | ⟨c, rfl, hc⟩
  · cases c with
    | nil => exact (List.cons.inj hc).2 ▸ List.suffix_refl _
    | cons y c =>
        rw [(List.cons.inj hc).2]
        exact (List.suffix_cons _ _).trans (List.suffix_append _ _)
  · cases c with
    | nil => exact (List.cons.inj hc).2 ▸ List.suffix_refl _
    | cons y c => exact absurd (by rw [(List.cons.inj hc).1]; simp) hx

section Call

variable {ok : Bool} {es es' : List Event}

/-- 初めの心拍より後に電源を入れていない。 -/
theorem confirmed_of_split (h : newEvents w w' = es ++ .heartbeat d true :: es') (hes : .heartbeat d true ∉ es)
    (hes' : .relay d true ∉ es') : Confirmed d ok w w' where
  beat _ := ⟨es, es', h, hes'⟩
  uncycled before after hsplit hcycle := by
    have hsuffix : after <:+ es' := suffix_of_append_cons_eq hes (h.symm.trans hsplit)
    exact hes' (hsuffix.subset (hcycle.subset (by simp)))

theorem confirmed_of_not_mem (h : .heartbeat d true ∉ newEvents w w') : Confirmed d false w w' where
  beat := nofun
  uncycled before after hsplit _ := h (by rw [hsplit]; simp)

/-- 検査の結果が、一度成功すると失敗しないとき、成功があれば、それで確かめられている。 -/
theorem confirmed_of_lasting {results : List Bool} (h : newEvents w w' = es ++ (results.flatMap (script d) ++ es'))
    (hes : .heartbeat d true ∉ es) (hes' : .heartbeat d true ∉ es' ∧ .relay d true ∉ es') (hr : Lasting results) :
    Confirmed d (results.any id) w w' := by
  obtain ⟨k, m, rfl⟩ := hr.eq
  have hfail : .heartbeat d true ∉ es ++ (List.replicate k false).flatMap (script d) := fun hmem =>
    (List.mem_append.mp hmem).elim hes (not_mem_script_false k)
  rw [List.flatMap_append, flatMap_script_true] at h
  cases m with
  | zero =>
      have hnone : (List.replicate k false ++ List.replicate 0 true).any id = false := by simp
      rw [hnone]
      refine confirmed_of_not_mem fun hmem => ?_
      rw [h, List.replicate_zero, List.append_nil, ← List.append_assoc] at hmem
      exact (List.mem_append.mp hmem).elim hfail hes'.1
  | succ m =>
      rw [List.replicate_succ, List.append_assoc, List.cons_append, ← List.append_assoc] at h
      refine confirmed_of_split h hfail fun hmem => ?_
      rcases List.mem_append.mp hmem with hbeats | hpost
      · exact nomatch List.eq_of_mem_replicate hbeats
      · exact hes'.2 hpost

/-- 心拍があった後で検査に失敗すると、電源を入れ直す。 -/
theorem not_confirmed_of_not_lasting {results : List Bool}
    (h : newEvents w w' = es ++ (results.flatMap (script d) ++ es')) (hr : ¬Lasting results) :
    ¬Confirmed d ok w w' := by
  intro hc
  obtain ⟨l₁, l₂, l₃, rfl⟩ := exists_of_not_lasting hr
  refine hc.uncycled (es ++ l₁.flatMap (script d))
    (l₂.flatMap (script d) ++ (.heartbeat d false :: .relay d false :: .relay d true :: l₃.flatMap (script d)) ++ es')
    ?_ ?_
  · rw [h]
    simp [List.flatMap_append, script]
  · rw [List.append_assoc, List.cons_append, List.cons_append, List.cons_append]
    exact List.Sublist.trans (.cons _ (.cons_cons _ (.cons_cons _ (List.nil_sublist _))))
      (List.sublist_append_right _ _)

/-- 心拍を待つ間に起きることによって、起動の確かさが決まる。 -/
theorem confirmed_await_iff {boot : World → World} (hb : Pauses boot) (h : Emits w v es)
    (hes : .heartbeat d true ∉ es) (h' : Emits (awaitHeartbeat env d boot v).2 w' es')
    (hes' : .heartbeat d true ∉ es' ∧ .relay d true ∉ es') :
    Confirmed d (awaitHeartbeat env d boot v).1 w w' ↔
      Steady env d (readByte .maxNumSubsystemBootAttempts v) v.io := by
  obtain ⟨hok, hio, hemits⟩ := checkHeartbeatOdroid_spec env d v
  cases hfirst : env.beat d v.io with
  | true =>
      rw [hfirst] at hok hemits
      simp only [awaitHeartbeat, hok, if_true] at h' ⊢
      have hnew := newEvents_eq ((h.trans hemits).trans h')
      rw [List.append_assoc] at hnew
      exact iff_of_true (confirmed_of_split hnew hes hes'.2) (.inl hfirst)
  | false =>
      have hbyte : readByte .maxNumSubsystemBootAttempts (checkHeartbeatOdroid env d v).2 =
          readByte .maxNumSubsystemBootAttempts v := by
        rw [readByte, readByte, hw_of_passive (passive_checkHeartbeatOdroid d).trail]
      rw [hfirst] at hok hemits
      simp only [awaitHeartbeat, hok, Bool.false_eq_true, if_false, hbyte, Steady, hfirst, false_or] at h' ⊢
      have hspec : (retryHeartbeat env d boot ((readByte .maxNumSubsystemBootAttempts v).toNat - 1) false
            (checkHeartbeatOdroid env d v).2).1 = _ ∧ Emits _ _ _ :=
        retryHeartbeat_spec hb ((readByte .maxNumSubsystemBootAttempts v).toNat - 1) false
          (checkHeartbeatOdroid env d v).2
      rw [hio] at hspec
      obtain ⟨hany, hretry⟩ := hspec
      have hnew := newEvents_eq ((h.trans (hemits.trans hretry)).trans h')
      generalize env.beats d ((readByte .maxNumSubsystemBootAttempts v).toNat - 1) (env.afterBeat d v.io) = results
        at hany hnew ⊢
      rw [hany, Bool.false_or]
      rw [List.append_assoc, List.append_assoc, ← List.append_assoc es] at hnew
      by_cases hr : Lasting results
      · refine iff_of_true (confirmed_of_lasting hnew ?_ hes' hr) hr
        simp [hes]
      · exact iff_of_false (not_confirmed_of_not_lasting hnew hr) hr

end Call

/-! ## 心拍の検査の前と後 -/

/-- 心拍の検査の前に起きる事象。EEPROM を変えない。 -/
def Event.Powering : Event → Prop
  | .relay _ _ | .problem _ | .print _ => True
  | _ => False

/-- 心拍の検査の後に起きる事象。電源を入れない。 -/
def Event.Closing : Event → Prop
  | .relay _ on => on = false
  | .byte _ _ | .problem _ | .print _ => True
  | _ => False

theorem Event.Text.powering {e : Event} (h : e.Text) : e.Powering := by
  cases e with
  | problem text => exact trivial
  | print text => exact trivial
  | _ => exact h.elim

theorem Event.Text.closing {e : Event} (h : e.Text) : e.Closing := by
  cases e with
  | problem text => exact trivial
  | print text => exact trivial
  | _ => exact h.elim

theorem eeprom_of_powering (h : Trail Event.Powering w w') : w'.hw.eeprom = w.hw.eeprom := by
  refine h.hw_induct (P := fun s => s.eeprom = w.hw.eeprom) ?_ rfl
  intro e s he hs
  cases e with
  | relay d on => exact hs
  | problem text => exact hs
  | print text => exact hs
  | _ => exact he.elim

theorem powering_say (debug : Bool) (text : String) : Trail Event.Powering w (say debug text w) :=
  (text_say debug text).trail.mono fun _ => Event.Text.powering

theorem powering_digitalWrite (on : Bool) : Trail Event.Powering w (digitalWrite env d on w) :=
  (Trail.refl w).emit _ trivial

theorem powering_restDevice : Trail Event.Powering w (restDevice env d w) :=
  (((Trail.refl w).setRam _).emit _ trivial).elapse _ _

theorem powering_confirmPower {check : World → Bool × World} {boot : World → World}
    (hcheck : ∀ w, Trail Event.Powering w (check w).2) (hboot : ∀ w, Trail Event.Powering w (boot w)) :
    Trail Event.Powering w (confirmPower env d check boot w).2 := by
  unfold confirmPower twice
  simp only
  split
  · exact hcheck w
  · have hcycle : Trail Event.Powering (check w).2 (powerCycle env d (check w).2) :=
      (((powering_digitalWrite false).elapse _ _).emit _ trivial)
    exact (hcheck w).trans (hcycle.trans ((hboot _).trans (hcheck _)))

/-! ## 電源を入れるまで -/

/-- `boot_NC` のうち、心拍を調べる前まで。 -/
def poweredNC (env : Env) (debug : Bool) (whichType : BootType) (w : World) : Bool × World :=
  let w := if whichType = .reBoot then shutDownNC env debug w else w
  let r := admitNC env debug w
  if r.1 = false then r
  else
    let r := configureNC env debug r.2
    if r.1 = false then r else confirmPower env .nc (checkPowerNC env) (waitNC env) (say debug "BNC7" r.2)

/-- `boot_GN` のうち、心拍を調べる前まで。 -/
def poweredGN (env : Env) (g : GN) (w : World) : Bool × World :=
  let w := restDevice env (.gn g) w
  if readByte (.gnEnabled g) w = 0 ∨ readByte (.presentGN g) w = 0 then (false, w)
  else
    let r := twice (checkTempGN env g) (delay env 5000) w
    if r.1 = false then r
    else confirmPower env (.gn g) (checkPowerGN env g) (waitGN env g)
      (waitGN env g (digitalWrite env (.gn g) true r.2))

theorem powering_poweredNC (debug : Bool) (whichType : BootType) (w : World) :
    Trail Event.Powering w (poweredNC env debug whichType w).2 := by
  have hallowed : ∀ v : World, Trail Event.Powering v (admitNC env debug v).2 := fun v =>
    (text_admitNC debug).trail.mono fun _ => Event.Text.powering
  have hdown : Trail Event.Powering w (if whichType = .reBoot then shutDownNC env debug w else w) := by
    split
    · have hquery : Trail Event.Powering w (println "?" (say debug "BNC1" w)) :=
        (powering_say debug _).mark trivial
      exact (((hquery.elapse _ _).emit _ trivial).elapse _ _).setRam _
    · exact Trail.refl w
  have hconfig : ∀ v : World, Trail Event.Powering v (configureNC env debug v).2 := fun v =>
    ((powering_say debug _).trans (((powering_digitalWrite true).elapse _ _))).trans (powering_say debug _)
  simp only [poweredNC]
  generalize (if whichType = .reBoot then shutDownNC env debug w else w) = v at hdown
  split
  · exact hdown.trans (hallowed _)
  · split
    · exact hdown.trans ((hallowed _).trans (hconfig _))
    · exact hdown.trans ((hallowed _).trans ((hconfig _).trans ((powering_say debug _).trans
        (powering_confirmPower (fun _ => (still_checkPower _ _).trail) fun _ => (still_delay _).trail))))

theorem powering_poweredGN (g : GN) (w : World) : Trail Event.Powering w (poweredGN env g w).2 := by
  have htemp : ∀ v : World, Trail Event.Powering v (twice (checkTempGN env g) (delay env 5000) v).2 := fun _ =>
    (still_twice (fun _ => still_checkTemp _ _ _) fun _ => still_delay 5000).trail
  simp only [poweredGN]
  split
  · exact powering_restDevice
  · split
    · exact powering_restDevice.trans (htemp _)
    · exact powering_restDevice.trans ((htemp _).trans (((powering_digitalWrite true).elapse _ _).trans
        (powering_confirmPower (fun _ => (still_checkPower _ _).trail) fun _ => (still_delay _).trail)))

theorem closing_say (debug : Bool) (text : String) : Trail Event.Closing w (say debug text w) :=
  (text_say debug text).trail.mono fun _ => Event.Text.closing

theorem closing_sendProblem (text : String) (h : Trail Event.Closing v w) :
    Trail Event.Closing v (sendProblem env text w) :=
  h.trans ((text_sendProblem text).trail.mono fun _ => Event.Text.closing)

theorem closing_digitalWrite : Trail Event.Closing w (digitalWrite env d false w) := by
  have he : Event.Closing (.relay d false) := rfl
  exact (Trail.refl w).emit _ he

/-- 起動が、心拍を待つ `await` の前の `powered` と、電源を入れない後の部分とに分かれる。 -/
structure Awaits (powered : Bool × World) (await : World → Bool × World) (boot : Bool × World) : Prop where
  failed : powered.1 = false → boot.1 = false ∧ Trail Event.Closing powered.2 boot.2
  reached : powered.1 = true → boot.1 = (await powered.2).1 ∧ Trail Event.Closing (await powered.2).2 boot.2

theorem awaits_bootNC (debug : Bool) (whichType : BootType) (w : World) :
    Awaits (poweredNC env debug whichType w) (fun v => awaitHeartbeat env .nc (waitNC env) (say debug "BNC8" v))
      (bootNC env debug whichType w) := by
  simp only [poweredNC, bootNC]
  generalize (if whichType = .reBoot then shutDownNC env debug w else w) = v
  cases hallowed : (admitNC env debug v).1 with
  | false =>
      simp only [if_true]
      exact ⟨fun _ => ⟨hallowed, Trail.refl _⟩, fun h => absurd (hallowed.symm.trans h) Bool.false_ne_true⟩
  | true =>
      simp only [Bool.true_eq_false, if_false]
      generalize (admitNC env debug v).2 = v
      cases hconfig : (configureNC env debug v).1 with
      | false =>
          simp only [if_true]
          exact ⟨fun _ => ⟨hconfig, Trail.refl _⟩, fun h => absurd (hconfig.symm.trans h) Bool.false_ne_true⟩
      | true =>
          simp only [Bool.true_eq_false, if_false]
          generalize confirmPower env .nc (checkPowerNC env) (waitNC env)
            (say debug "BNC7" (configureNC env debug v).2) = r
          refine ⟨fun h => ?_, fun h => ?_⟩
          · rw [if_pos h]
            exact ⟨rfl, closing_digitalWrite.emit _ trivial⟩
          · rw [if_neg (by simp [h])]
            split
            · exact ⟨Eq.symm ‹_›, closing_digitalWrite⟩
            · exact ⟨(Bool.eq_true_of_not_eq_false ‹_›).symm, (closing_say debug _).setRam _⟩

theorem awaits_bootGN (g : GN) (w : World) :
    Awaits (poweredGN env g w) (awaitHeartbeat env (.gn g) (waitGN env g)) (bootGN env g w) := by
  simp only [poweredGN, bootGN]
  generalize restDevice env (.gn g) w = v
  split
  · exact ⟨fun _ => ⟨rfl, Trail.refl _⟩, fun h => absurd h Bool.false_ne_true⟩
  · cases htemp : (twice (checkTempGN env g) (delay env 5000) v).1 with
    | false =>
        simp only [if_true]
        exact ⟨fun _ => ⟨rfl, closing_sendProblem _ (Trail.refl _)⟩,
          fun h => absurd (htemp.symm.trans h) Bool.false_ne_true⟩
    | true =>
        simp only [Bool.true_eq_false, if_false]
        generalize confirmPower env (.gn g) (checkPowerGN env g) (waitGN env g) _ = r
        refine ⟨fun h => ?_, fun h => ?_⟩
        · rw [if_pos h]
          exact ⟨rfl, (closing_sendProblem _ closing_digitalWrite).emit _ trivial⟩
        · rw [if_neg (by simp [h])]
          split
          · exact ⟨Eq.symm ‹_›, closing_sendProblem _ closing_digitalWrite⟩
          · exact ⟨(Bool.eq_true_of_not_eq_false ‹_›).symm, (Trail.refl _).setRam _⟩

/-- 起動の確かさは、心拍を調べることに届いた後の、検査の結果の並びで決まる。 -/
theorem Awaits.confirmed_iff {powered r : Bool × World} {boot : World → World} {settle : World → World}
    (h : Awaits powered (fun v => awaitHeartbeat env d boot (settle v)) r) (hb : Pauses boot)
    (hp : Trail Event.Powering w powered.2) (hs : ∀ v, Still Event.Text v (settle v))
    (hio : ∀ v, (settle v).io = v.io) :
    Confirmed d r.1 w r.2 ↔
      (powered.1 = true → Steady env d (readByte .maxNumSubsystemBootAttempts w) powered.2.io) := by
  have hquiet : ∀ {es : List Event}, (∀ e ∈ es, e.Powering) → .heartbeat d true ∉ es := fun hes hmem => hes _ hmem
  have hclosed : ∀ {es : List Event}, (∀ e ∈ es, e.Closing) → .heartbeat d true ∉ es ∧ .relay d true ∉ es :=
    fun hes => ⟨fun hmem => hes _ hmem, fun hmem => nomatch hes _ hmem⟩
  cases hok : powered.1 with
  | false =>
      obtain ⟨hfail, hpost⟩ := h.failed hok
      obtain ⟨es, hes, hpre⟩ := Emits.of_trail hp
      obtain ⟨es', hes', hclose⟩ := Emits.of_trail hpost
      refine iff_of_true ?_ nofun
      rw [hfail]
      refine confirmed_of_not_mem ?_
      rw [newEvents_eq (hes.trans hes'), List.mem_append]
      exact not_or.mpr ⟨hquiet hpre, (hclosed hclose).1⟩
  | true =>
      obtain ⟨hr, hpost⟩ := h.reached hok
      have hready : Trail Event.Powering w (settle powered.2) :=
        hp.trans ((hs _).trail.mono fun _ => Event.Text.powering)
      obtain ⟨es, hes, hpre⟩ := Emits.of_trail hready
      obtain ⟨es', hes', hclose⟩ := Emits.of_trail hpost
      have hbyte : readByte .maxNumSubsystemBootAttempts (settle powered.2) =
          readByte .maxNumSubsystemBootAttempts w := by
        rw [readByte, readByte, eeprom_of_powering hready]
      rw [hr, confirmed_await_iff hb hes (hquiet hpre) hes' (hclosed hclose), hbyte, hio]
      exact ⟨fun hsteady _ => hsteady, fun hsteady => hsteady rfl⟩

/-- 心拍を調べることに届かないか、心拍がずっと続くとき、そのときに限り、起動は心拍で確かめられている。 -/
theorem heartbeat_confirmed_iff (env : Env) (w : World) :
    (∀ debug whichType,
      Confirmed .nc (bootNC env debug whichType w).1 w (bootNC env debug whichType w).2 ↔
        ((poweredNC env debug whichType w).1 = true → Steady env .nc
          (readByte .maxNumSubsystemBootAttempts w) (poweredNC env debug whichType w).2.io)) ∧
      ∀ g, Confirmed (.gn g) ((bootGN env g w).2.ram.running (.gn g)) w (bootGN env g w).2 ↔
        ((poweredGN env g w).1 = true → Steady env (.gn g)
          (readByte .maxNumSubsystemBootAttempts w) (poweredGN env g w).2.io) := by
  refine ⟨fun debug whichType => ?_, fun g => ?_⟩
  · refine (awaits_bootNC debug whichType w).confirmed_iff pauses_waitNC (powering_poweredNC debug whichType w)
      (fun _ => text_say debug "BNC8") fun v => ?_
    unfold say
    split
    · rfl
    · rfl
  · rw [(finishes_bootGN g).running]
    exact (awaits_bootGN g w).confirmed_iff (pauses_waitGN g) (powering_poweredGN g w) (fun v => Still.refl v)
      fun _ => rfl

/-- 四つの検査のうち、一つ目だけが成功する環境。 -/
def Env.fleeting : Env := { Env.ideal with heartbeat := fun n _ => n == 16 }

/-- 最後に電源を入れてから心拍がないのに、`boot_NC` は成功する。 -/
theorem boot_not_confirmed :
    (bootNC Env.fleeting true .powerOnBoot (powerOn Eeprom.ready)).1 = true ∧
    ¬Confirmed .nc (bootNC Env.fleeting true .powerOnBoot (powerOn Eeprom.ready)).1 (powerOn Eeprom.ready)
      (bootNC Env.fleeting true .powerOnBoot (powerOn Eeprom.ready)).2 := by
  refine ⟨by decide +kernel, fun h => ?_⟩
  have hsplit : newEvents (powerOn Eeprom.ready) (bootNC Env.fleeting true .powerOnBoot (powerOn Eeprom.ready)).2 =
      (["BNC2", "BNC3", "BNC4", "BNC5"].map Event.print ++ [.relay .nc true] ++
        ["BNC6", "BNC7", "BNC8"].map Event.print ++ [.heartbeat .nc false]) ++ .heartbeat .nc true ::
      ((List.replicate 3 [.heartbeat .nc false, .relay .nc false, .relay .nc true]).flatten ++ [.print "BNC9"]) := by
    decide +kernel
  exact h.uncycled _ _ hsplit (by decide)

end Wagman.V2
