import Wagman.V4.Lemmas.Effects

/-!
# 機器の操作が起こす事象の範囲

`devices[i]` の操作は、ポート `i` の EEPROM の領域、ポート `i` のリレーのピン、媒体の選択ピンだけに書く。
操作ごとに範囲を定め、範囲の外の値が変わらないことを一度だけ示す。
-/

namespace Wagman.V4

open Machine

/-- 一つの機器の操作が起こしうる事象の範囲。`off` は EEPROM の領域の中の位置、`sel` は媒体の選択ピンの番号、
`on` はリレーを入れるかどうか、`force` は次の媒体を強制するかどうかである。 -/
structure Footprint where
  port : Port
  off : Nat → Prop
  off_lt : ∀ o, off o → o < 128
  sel : Nat → Prop
  on : Prop
  force : Prop

namespace Footprint

def Allows (F : Footprint) : Event → Prop
  | .eeprom a _ => ∃ o, F.off o ∧ a = Record.deviceRegion F.port + o
  | .pin k _ => k = relayClk F.port ∨ k = relayD F.port ∨ ∃ s : Fin 2, F.sel s ∧ k = bootSelectorPin s
  | .relay p mode => p = F.port ∧ (mode = true → F.on)
  | .state p _ => p = F.port
  | .heartbeat p => p = F.port
  | .media p _ => p = F.port ∧ F.force
  | .start p _ => p = F.port ∧ F.on
  | .killed p => p = F.port
  | _ => False

/-- リレーを切る操作。EEPROM にはリレーの状態だけを書く。 -/
def relay (i : Port) : Footprint where
  port := i
  off := (· = 38)
  off_lt := by simp
  sel := fun _ => False
  on := False
  force := False

/-- 電源の状態を変える操作。有効の印とリレーの状態だけを書く。 -/
def power (i : Port) : Footprint :=
  { relay i with off := fun o => o = 0 ∨ o = 38, off_lt := by omega }

/-- 電源の状態を変えるか、次の媒体を強制する操作。 -/
def switch (i : Port) (s : Nat) : Footprint :=
  { power i with sel := (· = s), force := True }

/-- 次の媒体を強制しない `update`。さらに起動の失敗の回数を書く。 -/
def watch (i : Port) : Footprint :=
  { power i with off := fun o => o = 0 ∨ (11 ≤ o ∧ o < 15) ∨ o = 38, off_lt := by omega }

/-- `update` の全体。 -/
def supervise (i : Port) (s : Nat) : Footprint :=
  { watch i with sel := (· = s), force := True }

/-- `start`。起動の回数、起動の記録、リレーの状態を書く。 -/
def boot (i : Port) (s : Nat) : Footprint where
  port := i
  off := fun o => (7 ≤ o ∧ o < 11) ∨ o = 38 ∨ (64 ≤ o ∧ o < 98)
  off_lt := by omega
  sel := (· = s)
  on := True
  force := False

variable {F G : Footprint}

/-- 範囲の包含。 -/
structure Le (F G : Footprint) : Prop where
  port : F.port = G.port
  off : ∀ o, F.off o → G.off o
  sel : ∀ s, F.sel s → G.sel s
  on : F.on → G.on
  force : F.force → G.force

theorem Le.trans {F₁ F₂ F₃ : Footprint} (h₁ : Le F₁ F₂) (h₂ : Le F₂ F₃) : Le F₁ F₃ where
  port := h₁.port.trans h₂.port
  off o ho := h₂.off o (h₁.off o ho)
  sel s hs := h₂.sel s (h₁.sel s hs)
  on h := h₂.on (h₁.on h)
  force h := h₂.force (h₁.force h)

theorem Le.allows (h : Le F G) (e : Event) (he : F.Allows e) : G.Allows e := by
  cases e with
  | eeprom a v =>
      obtain ⟨o, ho, ha⟩ := he
      exact ⟨o, h.off o ho, by rw [ha, h.port]⟩
  | pin k b =>
      rcases he with hk | hk | ⟨s, hs, hk⟩
      · exact Or.inl (by rw [hk, h.port])
      · exact Or.inr (Or.inl (by rw [hk, h.port]))
      · exact Or.inr (Or.inr ⟨s, h.sel s hs, hk⟩)
  | relay p mode => exact ⟨he.1.trans h.port, fun hm => h.on (he.2 hm)⟩
  | state p s => exact Eq.trans he h.port
  | heartbeat p => exact Eq.trans he h.port
  | media p m => exact ⟨he.1.trans h.port, h.force he.2⟩
  | start p m => exact ⟨he.1.trans h.port, h.on he.2⟩
  | killed p => exact Eq.trans he h.port
  | next p r => exact he.elim
  | resp id sub v => exact he.elim
  | respBytes id sub v => exact he.elim

theorem relay_le_power (i : Port) : Le (relay i) (power i) :=
  ⟨rfl, fun _ h => Or.inr h, fun _ h => h, id, id⟩

theorem power_le_switch (i : Port) (s : Nat) : Le (power i) (switch i s) :=
  ⟨rfl, fun _ h => h, fun _ h => h.elim, id, fun h => h.elim⟩

theorem power_le_watch (i : Port) : Le (power i) (watch i) :=
  ⟨rfl, fun _ h => h.imp_right Or.inr, fun _ h => h, id, id⟩

theorem watch_le_supervise (i : Port) (s : Nat) : Le (watch i) (supervise i s) :=
  ⟨rfl, fun _ h => h, fun _ h => h.elim, id, fun h => h.elim⟩

theorem switch_le_supervise (i : Port) (s : Nat) : Le (switch i s) (supervise i s) :=
  ⟨rfl, fun _ h => h.imp_right Or.inr, fun _ h => h, id, id⟩

/-! ## 範囲の外は変わらない -/

section Frame

variable {w w' : World} (h : Trail F.Allows w w')

include h

theorem word_eq {p : Port} {o : Nat} (ho : o + 4 ≤ 128)
    (hout : p ≠ F.port ∨ ∀ k, o ≤ k → k < o + 4 → ¬ F.off k) :
    Bytes.get w'.hw.eeprom (Record.deviceRegion p + o) 4 = Bytes.get w.hw.eeprom (Record.deviceRegion p + o) 4 := by
  refine trail_word h fun b v h₁ h₂ => ?_
  rintro ⟨k, hk, hb⟩
  obtain ⟨k', rfl⟩ := Nat.exists_eq_add_of_le (Nat.le_trans (Nat.le_add_right _ _) h₁)
  obtain ⟨hp, rfl⟩ := deviceRegion_add_inj (by omega) (F.off_lt k hk) hb
  rcases hout with hne | hno
  · exact hne hp
  · exact hno k' (by omega) (by omega) hk

theorem failures_eq {p : Port} (hout : p ≠ F.port ∨ ∀ k, 11 ≤ k → k < 15 → ¬ F.off k) :
    Record.getBootFailures w'.hw.eeprom p = Record.getBootFailures w.hw.eeprom p :=
  congrArg UInt32.ofNat (word_eq h (by simp) hout)

end Frame

end Footprint

end Wagman.V4
