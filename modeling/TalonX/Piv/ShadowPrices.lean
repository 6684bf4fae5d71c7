import TalonX.Core.PyFloatOrder
import TalonX.Piv.ShadowRows

/-!
# One bar on an open shadow trade

- `LawfulBar`, `LevelsMeet`: the levels of a trade meet the prices of a bar;
- `Tracked`, `Fair`: the excursions of an open trade, and levels that agree with them;
- `exitAt_spec`: the price of an exit; `advance_sound`: the record after the bar.
-/

set_option autoImplicit false

namespace TalonX.Piv.Shadow

open Clock Transact
open TalonX.Core (PyFloat)

/-! ## Levels and prices -/

theorem pyMax_spec {a b : PyFloat} (ha : a.le a = true) (hb : b.le b = true) :
    a.le (pyMax a b) = true ∧ b.le (pyMax a b) = true := by
  unfold pyMax
  split
  · next h => exact ⟨PyFloat.le_of_lt_true h, hb⟩
  · next h => exact ⟨ha, PyFloat.le_of_not_lt ha hb (Bool.not_eq_true _ ▸ h)⟩

theorem pyMin_spec {a b : PyFloat} (ha : a.le a = true) (hb : b.le b = true) :
    (pyMin a b).le a = true ∧ (pyMin a b).le b = true := by
  unfold pyMin
  split
  · next h => exact ⟨PyFloat.le_of_lt_true h, hb⟩
  · next h => exact ⟨ha, PyFloat.le_of_not_lt hb ha (Bool.not_eq_true _ ▸ h)⟩

/-- The range of a bar holds its open and its close. -/
structure LawfulBar (b : Bar) : Prop where
  low_open : b.low.le b.openPrice = true
  open_high : b.openPrice.le b.high = true
  low_close : b.low.le b.close = true
  close_high : b.close.le b.high = true

theorem LawfulBar.low_high {b : Bar} (hb : LawfulBar b) : b.low.le b.high = true :=
  PyFloat.le_chain hb.low_open hb.open_high

/-- A stop that a bar reaches from above is at most `top`; else a target that it reaches is at least `bottom`. -/
structure LevelsMeet (p : ShadowPosition) (b : Bar) (bottom top : PyFloat) : Prop where
  stop : ∀ stop target, p.stopPrice = some stop → p.targetPrice = some target → b.low.le stop = true →
    stop.le top = true
  target : ∀ stop target, p.stopPrice = some stop → p.targetPrice = some target → b.low.le stop = false →
    target.le b.high = true → bottom.le target = true

/-- The entry is not outside the levels. -/
def LevelsAround (p : ShadowPosition) (entry : PyFloat) : Prop :=
  ∀ stop target, p.stopPrice = some stop → p.targetPrice = some target → entry.lt stop = false ∧ target.lt entry = false

theorem checkBarForExit_bullish {stop target high low : PyFloat} :
    checkBarForExit .bullish stop target high low .stopFirst =
      if low.le stop then some .stop else if target.le high then some .target else none := by
  unfold checkBarForExit
  cases low.le stop <;> cases target.le high <;> rfl

/-- Either one of the levels is unknown, or they are compared with the range of the bar. -/
theorem levelHit_eq (p : ShadowPosition) (b : Bar) :
    (p.levelHit b = none ∧ (p.stopPrice = none ∨ p.targetPrice = none)) ∨
      ∃ stop target, p.stopPrice = some stop ∧ p.targetPrice = some target ∧
        p.levelHit b = if b.low.le stop then some (.stop, stop)
          else if target.le b.high then some (.target, target) else none := by
  unfold ShadowPosition.levelHit
  cases hs : p.stopPrice with
  | none => exact .inl ⟨rfl, .inl rfl⟩
  | some stop =>
    cases ht : p.targetPrice with
    | none => exact .inl ⟨rfl, .inr rfl⟩
    | some target =>
      refine .inr ⟨stop, target, rfl, rfl, ?_⟩
      dsimp only
      rw [checkBarForExit_bullish]
      split
      · rfl
      · split <;> rfl

/-- A bar that reaches no level, and an entry inside its range. -/
theorem levelsAround_of_levelHit {p : ShadowPosition} {b : Bar} {entry : PyFloat} (hlow : b.low.le entry = true)
    (hhigh : entry.le b.high = true) (h : p.levelHit b = none) : LevelsAround p entry := by
  intro stop target hs ht
  rcases levelHit_eq p b with ⟨-, hn | hn⟩ | ⟨stop', target', hs', ht', he⟩
  · rw [hs] at hn
    cases hn
  · rw [ht] at hn
    cases hn
  · obtain rfl := Option.some.inj (hs.symm.trans hs')
    obtain rfl := Option.some.inj (ht.symm.trans ht')
    rw [he] at h
    constructor
    · rw [Bool.eq_false_iff]
      intro hlt
      rw [if_pos (PyFloat.le_chain hlow (PyFloat.le_of_lt_true hlt))] at h
      cases h
    · rw [Bool.eq_false_iff]
      intro hlt
      rw [if_pos (PyFloat.le_chain (PyFloat.le_of_lt_true hlt) hhigh)] at h
      split at h <;> cases h

/-! ## One bar on an open trade -/

/-- A trade between its excursions. -/
structure Tracked (p : ShadowPosition) (entry mae mfe : PyFloat) : Prop where
  entry_eq : p.simulatedEntryPriceRaw = some entry
  mae_eq : p.maePrice = some mae
  mfe_eq : p.mfePrice = some mfe
  mae_entry : mae.le entry = true
  entry_mfe : entry.le mfe = true

/-- A level at which the bar ends the trade is in the range of the bar, and on its side of the entry. -/
structure Fair (p : ShadowPosition) (b : Bar) (entry : PyFloat) : Prop where
  stop : ∀ stop target, p.stopPrice = some stop → p.targetPrice = some target → b.low.le stop = true →
    stop.le b.high = true ∧ stop.le entry = true
  target : ∀ stop target, p.stopPrice = some stop → p.targetPrice = some target → b.low.le stop = false →
    target.le b.high = true → b.low.le target = true ∧ entry.le target = true

/-- On the bar of the fill. -/
theorem LevelsMeet.fair_fill {p : ShadowPosition} {b : Bar} (h : LevelsMeet p b b.openPrice b.openPrice)
    (hb : LawfulBar b) : Fair p b b.openPrice where
  stop stop target hs ht hlow :=
    ⟨PyFloat.le_chain (h.stop stop target hs ht hlow) hb.open_high, h.stop stop target hs ht hlow⟩
  target stop target hs ht hlow hhigh :=
    ⟨PyFloat.le_chain hb.low_open (h.target stop target hs ht hlow hhigh), h.target stop target hs ht hlow hhigh⟩

/-- On a bar after it. -/
theorem LevelsMeet.fair_open {p : ShadowPosition} {b : Bar} {entry mae mfe : PyFloat}
    (h : LevelsMeet p b b.low b.high) (ht : Tracked p entry mae mfe) (ha : LevelsAround p entry) : Fair p b entry where
  stop stop target hs htarget hlow :=
    ⟨h.stop stop target hs htarget hlow,
      PyFloat.le_of_not_lt (PyFloat.le_self_right ht.mae_entry) (PyFloat.le_self_right hlow) (ha stop target hs htarget).1⟩
  target stop target hs htarget hlow hhigh :=
    ⟨h.target stop target hs htarget hlow hhigh,
      PyFloat.le_of_not_lt (PyFloat.le_self_left hhigh) (PyFloat.le_self_right ht.mae_entry)
        (ha stop target hs htarget).2⟩

/-- An exit price is one that the bar has, and a level is on its side of the entry. -/
theorem exitAt_spec {p : ShadowPosition} {b : Bar} {entry price : PyFloat} {reason : String} (hb : LawfulBar b)
    (hf : Fair p b entry) (h : p.exitAt b = some (price, reason)) :
    b.low.le price = true ∧ price.le b.high = true ∧ (reason = "STOP" → price.le entry = true) ∧
      (reason = "TARGET" → entry.le price = true) := by
  have hclose : p.levelHit b = none → b.low.le price = true ∧ price.le b.high = true ∧
      (reason = "STOP" → price.le entry = true) ∧ (reason = "TARGET" → entry.le price = true) := by
    intro hnone
    unfold ShadowPosition.exitAt at h
    rw [hnone] at h
    dsimp only at h
    split at h
    · obtain ⟨rfl, rfl⟩ := Prod.mk.inj (Option.some.inj h)
      exact ⟨hb.low_close, hb.close_high, fun h => absurd h (by decide), fun h => absurd h (by decide)⟩
    · cases h
  rcases levelHit_eq p b with ⟨hnone, -⟩ | ⟨stop, target, hs, ht, he⟩
  · exact hclose hnone
  · split at he
    · next hlow =>
      -- both levels in one bar: the stop counts
      unfold ShadowPosition.exitAt at h
      rw [he] at h
      obtain ⟨rfl, rfl⟩ := Prod.mk.inj (Option.some.inj h)
      obtain ⟨hhigh, hentry⟩ := hf.stop stop target hs ht hlow
      exact ⟨hlow, hhigh, fun _ => hentry, fun h => absurd h (by decide)⟩
    · next hlow =>
      rw [Bool.not_eq_true] at hlow
      split at he
      · next hhigh =>
        unfold ShadowPosition.exitAt at h
        rw [he] at h
        obtain ⟨rfl, rfl⟩ := Prod.mk.inj (Option.some.inj h)
        obtain ⟨hlow', hentry⟩ := hf.target stop target hs ht hlow hhigh
        exact ⟨hlow', hhigh, fun h => absurd h (by decide), fun _ => hentry⟩
      · exact hclose he

theorem levelHit_of_exitAt {p : ShadowPosition} {b : Bar} (h : p.exitAt b = none) : p.levelHit b = none := by
  unfold ShadowPosition.exitAt at h
  split at h
  · cases h
  · next hnone => exact hnone

/-- An exit on a bar. -/
def ExitOn (b : Bar) (r : ShadowPosition) : Prop :=
  ∃ price gross, r.simulatedExitPriceRaw = some price ∧ r.grossResult = some gross ∧
    b.low.le price = true ∧ price.le b.high = true ∧
    (r.exitReason = some "STOP" → (0 : PyFloat).lt gross = false) ∧
    (r.exitReason = some "TARGET" → gross.lt 0 = false)

/-- An exit between the excursions. -/
def ExitBetween (r : ShadowPosition) : Prop :=
  ∃ mae exit mfe, r.maePrice = some mae ∧ r.simulatedExitPriceRaw = some exit ∧ r.mfePrice = some mfe ∧
    mae.le exit = true ∧ exit.le mfe = true

structure RowSound (r : ShadowPosition) : Prop where
  pending : r.status = .pendingFill → r.maePrice = none
  opened : r.status = .opened → ∃ entry mae mfe, Tracked r entry mae mfe ∧ LevelsAround r entry
  closed : r.status = .closed → ExitBetween r
  ordered : ∀ mae mfe, r.maePrice = some mae → r.mfePrice = some mfe → mae.le mfe = true

theorem Tracked.ordered {p : ShadowPosition} {entry mae mfe : PyFloat} (h : Tracked p entry mae mfe) :
    ∀ mae' mfe', p.maePrice = some mae' → p.mfePrice = some mfe' → mae'.le mfe' = true := by
  intro mae' mfe' hmae hmfe
  rw [h.mae_eq] at hmae
  rw [h.mfe_eq] at hmfe
  rw [← Option.some.inj hmae, ← Option.some.inj hmfe]
  exact PyFloat.le_chain h.mae_entry h.entry_mfe

theorem Tracked.observe {p : ShadowPosition} {b : Bar} {entry mae mfe : PyFloat} (h : Tracked p entry mae mfe)
    (hb : LawfulBar b) : ∃ mae' mfe', Tracked (p.observe b) entry mae' mfe' ∧ mae'.le b.low = true ∧
      b.high.le mfe' = true := by
  obtain ⟨hmae, hlow⟩ := pyMin_spec (PyFloat.le_self_left h.mae_entry) (PyFloat.le_self_left hb.low_open)
  obtain ⟨hmfe, hhigh⟩ := pyMax_spec (PyFloat.le_self_right h.entry_mfe) (PyFloat.le_self_right hb.open_high)
  refine ⟨pyMin mae b.low, pyMax mfe b.high, ⟨h.entry_eq, ?_, ?_, PyFloat.le_chain hmae h.mae_entry,
    PyFloat.le_chain h.entry_mfe hmfe⟩, hlow, hhigh⟩
  · rw [ShadowPosition.observe, h.mae_eq, Option.map_some]
  · rw [ShadowPosition.observe, h.mfe_eq, Option.map_some]

variable {config : ExecutionConfig}

/-- A close between the excursions. -/
theorem Tracked.close {p : ShadowPosition} {entry mae mfe price : PyFloat} {t : Utc} {reason : String}
    (h : Tracked p entry mae mfe) (hmae : mae.le price = true) (hmfe : price.le mfe = true) :
    RowSound (p.close config t price reason) where
  pending hs := by cases hs
  opened hs := by cases hs
  closed _ := ⟨mae, price, mfe, h.mae_eq, rfl, h.mfe_eq, hmae, hmfe⟩
  ordered := h.ordered

theorem advance_sound (config : ExecutionConfig) {p : ShadowPosition} {b : Bar} {entry mae mfe : PyFloat} (hb : LawfulBar b)
    (hs : p.status = .opened) (ht : Tracked p entry mae mfe) (hf : Fair p b entry)
    (ha : p.levelHit b = none → LevelsAround p entry) :
    RowSound (advance config p b) ∧ ((advance config p b).status = .closed → ExitOn b (advance config p b)) := by
  obtain ⟨mae', mfe', ht', hmae, hmfe⟩ := ht.observe hb
  have hf' : Fair (p.observe b) b entry := ⟨hf.stop, hf.target⟩
  unfold advance
  split
  · next price reason hexit =>
    obtain ⟨hlow, hhigh, hstop, htarget⟩ := exitAt_spec hb hf' hexit
    refine ⟨ht'.close (PyFloat.le_chain hmae hlow) (PyFloat.le_chain hhigh hmfe), fun _ => ?_⟩
    refine ⟨price, price.sub entry, rfl, ?_, hlow, hhigh, fun hr => ?_, fun hr => ?_⟩
    · exact congrArg (Option.map price.sub) ht'.entry_eq
    · exact PyFloat.not_zero_lt_sub (hstop (Option.some.inj hr))
    · exact PyFloat.not_sub_lt_zero (htarget (Option.some.inj hr))
  · next hexit =>
    have hnone : p.levelHit b = none := levelHit_of_exitAt hexit
    refine ⟨⟨fun hp => ?_, fun _ => ⟨entry, mae', mfe', ht', ha hnone⟩, fun hc => ?_, ht'.ordered⟩, fun hc => ?_⟩
    · rw [show (p.observe b).status = p.status from rfl, hs] at hp
      cases hp
    · rw [show (p.observe b).status = p.status from rfl, hs] at hc
      cases hc
    · rw [show (p.observe b).status = p.status from rfl, hs] at hc
      cases hc

end TalonX.Piv.Shadow
