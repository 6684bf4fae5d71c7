import TalonX.Core.Schemas
import Mathlib.Logic.Function.Basic

/-!
# Correlation state

`TickerCorrelator` and `LongTermTickerCorrelator`: for each ticker the freshest signal and report, when the engine
received them, and the last alert.
-/

set_option autoImplicit false

namespace TalonX.Core

open V2

structure TickerState where
  latestSignal : Option (QuantSignal PyFloat)
  latestSignalAt : Option Instant
  latestReport : Option (ResearchReport PyFloat)
  latestReportAt : Option Instant
  lastAlertAt : Option Instant
  lastAlertAction : Option AlertAction
  lastAlertPrice : Option PyFloat
  deriving DecidableEq, Repr

def TickerState.new : TickerState := ⟨none, none, none, none, none, none, none⟩

structure LongTermTickerState where
  fundamentalSignal : Option (FundamentalFactorSignal PyFloat)
  fundamentalSignalAt : Option Instant
  longtermReport : Option (LongTermResearchReport PyFloat)
  longtermReportAt : Option Instant
  lastAlertAt : Option Instant
  lastAlertAction : Option AlertAction
  lastAlertPrice : Option PyFloat
  roicBelowWaccStreak : ℕ
  lastStreakFiscalYear : Option ℤ
  previousMoatRating : Option MoatRating
  previousFairValue : Option PyFloat
  deriving DecidableEq, Repr

def LongTermTickerState.new : LongTermTickerState := ⟨none, none, none, none, none, none, none, 0, none, none, none⟩

/-! ## What one message does to the state of its ticker -/

namespace TickerState

def updateSignal (signal : QuantSignal PyFloat) (now : Instant) (state : TickerState) : TickerState :=
  { state with latestSignal := some signal, latestSignalAt := some now }

def updateReport (report : ResearchReport PyFloat) (now : Instant) (state : TickerState) : TickerState :=
  { state with latestReport := some report, latestReportAt := some now }

def markAlerted (action : AlertAction) (price : PyFloat) (when : Instant) (state : TickerState) : TickerState :=
  { state with lastAlertAt := some when, lastAlertAction := some action, lastAlertPrice := some price }

end TickerState

namespace LongTermTickerState

/-- The streak, counted once for each fiscal year. -/
def countStreak (signal : FundamentalFactorSignal PyFloat) (wacc : ℚ) (state : LongTermTickerState) :
    LongTermTickerState :=
  if some signal.fiscalYear = state.lastStreakFiscalYear then state
  else
    { state with
      lastStreakFiscalYear := some signal.fiscalYear
      roicBelowWaccStreak :=
        if signal.roic.any (·.lt (.fin wacc)) then state.roicBelowWaccStreak + 1 else 0 }

theorem previousFairValue_countStreak (signal : FundamentalFactorSignal PyFloat) (wacc : ℚ)
    (state : LongTermTickerState) : (state.countStreak signal wacc).previousFairValue = state.previousFairValue := by
  unfold countStreak
  split <;> rfl

theorem lastStreakFiscalYear_countStreak (signal : FundamentalFactorSignal PyFloat) (wacc : ℚ)
    (state : LongTermTickerState) : (state.countStreak signal wacc).lastStreakFiscalYear = some signal.fiscalYear := by
  unfold countStreak
  split
  · rename_i h
    exact h.symm
  · rfl

def updateSignal (signal : FundamentalFactorSignal PyFloat) (wacc : ℚ) (now : Instant) (state : LongTermTickerState) :
    LongTermTickerState :=
  countStreak signal wacc { state with fundamentalSignal := some signal, fundamentalSignalAt := some now }

/-- The outgoing report is the baseline of the next comparison. -/
def updateReport (report : LongTermResearchReport PyFloat) (now : Instant) (state : LongTermTickerState) :
    LongTermTickerState :=
  { state with
    previousMoatRating := (state.longtermReport.map (·.moatRating)).or state.previousMoatRating
    previousFairValue := (state.longtermReport.map (·.dcfFairValuePerShare)).or state.previousFairValue
    longtermReport := some report
    longtermReportAt := some now }

def markAlerted (action : AlertAction) (price : PyFloat) (when : Instant) (state : LongTermTickerState) :
    LongTermTickerState :=
  { state with lastAlertAt := some when, lastAlertAction := some action, lastAlertPrice := some price }

end LongTermTickerState

/-! ## The correlators -/

/-- States by upper-cased ticker; `get_or_create` starts a new one. -/
structure Correlator (α : Type) where
  states : String → α

namespace Correlator

variable {α : Type}

def getOrCreate (c : Correlator α) (ticker : String) : α := c.states ticker.toUpper

def update (c : Correlator α) (ticker : String) (f : α → α) : Correlator α :=
  ⟨Function.update c.states ticker.toUpper (f (c.getOrCreate ticker))⟩

theorem getOrCreate_update {c : Correlator α} {ticker ticker' : String} {f : α → α} :
    (c.update ticker f).getOrCreate ticker' =
      if ticker'.toUpper = ticker.toUpper then f (c.getOrCreate ticker) else c.getOrCreate ticker' := by
  show Function.update c.states ticker.toUpper (f (c.getOrCreate ticker)) ticker'.toUpper = _
  by_cases h : ticker'.toUpper = ticker.toUpper
  · rw [if_pos h, h, Function.update_self]
  · rw [if_neg h, Function.update_of_ne h]
    rfl

@[simp] theorem getOrCreate_update_self {c : Correlator α} {ticker : String} {f : α → α} :
    (c.update ticker f).getOrCreate ticker = f (c.getOrCreate ticker) := by
  rw [getOrCreate_update, if_pos rfl]

theorem update_congr {c : Correlator α} {ticker : String} {f g : α → α}
    (h : f (c.getOrCreate ticker) = g (c.getOrCreate ticker)) : c.update ticker f = c.update ticker g := by
  rw [update, update, h]

theorem update_update {c : Correlator α} {ticker : String} {f g : α → α} :
    (c.update ticker f).update ticker g = c.update ticker fun state => g (f state) := by
  rw [update, getOrCreate_update_self, update, update]
  simp only [Function.update_idem]

/-- A property that the change keeps for its ticker holds of all tickers again. -/
theorem forall_update {c : Correlator α} {ticker : String} {f : α → α} {p : α → Prop}
    (h : ∀ k, p (c.getOrCreate k)) (hf : p (f (c.getOrCreate ticker))) (k : String) :
    p ((c.update ticker f).getOrCreate k) := by
  rw [getOrCreate_update]
  split
  · exact hf
  · exact h k

/-- A property of a state under its key, likewise. -/
theorem forall_update_key {c : Correlator α} {ticker : String} {f : α → α} {p : String → α → Prop}
    (h : ∀ k : String, p k.toUpper (c.getOrCreate k)) (hf : p ticker.toUpper (f (c.getOrCreate ticker))) (k : String) :
    p k.toUpper ((c.update ticker f).getOrCreate k) := by
  rw [getOrCreate_update]
  by_cases hk : k.toUpper = ticker.toUpper
  · rw [if_pos hk, hk]
    exact hf
  · rw [if_neg hk]
    exact h k

end Correlator

end TalonX.Core
