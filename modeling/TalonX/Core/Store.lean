import TalonX.Core.World

/-!
# The state database of the engine

- `saveSignal`, …: the upserts of `TickerStateStore`, each on its own columns;
- `TickerRow.load?`, `LongTermTickerRow.load?`: a row back to a state;
- `loadInto`, `loadIntoLongTerm`: the correlators of a new process.
-/

set_option autoImplicit false

namespace TalonX.Core

open Transact V2

/-- A `REAL` column: `nan` is stored as `NULL`. -/
def PyFloat.toReal : PyFloat → Option PyFloat
  | .nan => none
  | x => some x

theorem PyFloat.toReal_of_finite {x : PyFloat} (h : x.finite = true) : x.toReal = some x := by
  obtain ⟨q, rfl⟩ := PyFloat.exists_of_finite h
  rfl

/-- An `INTEGER` column. -/
def fitsInteger (n : ℤ) : Bool := -2 ^ 63 ≤ n && n < 2 ^ 63

/-- The columns that an upsert sets; the key stays. -/
structure ColumnWrite (ρ : Type) (key : ρ → String) where
  set : ρ → ρ
  keeps : ∀ r, key (set r) = key r

/-- `INSERT … ON CONFLICT (ticker) DO UPDATE SET`. -/
def upsertColumns {ρ : Type} {key : ρ → String} (t : Table key) (blank : ρ) (w : ColumnWrite ρ key) : Table key :=
  t.upsert (w.set blank) w.set w.keeps

theorem get_upsertColumns {ρ : Type} {key : ρ → String} {t : Table key} {blank : ρ} {w : ColumnWrite ρ key}
    (k : String) : (upsertColumns t blank w).get k =
      if k = key blank then some (w.set ((t.get k).getD blank)) else t.get k := by
  by_cases h : k = key blank
  · rw [if_pos h, h, ← w.keeps blank, upsertColumns, Table.get_upsert_self]
    cases t.get (key (w.set blank)) with
    | none => rfl
    | some r => rfl
  · rw [if_neg h]
    exact Table.get_upsert_of_ne (w.keeps blank ▸ h)

theorem keys_upsertColumns {ρ : Type} {key : ρ → String} {t : Table key} {blank : ρ} {w : ColumnWrite ρ key} {r : ρ}
    (h : r ∈ (upsertColumns t blank w).rows) : key r = key blank ∨ ∃ q ∈ t.rows, key q = key r := by
  have hget := Table.get_eq_some.2 ⟨h, rfl⟩
  rw [get_upsertColumns] at hget
  split at hget
  · rename_i hk
    exact Or.inl hk
  · obtain ⟨hmem, -⟩ := Table.get_eq_some.1 hget
    exact Or.inr ⟨r, hmem, rfl⟩

/-! ## Writes -/

def signalColumns (signal : QuantSignal PyFloat) (receivedAt : Instant) : ColumnWrite TickerRow TickerRow.ticker where
  set r := { r with signalJson := some signal.dump, signalAt := some receivedAt }
  keeps _ := rfl

def reportColumns (report : ResearchReport PyFloat) (receivedAt : Instant) : ColumnWrite TickerRow TickerRow.ticker where
  set r := { r with reportJson := some report.dump, reportAt := some receivedAt }
  keeps _ := rfl

def alertColumns (action : AlertAction) (price : PyFloat) (when : Instant) : ColumnWrite TickerRow TickerRow.ticker where
  set r := { r with lastAlertAt := some when, lastAlertAction := some action, lastAlertPrice := price.toReal }
  keeps _ := rfl

def fundamentalSignalColumns (signal : FundamentalFactorSignal PyFloat) (receivedAt : Instant) :
    ColumnWrite LongTermTickerRow LongTermTickerRow.ticker where
  set r := { r with signalJson := some signal.dump, signalAt := some receivedAt }
  keeps _ := rfl

def longTermReportColumns (report : LongTermResearchReport PyFloat) (receivedAt : Instant) :
    ColumnWrite LongTermTickerRow LongTermTickerRow.ticker where
  set r := { r with reportJson := some report.dump, reportAt := some receivedAt }
  keeps _ := rfl

def longTermAlertColumns (action : AlertAction) (price : PyFloat) (when : Instant) :
    ColumnWrite LongTermTickerRow LongTermTickerRow.ticker where
  set r := { r with lastAlertAt := some when, lastAlertAction := some action, lastAlertPrice := price.toReal }
  keeps _ := rfl

def stopStateColumns (state : LongTermTickerState) : ColumnWrite LongTermTickerRow LongTermTickerRow.ticker where
  set r := { r with
    roicBelowWaccStreak := state.roicBelowWaccStreak
    previousMoatRating := state.previousMoatRating
    lastStreakFiscalYear := state.lastStreakFiscalYear
    previousFairValue := state.previousFairValue.bind PyFloat.toReal }
  keeps _ := rfl

namespace World

/-- An upsert of `ticker_state`. -/
def saveColumns (ticker : String) (w : ColumnWrite TickerRow TickerRow.ticker) (s : World) : World :=
  { s with tickerState := upsertColumns s.tickerState (.blank ticker.toUpper) w }

/-- An upsert of `ticker_state_long_term`. -/
def saveLongTermColumns (ticker : String) (w : ColumnWrite LongTermTickerRow LongTermTickerRow.ticker) (s : World) :
    World :=
  { s with tickerStateLongTerm := upsertColumns s.tickerStateLongTerm (.blank ticker.toUpper) w }

/-- `save_long_term_fundamental_stop_state`: a fiscal year that SQLite cannot store raises `OverflowError`. -/
def saveStopState (ticker : String) (s : World) : Option (Unit × World) :=
  let state := s.longTermCorrelator.getOrCreate ticker
  if state.lastStreakFiscalYear.all fitsInteger then some ((), s.saveLongTermColumns ticker (stopStateColumns state))
  else none

/-- `record_suppressed`. -/
def recordSuppressed (ticker : String) (reason : SuppressionReason) (horizon : Horizon) (when : Instant) (s : World) :
    World :=
  { s with
    suppressionCounts := s.suppressionCounts.upsert ⟨⟨when / 86400000000, ticker.toUpper, reason, horizon⟩, 1, when⟩
      (fun r => { r with count := r.count + 1, lastSeenAt := when }) fun _ => rfl }

end World

/-! ## Loading -/

/-- A JSON column; a document that does not validate raises. -/
def loadJson {α β : Type} (load? : α → Option β) : Option α → Option (Option β)
  | none => some none
  | some json => (load? json).map some

/-- The row of one ticker in `load_into`. -/
def TickerRow.load? (r : TickerRow) : Option TickerState :=
  (loadJson QuantSignal.load? r.signalJson).bind fun signal =>
    (loadJson ResearchReport.load? r.reportJson).map fun report =>
      { latestSignal := signal
        latestSignalAt := signal.bind fun _ => r.signalAt
        latestReport := report
        latestReportAt := report.bind fun _ => r.reportAt
        lastAlertAt := r.lastAlertAt
        lastAlertAction := r.lastAlertAction
        lastAlertPrice := r.lastAlertPrice }

/-- The row of one ticker in `load_into_long_term`. -/
def LongTermTickerRow.load? (r : LongTermTickerRow) : Option LongTermTickerState :=
  (loadJson FundamentalFactorSignal.load? r.signalJson).bind fun signal =>
    (loadJson LongTermResearchReport.load? r.reportJson).map fun report =>
      { fundamentalSignal := signal
        fundamentalSignalAt := signal.bind fun _ => r.signalAt
        longtermReport := report
        longtermReportAt := report.bind fun _ => r.reportAt
        lastAlertAt := r.lastAlertAt
        lastAlertAction := r.lastAlertAction
        lastAlertPrice := r.lastAlertPrice
        roicBelowWaccStreak := r.roicBelowWaccStreak
        lastStreakFiscalYear := r.lastStreakFiscalYear
        previousMoatRating := r.previousMoatRating
        previousFairValue := r.previousFairValue }

/-- The loop of `load_into` and `load_into_long_term`. -/
def loadRows {ρ α : Type} (key : ρ → String) (load? : ρ → Option α) (c : Correlator α) : List ρ → Option (Correlator α)
  | [] => some c
  | r :: rows => (load? r).bind fun state => loadRows key load? (c.update (key r) fun _ => state) rows

def loadInto (s : World) : Option (Correlator TickerState) :=
  loadRows TickerRow.ticker TickerRow.load? ⟨fun _ => .new⟩ s.tickerState.rows

def loadIntoLongTerm (s : World) : Option (Correlator LongTermTickerState) :=
  loadRows LongTermTickerRow.ticker LongTermTickerRow.load? ⟨fun _ => .new⟩ s.tickerStateLongTerm.rows

/-- What a new process starts with. -/
def World.reload (s : World) : Option World :=
  (loadInto s).bind fun correlator => (loadIntoLongTerm s).map fun longTermCorrelator =>
    { s with correlator := correlator, longTermCorrelator := longTermCorrelator }

end TalonX.Core
