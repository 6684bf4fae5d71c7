import TalonX.Core.Receipt
import Mathlib.Data.List.Induction

/-!
# The long-term state of a ticker, from its history

- `LongTermEvent`: a valid message at the time of its receipt, or an alert that was sent; `remember`: the correlator after
  a list of them;
- `stateOf_concat`: the state of a ticker moves with the events of that ticker only;
- `signalsOf`, `reportsOf`: its messages; `longtermReport_stateOf`, `previous_stateOf`: the latest report is the state's
  report, the one before it is the baseline.
-/

set_option autoImplicit false

namespace TalonX.Core

open V2

inductive LongTermEvent
  | received (x : LongTerm) (now : Instant)
  | alerted (ticker : String) (action : AlertAction) (price : PyFloat) (when : Instant)

namespace LongTermEvent

def ticker : LongTermEvent → String
  | received x _ => x.ticker
  | alerted ticker .. => ticker

def apply (cfg : CoreConfig) : LongTermEvent → LongTermTickerState → LongTermTickerState
  | received x now => x.apply cfg now
  | alerted _ action price when => LongTermTickerState.markAlerted action price when

def signal? : LongTermEvent → Option (FundamentalFactorSignal PyFloat)
  | received (.signal x) _ => some x
  | _ => none

def report? : LongTermEvent → Option (LongTermResearchReport PyFloat × Instant)
  | received (.report x) now => some (x, now)
  | _ => none

end LongTermEvent

/-- `update_signal`, `update_report` and `mark_alerted`, one after the other. -/
def remember (cfg : CoreConfig) (es : List LongTermEvent) : Correlator LongTermTickerState :=
  es.foldl (fun c e => c.update e.ticker (e.apply cfg)) ⟨fun _ => .new⟩

def stateOf (cfg : CoreConfig) (k : String) (es : List LongTermEvent) : LongTermTickerState :=
  (remember cfg es).getOrCreate k

/-- The events of a ticker. -/
def LongTermEvent.isOf (k : String) (e : LongTermEvent) : Bool := e.ticker.toUpper = k.toUpper

section Histories

variable {cfg : CoreConfig} {k : String} {es : List LongTermEvent} {e : LongTermEvent}

theorem stateOf_concat :
    stateOf cfg k (es ++ [e]) = if e.isOf k then e.apply cfg (stateOf cfg k es) else stateOf cfg k es := by
  rw [stateOf, remember, List.foldl_concat, Correlator.getOrCreate_update]
  by_cases h : k.toUpper = e.ticker.toUpper
  · have hof : e.isOf k = true := decide_eq_true h.symm
    rw [if_pos h, if_pos hof, stateOf, remember, Correlator.getOrCreate, Correlator.getOrCreate, h]
  · have hof : ¬e.isOf k = true := fun hk => h (of_decide_eq_true hk).symm
    rw [if_neg h, if_neg hof, stateOf, remember]

/-- The signals of a ticker, in the order of their receipt. -/
def signalsOf (k : String) (es : List LongTermEvent) : List (FundamentalFactorSignal PyFloat) :=
  (es.filter (·.isOf k)).filterMap LongTermEvent.signal?

/-- The reports of a ticker, with the times of their receipt. -/
def reportsOf (k : String) (es : List LongTermEvent) : List (LongTermResearchReport PyFloat × Instant) :=
  (es.filter (·.isOf k)).filterMap LongTermEvent.report?

theorem signalsOf_concat : signalsOf k (es ++ [e]) =
    signalsOf k es ++ if e.isOf k then e.signal?.toList else [] := by
  rw [signalsOf, List.filter_append, List.filterMap_append, List.filter_singleton]
  cases h : e.isOf k with
  | true => cases hs : e.signal? <;> simp [hs, signalsOf]
  | false => simp [signalsOf]

theorem reportsOf_concat : reportsOf k (es ++ [e]) =
    reportsOf k es ++ if e.isOf k then e.report?.toList else [] := by
  rw [reportsOf, List.filter_append, List.filterMap_append, List.filter_singleton]
  cases h : e.isOf k with
  | true => cases hs : e.report? <;> simp [hs, reportsOf]
  | false => simp [reportsOf]

/-- The latest report is on file; the one before it is the baseline. -/
structure ReportsOnFile (rs : List (LongTermResearchReport PyFloat × Instant)) (state : LongTermTickerState) : Prop where
  report : state.longtermReport = rs.getLast?.map Prod.fst
  reportAt : state.longtermReportAt = rs.getLast?.map Prod.snd
  moat : state.previousMoatRating = rs.dropLast.getLast?.map (·.1.moatRating)
  fair : state.previousFairValue = rs.dropLast.getLast?.map (·.1.dcfFairValuePerShare)

theorem ReportsOnFile.updateReport {rs : List (LongTermResearchReport PyFloat × Instant)} {state : LongTermTickerState}
    (h : ReportsOnFile rs state) (x : LongTermResearchReport PyFloat) (now : Instant) :
    ReportsOnFile (rs ++ [(x, now)]) (state.updateReport x now) := by
  cases rs using List.reverseRecOn with
  | nil =>
    obtain ⟨hr, -, hm, hf⟩ := h
    refine ⟨rfl, rfl, ?_, ?_⟩
    · rw [LongTermTickerState.updateReport, hr, hm]
      rfl
    · rw [LongTermTickerState.updateReport, hr, hf]
      rfl
  | append_singleton rs r =>
    have hr := h.report
    rw [List.getLast?_concat] at hr
    refine ⟨?_, ?_, ?_, ?_⟩
    · rw [List.getLast?_concat]
      rfl
    · rw [List.getLast?_concat]
      rfl
    · rw [LongTermTickerState.updateReport, hr, List.dropLast_concat, List.getLast?_concat]
      rfl
    · rw [LongTermTickerState.updateReport, hr, List.dropLast_concat, List.getLast?_concat]
      rfl

theorem reportsOnFile (cfg : CoreConfig) (k : String) (es : List LongTermEvent) :
    ReportsOnFile (reportsOf k es) (stateOf cfg k es) := by
  induction es using List.reverseRecOn with
  | nil => exact ⟨rfl, rfl, rfl, rfl⟩
  | append_singleton es e ih =>
    rw [stateOf_concat, reportsOf_concat]
    cases hof : e.isOf k with
    | false => simpa using ih
    | true =>
      rw [if_pos rfl, if_pos rfl]
      cases e with
      | alerted ticker action price when =>
        obtain ⟨hr, hat, hm, hf⟩ := ih
        simp only [LongTermEvent.report?, Option.toList_none, List.append_nil]
        exact ⟨hr, hat, hm, hf⟩
      | received x now =>
        cases x with
        | report x => exact ih.updateReport x now
        | signal x =>
          obtain ⟨hr, hat, hm, hf⟩ := ih
          simp only [LongTermEvent.report?, Option.toList_none, List.append_nil]
          refine ⟨?_, ?_, ?_, ?_⟩
          all_goals
            simp only [LongTermEvent.apply, LongTerm.apply, LongTermTickerState.updateSignal,
              LongTermTickerState.countStreak]
            split
          all_goals first | exact hr | exact hat | exact hm | exact hf

end Histories

end TalonX.Core
