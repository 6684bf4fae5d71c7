import TalonX.Core.State

/-!
# The decision matrix

`evaluateVerbose` and `evaluateLongTermVerbose`: from the state of a ticker and the time, an alert, the reason for which
there is none, or a `ZeroDivisionError`.
-/

set_option autoImplicit false

namespace TalonX.Core

open V2

/-- Durations are in the unit of the clock. -/
structure CoreConfig where
  minConfidence : ℚ
  correlationWindow : ℤ
  tickerCooldown : ℤ
  priceDeltaRetriggerPct : ℚ
  qualityScoreMin : ℤ
  marginOfSafetyPct : ℚ
  valuationPremiumPct : ℚ
  assumedWacc : ℚ
  maxDebtToEbitda : ℚ
  correlationWindowLongTerm : ℤ
  tickerCooldownLongTerm : ℤ
  priceDeltaRetriggerPctLongTerm : ℚ

inductive SuppressionReason
  | missingPair
  | staleSignal
  | staleReport
  | cooldown
  | lowConfidence
  | neutralVerdict
  | noStateChange
  | degradedReport
  | invalidPrice
  | noFairValueEstimate
  | lowQualityOrFairValue
  deriving DecidableEq, Repr

inductive Evaluation (α : Type)
  | alert (a : α)
  | suppressed (reason : SuppressionReason)
  | zeroDivision
  deriving DecidableEq, Repr

def isFresh (receivedAt : Option Instant) (now : Instant) (window : ℤ) : Bool :=
  receivedAt.any fun t => now - t ≤ window

/-- `COOLDOWN`. -/
def inCooldown (lastAlertAt : Option Instant) (now : Instant) (cooldown : ℤ) : Bool :=
  lastAlertAt.any fun t => now - t < cooldown

/-- The price at which the same action was last alerted. -/
def repeatOf (action : AlertAction) (lastAction : Option AlertAction) (lastPrice : Option PyFloat) : Option PyFloat :=
  if lastAction = some action then lastPrice else none

/-- `NO_STATE_CHANGE`: whether the move from the last price is below the limit; no value when the last price is zero. -/
def unmoved? (price last : PyFloat) (limit : ℚ) : Option Bool :=
  ((price.sub last).abs.div? last).map (·.lt (.fin limit))

/-- The gate on a repeated action. -/
def retrigger {α : Type} (baseline : Option PyFloat) (price : PyFloat) (limit : ℚ) (alert : α) : Evaluation α :=
  match baseline with
  | none => .alert alert
  | some last =>
    match unmoved? price last limit with
    | none => .zeroDivision
    | some true => .suppressed .noStateChange
    | some false => .alert alert

theorem retrigger_eq_alert {α : Type} {baseline : Option PyFloat} {price : PyFloat} {limit : ℚ} {alert a : α} :
    retrigger baseline price limit alert = .alert a ↔
      (∀ last ∈ baseline, unmoved? price last limit = some false) ∧ alert = a := by
  cases baseline with
  | none => simp [retrigger]
  | some last =>
    cases hmove : unmoved? price last limit with
    | none => simp [retrigger, hmove]
    | some unmoved => cases unmoved <;> simp [retrigger, hmove]

/-! ## Intraday -/

def severityFor (action : AlertAction) (confidence : PyFloat) : AlertSeverity :=
  if action = .degradedQuantAlert then .warning
  else if PyFloat.le (.fin (8 / 10)) confidence then .critical
  else if PyFloat.le (.fin (65 / 100)) confidence then .warning
  else if action = .contradicted then .warning
  else .info

def buildRationale (action : AlertAction) (signal : QuantSignal PyFloat) (report : ResearchReport PyFloat) :
    Rationale PyFloat :=
  if action = .degradedQuantAlert then .degraded signal.direction signal.message
  else
    .related signal.direction signal.message (action ≠ .contradicted) report.verdict report.confidence report.summary

/-- The matrix: the action of a pair, or why there is none. -/
def actionFor (cfg : CoreConfig) (signal : QuantSignal PyFloat) (report : ResearchReport PyFloat) :
    Except SuppressionReason AlertAction :=
  if report.isDegraded then .ok .degradedQuantAlert
  else if report.confidence.lt (.fin cfg.minConfidence) then .error .lowConfidence
  else
    match report.verdict, signal.direction with
    | .bullish, .bullish => .ok .confirmedBullish
    | .bearish, .bearish => .ok .confirmedBearish
    | .bullish, .bearish | .bearish, .bullish => .ok .contradicted
    | _, _ => .error .neutralVerdict

def buildAlert (state : TickerState) (signal : QuantSignal PyFloat) (report : ResearchReport PyFloat)
    (action : AlertAction) (correlatedAt : Instant) : ActionableAlert PyFloat where
  ticker := signal.ticker
  action := action
  severity := severityFor action report.confidence
  rationale := buildRationale action signal report
  quantDirection := signal.direction
  researchVerdict := report.verdict
  researchConfidence := report.confidence
  triggeringSignal := signal
  researchSummary := report.summary
  keyFindings := report.keyFindings
  riskFactors := report.riskFactors
  modelUsed := report.modelUsed
  isDegraded := report.isDegraded
  signalReceivedAt := state.latestSignalAt
  reportReceivedAt := state.latestReportAt
  correlatedAt := correlatedAt
  outboxId := none

/-- `correlatedAt` is the reading of the clock that the constructor of the alert makes. -/
def evaluateVerbose (cfg : CoreConfig) (state : TickerState) (now correlatedAt : Instant) :
    Evaluation (ActionableAlert PyFloat) :=
  match state.latestSignal, state.latestReport with
  | some signal, some report =>
    if !isFresh state.latestSignalAt now cfg.correlationWindow then .suppressed .staleSignal
    else if !isFresh state.latestReportAt now cfg.correlationWindow then .suppressed .staleReport
    else if inCooldown state.lastAlertAt now cfg.tickerCooldown then .suppressed .cooldown
    else
      match actionFor cfg signal report with
      | .error reason => .suppressed reason
      | .ok action =>
        retrigger (repeatOf action state.lastAlertAction state.lastAlertPrice) signal.price
          cfg.priceDeltaRetriggerPct (buildAlert state signal report action correlatedAt)
  | _, _ => .suppressed .missingPair

/-- Every gate is passed. -/
theorem evaluate_eq_alert {cfg : CoreConfig} {state : TickerState} {now correlatedAt : Instant}
    {a : ActionableAlert PyFloat} (h : evaluateVerbose cfg state now correlatedAt = .alert a) :
    ∃ signal report action, state.latestSignal = some signal ∧ state.latestReport = some report ∧
      isFresh state.latestSignalAt now cfg.correlationWindow = true ∧
      isFresh state.latestReportAt now cfg.correlationWindow = true ∧
      inCooldown state.lastAlertAt now cfg.tickerCooldown = false ∧
      (∀ last ∈ repeatOf action state.lastAlertAction state.lastAlertPrice,
        unmoved? signal.price last cfg.priceDeltaRetriggerPct = some false) ∧
      buildAlert state signal report action correlatedAt = a := by
  unfold evaluateVerbose at h
  cases hsignal : state.latestSignal with
  | none => simp [hsignal] at h
  | some signal =>
    cases hreport : state.latestReport with
    | none => simp [hsignal, hreport] at h
    | some report =>
      simp only [hsignal, hreport] at h
      grind [retrigger_eq_alert]

/-! ## Long term -/

def moatRank : MoatRating → ℕ
  | .none => 0
  | .narrow => 1
  | .wide => 2

def severityForLongTerm : AlertAction → AlertSeverity
  | .highConvictionBuy | .underPerformRebalance => .critical
  | .takeProfitRebalance => .warning
  | _ => .info

def moatDowngraded (state : LongTermTickerState) (report : LongTermResearchReport PyFloat) : Bool :=
  state.previousMoatRating.any fun previous => moatRank report.moatRating < moatRank previous

def debtToEbitdaBreach (cfg : CoreConfig) (signal : FundamentalFactorSignal PyFloat) : Bool :=
  signal.debtToEbitdaProxy.any fun debt => PyFloat.lt (.fin cfg.maxDebtToEbitda) debt

def roicStreakBreach (state : LongTermTickerState) : Bool := 2 ≤ state.roicBelowWaccStreak

def longTermActionFor (cfg : CoreConfig) (state : LongTermTickerState) (signal : FundamentalFactorSignal PyFloat)
    (report : LongTermResearchReport PyFloat) : Except SuppressionReason AlertAction :=
  let fair := report.dcfFairValuePerShare
  if roicStreakBreach state || debtToEbitdaBreach cfg signal || moatDowngraded state report then
    .ok .underPerformRebalance
  else if fair.le 0 then .error .noFairValueEstimate
  else if (fair.scale (1 + cfg.valuationPremiumPct)).lt signal.price then .ok .takeProfitRebalance
  else if cfg.qualityScoreMin ≤ report.qualityScore ∧ report.moatRating ≠ .none ∧
      signal.price.le (fair.scale (1 - cfg.marginOfSafetyPct)) then .ok .highConvictionBuy
  else if cfg.qualityScoreMin ≤ report.qualityScore ∧ (fair.scale (1 - cfg.marginOfSafetyPct)).lt signal.price then
    .ok .holdQuality
  else .error .lowQualityOrFairValue

def buildLongTermRationale (cfg : CoreConfig) (state : LongTermTickerState) (action : AlertAction)
    (signal : FundamentalFactorSignal PyFloat) (report : LongTermResearchReport PyFloat) : Rationale PyFloat :=
  if action = .underPerformRebalance then
    .fundamentalStop signal.ticker (roicStreakBreach state)
      (if debtToEbitdaBreach cfg signal then signal.debtToEbitdaProxy else none)
      (if moatDowngraded state report then some report.moatRating else none) report.summary
  else
    .valuation signal.fiscalYear signal.message report.qualityScore report.moatRating signal.price
      report.dcfFairValuePerShare report.summary

/-- `(fair - price) / fair` behind a test for `fair > 0`. -/
def marginOfSafety (fair price : PyFloat) : Option PyFloat :=
  if PyFloat.lt 0 fair then (fair.sub price).div? fair else none

def buildLongTermAlert (cfg : CoreConfig) (state : LongTermTickerState) (signal : FundamentalFactorSignal PyFloat)
    (report : LongTermResearchReport PyFloat) (action : AlertAction) (correlatedAt : Instant) :
    LongTermActionableAlert PyFloat where
  ticker := signal.ticker
  action := action
  severity := severityForLongTerm action
  rationale := buildLongTermRationale cfg state action signal report
  summary := report.summary
  qualityScore := report.qualityScore
  moatRating := report.moatRating
  marketPrice := signal.price
  intrinsicFairValue := report.dcfFairValuePerShare
  marginOfSafetyPct := (marginOfSafety report.dcfFairValuePerShare signal.price).getD 0
  previousFairValue := state.previousFairValue
  previousMarginOfSafetyPct :=
    state.previousFairValue.bind fun fair => state.lastAlertPrice.bind fun price => marginOfSafety fair price
  guidanceRevisionNotes := report.guidanceRevisionNotes
  revenueEpsSurprise := report.revenueEpsSurprise
  isEarningsRelated := signal.isEarningsRelated || report.isEarningsRelated
  triggeringSignal := signal
  capitalAllocationAssessment := report.capitalAllocationAssessment
  keyFindings := report.keyFindings
  riskFactors := report.riskFactors
  modelUsed := report.modelUsed
  isDegraded := report.isDegraded
  signalReceivedAt := state.fundamentalSignalAt
  reportReceivedAt := state.longtermReportAt
  correlatedAt := correlatedAt
  outboxId := none

def evaluateLongTermVerbose (cfg : CoreConfig) (state : LongTermTickerState) (now correlatedAt : Instant) :
    Evaluation (LongTermActionableAlert PyFloat) :=
  match state.fundamentalSignal, state.longtermReport with
  | some signal, some report =>
    let earnings := signal.isEarningsRelated || report.isEarningsRelated
    if !isFresh state.fundamentalSignalAt now cfg.correlationWindowLongTerm then .suppressed .staleSignal
    else if !isFresh state.longtermReportAt now cfg.correlationWindowLongTerm then .suppressed .staleReport
    else if !earnings && inCooldown state.lastAlertAt now cfg.tickerCooldownLongTerm then .suppressed .cooldown
    else if report.isDegraded then .suppressed .degradedReport
    else if signal.price.le 0 then .suppressed .invalidPrice
    else
      match longTermActionFor cfg state signal report with
      | .error reason => .suppressed reason
      | .ok action =>
        retrigger (if earnings then none else repeatOf action state.lastAlertAction state.lastAlertPrice)
          signal.price cfg.priceDeltaRetriggerPctLongTerm
          (buildLongTermAlert cfg state signal report action correlatedAt)
  | _, _ => .suppressed .missingPair

/-- Every gate is passed; an alert that is related to earnings skips the cooldown and the gate on repetitions. -/
theorem evaluateLongTerm_eq_alert {cfg : CoreConfig} {state : LongTermTickerState} {now correlatedAt : Instant}
    {a : LongTermActionableAlert PyFloat} (h : evaluateLongTermVerbose cfg state now correlatedAt = .alert a) :
    ∃ signal report action, state.fundamentalSignal = some signal ∧ state.longtermReport = some report ∧
      isFresh state.fundamentalSignalAt now cfg.correlationWindowLongTerm = true ∧
      isFresh state.longtermReportAt now cfg.correlationWindowLongTerm = true ∧
      ((signal.isEarningsRelated || report.isEarningsRelated) = false →
        inCooldown state.lastAlertAt now cfg.tickerCooldownLongTerm = false ∧
        ∀ last ∈ repeatOf action state.lastAlertAction state.lastAlertPrice,
          unmoved? signal.price last cfg.priceDeltaRetriggerPctLongTerm = some false) ∧
      buildLongTermAlert cfg state signal report action correlatedAt = a := by
  unfold evaluateLongTermVerbose at h
  cases hsignal : state.fundamentalSignal with
  | none => simp [hsignal] at h
  | some signal =>
    cases hreport : state.longtermReport with
    | none => simp [hsignal, hreport] at h
    | some report =>
      simp only [hsignal, hreport] at h
      grind [retrigger_eq_alert]

end TalonX.Core
