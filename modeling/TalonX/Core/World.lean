import TalonX.Core.Decision
import TalonX.Transact.Prog
import TalonX.Transact.Table

/-!
# The world of the decision engine

- `AlertOf F`: an alert of either horizon, in memory (`Alert`) or in JSON (`Payload`);
- `OutboxRecord`: a record of the alert outbox; `TickerRow`, `LongTermTickerRow`: the rows of the state database;
- `AlertRow`: a row of the audit tables of Dispatch;
- `World`: the memory of the engine, the files and databases, the connection of Dispatch, and what Redis, the clock and
  Telegram will answer.
-/

set_option autoImplicit false

namespace TalonX.Core

open Transact V2

/-! ## Alerts -/

inductive AlertOf (F : Type)
  | intraday (a : ActionableAlert F)
  | longTerm (a : LongTermActionableAlert F)
  deriving DecidableEq, Repr

abbrev Alert := AlertOf PyFloat

/-- `to_redis_payload`. -/
abbrev Payload := AlertOf (Option ℚ)

namespace AlertOf

variable {F : Type}

def kind : AlertOf F → Horizon
  | intraday _ => .intraday
  | longTerm _ => .longTerm

def ticker : AlertOf F → String
  | intraday a => a.ticker
  | longTerm a => a.ticker

def action : AlertOf F → AlertAction
  | intraday a => a.action
  | longTerm a => a.action

def severity : AlertOf F → AlertSeverity
  | intraday a => a.severity
  | longTerm a => a.severity

def correlatedAt : AlertOf F → Instant
  | intraday a => a.correlatedAt
  | longTerm a => a.correlatedAt

def price : AlertOf F → F
  | intraday a => a.triggeringSignal.price
  | longTerm a => a.marketPrice

def isEarningsRelated : AlertOf F → Bool
  | intraday _ => false
  | longTerm a => a.isEarningsRelated

def outboxId : AlertOf F → Option OutboxId
  | intraday a => a.outboxId
  | longTerm a => a.outboxId

/-- `alert.outbox_id = …`. -/
def withOutboxId (id : OutboxId) : AlertOf F → AlertOf F
  | intraday a => intraday { a with outboxId := some id }
  | longTerm a => longTerm { a with outboxId := some id }

@[simp] theorem outboxId_withOutboxId (id : OutboxId) (a : AlertOf F) : (a.withOutboxId id).outboxId = some id := by
  cases a <;> rfl

end AlertOf

/-- `make_outbox_id`. -/
def makeOutboxId (a : Alert) : OutboxId := ⟨a.ticker, a.correlatedAt / 86400000000, a.kind, a.action, a.correlatedAt⟩

def Rationale.dump : Rationale PyFloat → Rationale (Option ℚ)
  | .degraded direction message => .degraded direction message
  | .related direction message agrees verdict confidence summary =>
    .related direction message agrees verdict confidence.dump summary
  | .fundamentalStop ticker roicStreak debt downgradedTo summary =>
    .fundamentalStop ticker roicStreak (debt.map PyFloat.dump) downgradedTo summary
  | .valuation fiscalYear message qualityScore moat price fairValue summary =>
    .valuation fiscalYear message qualityScore moat price.dump fairValue.dump summary

def ActionableAlert.dump (a : ActionableAlert PyFloat) : ActionableAlert (Option ℚ) where
  ticker := a.ticker
  action := a.action
  severity := a.severity
  rationale := a.rationale.dump
  quantDirection := a.quantDirection
  researchVerdict := a.researchVerdict
  researchConfidence := a.researchConfidence.dump
  triggeringSignal := a.triggeringSignal.dump
  researchSummary := a.researchSummary
  keyFindings := a.keyFindings
  riskFactors := a.riskFactors
  modelUsed := a.modelUsed
  isDegraded := a.isDegraded
  signalReceivedAt := a.signalReceivedAt
  reportReceivedAt := a.reportReceivedAt
  correlatedAt := a.correlatedAt
  outboxId := a.outboxId

def LongTermActionableAlert.dump (a : LongTermActionableAlert PyFloat) : LongTermActionableAlert (Option ℚ) where
  ticker := a.ticker
  action := a.action
  severity := a.severity
  rationale := a.rationale.dump
  summary := a.summary
  qualityScore := a.qualityScore
  moatRating := a.moatRating
  marketPrice := a.marketPrice.dump
  intrinsicFairValue := a.intrinsicFairValue.dump
  marginOfSafetyPct := a.marginOfSafetyPct.dump
  previousFairValue := a.previousFairValue.map PyFloat.dump
  previousMarginOfSafetyPct := a.previousMarginOfSafetyPct.map PyFloat.dump
  guidanceRevisionNotes := a.guidanceRevisionNotes
  revenueEpsSurprise := a.revenueEpsSurprise
  isEarningsRelated := a.isEarningsRelated
  triggeringSignal := a.triggeringSignal.dump
  capitalAllocationAssessment := a.capitalAllocationAssessment
  keyFindings := a.keyFindings
  riskFactors := a.riskFactors
  modelUsed := a.modelUsed
  isDegraded := a.isDegraded
  signalReceivedAt := a.signalReceivedAt
  reportReceivedAt := a.reportReceivedAt
  correlatedAt := a.correlatedAt
  outboxId := a.outboxId

def Alert.dump : Alert → Payload
  | .intraday a => .intraday a.dump
  | .longTerm a => .longTerm a.dump

@[simp] theorem Alert.outboxId_dump (a : Alert) : (Alert.dump a).outboxId = a.outboxId := by
  cases a <;> rfl

/-! ## Rows -/

inductive OutboxStatus
  | pending
  | retry
  | uncertain
  | sent
  | failed
  deriving DecidableEq, Repr

/-- `PENDING_STATUSES`. -/
def OutboxStatus.isPending : OutboxStatus → Bool
  | pending | retry | uncertain => true
  | sent | failed => false

/-- The payload carries the id of its record, and a record fails only when its attempts are used up. -/
structure OutboxRecord where
  outboxId : OutboxId
  payload : Payload
  status : OutboxStatus
  attempts : ℕ
  maxAttempts : ℕ
  lastAttemptAt : Option Instant
  nextAttemptAt : Option Instant
  sentAt : Option Instant
  lastError : Option String
  labelled : payload.outboxId = some outboxId
  exhausted : status = .failed → maxAttempts ≤ attempts
  deriving DecidableEq

/-- A row of `ticker_state`. -/
structure TickerRow where
  ticker : String
  signalJson : Option (QuantSignal (Option ℚ))
  signalAt : Option Instant
  reportJson : Option (ResearchReport (Option ℚ))
  reportAt : Option Instant
  lastAlertAt : Option Instant
  lastAlertAction : Option AlertAction
  lastAlertPrice : Option PyFloat
  deriving DecidableEq, Repr

def TickerRow.blank (ticker : String) : TickerRow := ⟨ticker, none, none, none, none, none, none, none⟩

/-- A row of `ticker_state_long_term`. -/
structure LongTermTickerRow where
  ticker : String
  signalJson : Option (FundamentalFactorSignal (Option ℚ))
  signalAt : Option Instant
  reportJson : Option (LongTermResearchReport (Option ℚ))
  reportAt : Option Instant
  lastAlertAt : Option Instant
  lastAlertAction : Option AlertAction
  lastAlertPrice : Option PyFloat
  roicBelowWaccStreak : ℕ
  previousMoatRating : Option MoatRating
  lastStreakFiscalYear : Option ℤ
  previousFairValue : Option PyFloat
  deriving DecidableEq, Repr

def LongTermTickerRow.blank (ticker : String) : LongTermTickerRow :=
  ⟨ticker, none, none, none, none, none, none, none, 0, none, none, none⟩

structure SuppressionKey where
  date : ℤ
  ticker : String
  reason : SuppressionReason
  horizon : Horizon
  deriving DecidableEq, Repr

structure SuppressionRow where
  key : SuppressionKey
  count : ℕ
  lastSeenAt : Instant
  deriving DecidableEq, Repr

inductive PushSuppression
  | actionMuted
  | confidenceBelowGate
  | priceDeltaTooLow
  | pushCooldownActive
  deriving DecidableEq, Repr

/-- A row of `alerts` or `long_term_alerts`; the outbox id in the payload is not a column. -/
structure AlertRow where
  alert : Payload
  receivedAt : Instant
  telegramSentAt : Option Instant
  telegramError : Option String
  suppressReason : Option PushSuppression
  deriving DecidableEq, Repr

/-! ## The outside -/

/-- What becomes of a `PUBLISH`: it raises and is lost, it raises after Redis has handed the message over, or it
returns. -/
inductive PublishAnswer
  | lost
  | unconfirmed
  | accepted
  deriving DecidableEq, Repr

/-- The answer to the `n`-th question. -/
structure Environment where
  clock : ℕ → Instant
  backoff : ℕ → ℤ
  publish : ℕ → PublishAnswer
  telegram : ℕ → Option String

/-- `dispatched`, `accepted`, `received`, `pushes` and `inHand` are history: the alerts that the engine decided on, the
ids of the publishes that returned, the ids that were handed to a connected Dispatch, the ids of the Telegram sends, and
the alert that Dispatch has taken and not marked. -/
structure World where
  correlator : Correlator TickerState
  longTermCorrelator : Correlator LongTermTickerState
  tickerState : Table TickerRow.ticker
  tickerStateLongTerm : Table LongTermTickerRow.ticker
  suppressionCounts : Table SuppressionRow.key
  alertOutbox : Table OutboxRecord.outboxId
  subscribed : Bool
  inbox : List Payload
  alerts : List AlertRow
  longTermAlerts : List AlertRow
  processed : List OutboxId
  lastPush : Horizon → String → Option (Instant × PyFloat)
  env : Environment
  consulted : ℕ
  dispatched : List Alert
  accepted : List OutboxId
  received : List OutboxId
  pushes : List OutboxId
  inHand : Option OutboxId

namespace World

def empty (env : Environment) : World where
  correlator := ⟨fun _ => .new⟩
  longTermCorrelator := ⟨fun _ => .new⟩
  tickerState := Table.empty
  tickerStateLongTerm := Table.empty
  suppressionCounts := Table.empty
  alertOutbox := Table.empty
  subscribed := false
  inbox := []
  alerts := []
  longTermAlerts := []
  processed := []
  lastPush _ _ := none
  env := env
  consulted := 0
  dispatched := []
  accepted := []
  received := []
  pushes := []
  inHand := none

def consult (s : World) : World := { s with consulted := s.consulted + 1 }

end World

end TalonX.Core
