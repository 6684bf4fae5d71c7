import TalonX.Core.PyFloat
import TalonX.V2.Calendar

/-!
# Messages of the decision engine

The payloads are parameterised by the type `F` of their numbers: `PyFloat` in memory, `Option ℚ` in JSON, where `null`
stands for a number that JSON does not have.

- `QuantSignal`, `ResearchReport`, `FundamentalFactorSignal`, `LongTermResearchReport`: what the engine consumes;
- `ActionableAlert`, `LongTermActionableAlert`: what it publishes, with `outbox_id`;
- `dump`, `load?`: `model_dump_json`, and `model_validate_json` of its result (`load?_dump`).
-/

set_option autoImplicit false

namespace TalonX.Core

open V2

inductive SignalType
  | rsiOversoldVolumeSurge
  | rsiOverboughtVolumeSurge
  | macdBullishCross
  | macdBearishCross
  | maGoldenCross
  | maDeathCross
  deriving DecidableEq, Repr

inductive SignalDirection
  | bullish
  | bearish
  deriving DecidableEq, Repr

inductive ResearchVerdict
  | bullish
  | bearish
  | neutral
  | insufficientContext
  deriving DecidableEq, Repr

inductive MoatRating
  | wide
  | narrow
  | none
  deriving DecidableEq, Repr

inductive AlertAction
  | confirmedBullish
  | confirmedBearish
  | contradicted
  | degradedQuantAlert
  | highConvictionBuy
  | holdQuality
  | takeProfitRebalance
  | underPerformRebalance
  deriving DecidableEq, Repr

inductive AlertSeverity
  | info
  | warning
  | critical
  deriving DecidableEq, Repr

/-- The two paths of the engine. -/
inductive Horizon
  | intraday
  | longTerm
  deriving DecidableEq, Repr

/-- The optional numbers of a `QuantSignal`. -/
structure Indicators (F : Type) where
  rsi : Option F
  macd : Option F
  macdSignalLine : Option F
  smaFast : Option F
  smaSlow : Option F
  volume : Option F
  volumeSurgeRatio : Option F
  atr : Option F
  stopPrice : Option F
  targetPrice : Option F
  htfSma200 : Option F
  deriving DecidableEq, Repr

structure QuantSignal (F : Type) where
  ticker : String
  signalType : SignalType
  direction : SignalDirection
  message : String
  price : F
  indicators : Indicators F
  trendAligned : Option Bool
  session : Option String
  barTimestamp : Instant
  publishedAt : Option Instant
  deriving DecidableEq, Repr

structure ResearchReport (F : Type) where
  ticker : String
  triggeringSignal : QuantSignal F
  verdict : ResearchVerdict
  confidence : F
  summary : String
  keyFindings : List String
  riskFactors : List String
  modelUsed : String
  isStale : Bool
  isDegraded : Bool
  fromCache : Bool
  generatedAt : Instant
  publishedAt : Instant
  deriving DecidableEq, Repr

structure FundamentalFactorSignal (F : Type) where
  ticker : String
  fiscalYear : ℤ
  roic : Option F
  piotroskiFScore : Option ℤ
  fcfYield : Option F
  altmanZScore : Option F
  debtToEbitdaProxy : Option F
  price : F
  message : String
  isEarningsRelated : Bool
  computedAt : Instant
  deriving DecidableEq, Repr

structure LongTermResearchReport (F : Type) where
  ticker : String
  triggeringSignal : FundamentalFactorSignal F
  moatRating : MoatRating
  capitalAllocationAssessment : String
  dcfFairValuePerShare : F
  qualityScore : ℕ
  summary : String
  keyFindings : List String
  riskFactors : List String
  modelUsed : String
  guidanceRevisionNotes : Option String
  revenueEpsSurprise : Option String
  isEarningsRelated : Bool
  isStale : Bool
  isDegraded : Bool
  fromCache : Bool
  generatedAt : Instant
  publishedAt : Instant
  deriving DecidableEq, Repr

/-- The fields that `make_outbox_id` hashes; the hash is taken to be injective. -/
structure OutboxId where
  ticker : String
  tradingDate : ℤ
  kind : Horizon
  action : AlertAction
  correlatedAt : Instant
  deriving DecidableEq, Repr

/-- The template of a rationale, with what it is filled in with. -/
inductive Rationale (F : Type)
  | degraded (direction : SignalDirection) (message : String)
  | related (direction : SignalDirection) (message : String) (agrees : Bool) (verdict : ResearchVerdict) (confidence : F)
      (summary : String)
  | fundamentalStop (ticker : String) (roicStreak : Bool) (debtToEbitda : Option F) (downgradedTo : Option MoatRating)
      (summary : String)
  | valuation (fiscalYear : ℤ) (message : String) (qualityScore : ℕ) (moat : MoatRating) (price fairValue : F)
      (summary : String)
  deriving DecidableEq, Repr

structure ActionableAlert (F : Type) where
  ticker : String
  action : AlertAction
  severity : AlertSeverity
  rationale : Rationale F
  quantDirection : SignalDirection
  researchVerdict : ResearchVerdict
  researchConfidence : F
  triggeringSignal : QuantSignal F
  researchSummary : String
  keyFindings : List String
  riskFactors : List String
  modelUsed : String
  isDegraded : Bool
  signalReceivedAt : Option Instant
  reportReceivedAt : Option Instant
  correlatedAt : Instant
  outboxId : Option OutboxId
  deriving DecidableEq, Repr

structure LongTermActionableAlert (F : Type) where
  ticker : String
  action : AlertAction
  severity : AlertSeverity
  rationale : Rationale F
  summary : String
  qualityScore : ℕ
  moatRating : MoatRating
  marketPrice : F
  intrinsicFairValue : F
  marginOfSafetyPct : F
  previousFairValue : Option F
  previousMarginOfSafetyPct : Option F
  guidanceRevisionNotes : Option String
  revenueEpsSurprise : Option String
  isEarningsRelated : Bool
  triggeringSignal : FundamentalFactorSignal F
  capitalAllocationAssessment : String
  keyFindings : List String
  riskFactors : List String
  modelUsed : String
  isDegraded : Bool
  signalReceivedAt : Option Instant
  reportReceivedAt : Option Instant
  correlatedAt : Instant
  outboxId : Option OutboxId
  deriving DecidableEq, Repr

/-! ## JSON -/

/-- An optional number that is `null` is absent. -/
def loadOptional (x : Option (Option ℚ)) : Option PyFloat := x.join.map .fin

theorem loadOptional_dump {x : Option PyFloat} (h : ∀ y ∈ x, y.finite = true) :
    loadOptional (x.map PyFloat.dump) = x := by
  cases x with
  | none => rfl
  | some y =>
    obtain ⟨q, rfl⟩ := PyFloat.exists_of_finite (h y rfl)
    rfl

namespace Indicators

def dump (x : Indicators PyFloat) : Indicators (Option ℚ) where
  rsi := x.rsi.map PyFloat.dump
  macd := x.macd.map PyFloat.dump
  macdSignalLine := x.macdSignalLine.map PyFloat.dump
  smaFast := x.smaFast.map PyFloat.dump
  smaSlow := x.smaSlow.map PyFloat.dump
  volume := x.volume.map PyFloat.dump
  volumeSurgeRatio := x.volumeSurgeRatio.map PyFloat.dump
  atr := x.atr.map PyFloat.dump
  stopPrice := x.stopPrice.map PyFloat.dump
  targetPrice := x.targetPrice.map PyFloat.dump
  htfSma200 := x.htfSma200.map PyFloat.dump

def load (x : Indicators (Option ℚ)) : Indicators PyFloat where
  rsi := loadOptional x.rsi
  macd := loadOptional x.macd
  macdSignalLine := loadOptional x.macdSignalLine
  smaFast := loadOptional x.smaFast
  smaSlow := loadOptional x.smaSlow
  volume := loadOptional x.volume
  volumeSurgeRatio := loadOptional x.volumeSurgeRatio
  atr := loadOptional x.atr
  stopPrice := loadOptional x.stopPrice
  targetPrice := loadOptional x.targetPrice
  htfSma200 := loadOptional x.htfSma200

def values {F : Type} (x : Indicators F) : List F :=
  [x.rsi, x.macd, x.macdSignalLine, x.smaFast, x.smaSlow, x.volume, x.volumeSurgeRatio, x.atr, x.stopPrice,
    x.targetPrice, x.htfSma200].filterMap id

theorem load_dump {x : Indicators PyFloat} (h : ∀ y ∈ x.values, y.finite = true) : x.dump.load = x := by
  have hfield : ∀ o ∈ [x.rsi, x.macd, x.macdSignalLine, x.smaFast, x.smaSlow, x.volume, x.volumeSurgeRatio, x.atr,
      x.stopPrice, x.targetPrice, x.htfSma200], loadOptional (o.map PyFloat.dump) = o := by
    refine fun o ho => loadOptional_dump fun y hy => h y (List.mem_filterMap.2 ⟨o, ho, hy⟩)
  simp only [List.forall_mem_cons] at hfield
  obtain ⟨h1, h2, h3, h4, h5, h6, h7, h8, h9, h10, h11, -⟩ := hfield
  simp only [load, dump, h1, h2, h3, h4, h5, h6, h7, h8, h9, h10, h11]

end Indicators

namespace QuantSignal

def dump (x : QuantSignal PyFloat) : QuantSignal (Option ℚ) where
  ticker := x.ticker
  signalType := x.signalType
  direction := x.direction
  message := x.message
  price := x.price.dump
  indicators := x.indicators.dump
  trendAligned := x.trendAligned
  session := x.session
  barTimestamp := x.barTimestamp
  publishedAt := x.publishedAt

/-- `none`: the price is `null`, which `QuantSignal` rejects. -/
def load? (x : QuantSignal (Option ℚ)) : Option (QuantSignal PyFloat) :=
  x.price.map fun price =>
    { ticker := x.ticker
      signalType := x.signalType
      direction := x.direction
      message := x.message
      price := .fin price
      indicators := x.indicators.load
      trendAligned := x.trendAligned
      session := x.session
      barTimestamp := x.barTimestamp
      publishedAt := x.publishedAt }

def numbers {F : Type} (x : QuantSignal F) : List F := x.price :: x.indicators.values

theorem load?_dump {x : QuantSignal PyFloat} (h : ∀ y ∈ x.numbers, y.finite = true) : x.dump.load? = some x := by
  obtain ⟨hprice, hind⟩ := List.forall_mem_cons.1 h
  obtain ⟨q, hq⟩ := PyFloat.exists_of_finite hprice
  have hload := Indicators.load_dump hind
  cases x with
  | mk ticker signalType direction message price indicators trendAligned session barTimestamp publishedAt =>
    subst hq
    simp only [load?, dump, PyFloat.dump, Option.map_some] at hload ⊢
    rw [hload]

end QuantSignal

namespace ResearchReport

def dump (x : ResearchReport PyFloat) : ResearchReport (Option ℚ) where
  ticker := x.ticker
  triggeringSignal := x.triggeringSignal.dump
  verdict := x.verdict
  confidence := x.confidence.dump
  summary := x.summary
  keyFindings := x.keyFindings
  riskFactors := x.riskFactors
  modelUsed := x.modelUsed
  isStale := x.isStale
  isDegraded := x.isDegraded
  fromCache := x.fromCache
  generatedAt := x.generatedAt
  publishedAt := x.publishedAt

/-- `none`: a number that the schema requires is `null`. -/
def load? (x : ResearchReport (Option ℚ)) : Option (ResearchReport PyFloat) :=
  x.triggeringSignal.load?.bind fun triggeringSignal => x.confidence.map fun confidence =>
    { ticker := x.ticker
      triggeringSignal := triggeringSignal
      verdict := x.verdict
      confidence := .fin confidence
      summary := x.summary
      keyFindings := x.keyFindings
      riskFactors := x.riskFactors
      modelUsed := x.modelUsed
      isStale := x.isStale
      isDegraded := x.isDegraded
      fromCache := x.fromCache
      generatedAt := x.generatedAt
      publishedAt := x.publishedAt }

def numbers {F : Type} (x : ResearchReport F) : List F := x.confidence :: x.triggeringSignal.numbers

theorem load?_dump {x : ResearchReport PyFloat} (h : ∀ y ∈ x.numbers, y.finite = true) : x.dump.load? = some x := by
  obtain ⟨hconf, hsig⟩ := List.forall_mem_cons.1 h
  obtain ⟨q, hq⟩ := PyFloat.exists_of_finite hconf
  have hload := QuantSignal.load?_dump hsig
  simp only [load?, dump, hload, hq, PyFloat.dump, Option.bind_some, Option.map_some]
  rw [← hq]

end ResearchReport

namespace FundamentalFactorSignal

def dump (x : FundamentalFactorSignal PyFloat) : FundamentalFactorSignal (Option ℚ) where
  ticker := x.ticker
  fiscalYear := x.fiscalYear
  roic := x.roic.map PyFloat.dump
  piotroskiFScore := x.piotroskiFScore
  fcfYield := x.fcfYield.map PyFloat.dump
  altmanZScore := x.altmanZScore.map PyFloat.dump
  debtToEbitdaProxy := x.debtToEbitdaProxy.map PyFloat.dump
  price := x.price.dump
  message := x.message
  isEarningsRelated := x.isEarningsRelated
  computedAt := x.computedAt

/-- `none`: the price is `null`. -/
def load? (x : FundamentalFactorSignal (Option ℚ)) : Option (FundamentalFactorSignal PyFloat) :=
  x.price.map fun price =>
    { ticker := x.ticker
      fiscalYear := x.fiscalYear
      roic := loadOptional x.roic
      piotroskiFScore := x.piotroskiFScore
      fcfYield := loadOptional x.fcfYield
      altmanZScore := loadOptional x.altmanZScore
      debtToEbitdaProxy := loadOptional x.debtToEbitdaProxy
      price := .fin price
      message := x.message
      isEarningsRelated := x.isEarningsRelated
      computedAt := x.computedAt }

def numbers {F : Type} (x : FundamentalFactorSignal F) : List F :=
  x.price :: [x.roic, x.fcfYield, x.altmanZScore, x.debtToEbitdaProxy].filterMap id

theorem load?_dump {x : FundamentalFactorSignal PyFloat} (h : ∀ y ∈ x.numbers, y.finite = true) :
    x.dump.load? = some x := by
  obtain ⟨hprice, hopt⟩ := List.forall_mem_cons.1 h
  obtain ⟨q, hq⟩ := PyFloat.exists_of_finite hprice
  have hfield : ∀ o ∈ [x.roic, x.fcfYield, x.altmanZScore, x.debtToEbitdaProxy],
      loadOptional (o.map PyFloat.dump) = o :=
    fun o ho => loadOptional_dump fun y hy => hopt y (List.mem_filterMap.2 ⟨o, ho, hy⟩)
  simp only [List.forall_mem_cons] at hfield
  obtain ⟨h1, h2, h3, h4, -⟩ := hfield
  simp only [load?, dump, h1, h2, h3, h4, hq, PyFloat.dump, Option.map_some]
  rw [← hq]

end FundamentalFactorSignal

namespace LongTermResearchReport

def dump (x : LongTermResearchReport PyFloat) : LongTermResearchReport (Option ℚ) where
  ticker := x.ticker
  triggeringSignal := x.triggeringSignal.dump
  moatRating := x.moatRating
  capitalAllocationAssessment := x.capitalAllocationAssessment
  dcfFairValuePerShare := x.dcfFairValuePerShare.dump
  qualityScore := x.qualityScore
  summary := x.summary
  keyFindings := x.keyFindings
  riskFactors := x.riskFactors
  modelUsed := x.modelUsed
  guidanceRevisionNotes := x.guidanceRevisionNotes
  revenueEpsSurprise := x.revenueEpsSurprise
  isEarningsRelated := x.isEarningsRelated
  isStale := x.isStale
  isDegraded := x.isDegraded
  fromCache := x.fromCache
  generatedAt := x.generatedAt
  publishedAt := x.publishedAt

/-- `none`: a number that the schema requires is `null`. -/
def load? (x : LongTermResearchReport (Option ℚ)) : Option (LongTermResearchReport PyFloat) :=
  x.triggeringSignal.load?.bind fun triggeringSignal => x.dcfFairValuePerShare.map fun fairValue =>
    { ticker := x.ticker
      triggeringSignal := triggeringSignal
      moatRating := x.moatRating
      capitalAllocationAssessment := x.capitalAllocationAssessment
      dcfFairValuePerShare := .fin fairValue
      qualityScore := x.qualityScore
      summary := x.summary
      keyFindings := x.keyFindings
      riskFactors := x.riskFactors
      modelUsed := x.modelUsed
      guidanceRevisionNotes := x.guidanceRevisionNotes
      revenueEpsSurprise := x.revenueEpsSurprise
      isEarningsRelated := x.isEarningsRelated
      isStale := x.isStale
      isDegraded := x.isDegraded
      fromCache := x.fromCache
      generatedAt := x.generatedAt
      publishedAt := x.publishedAt }

def numbers {F : Type} (x : LongTermResearchReport F) : List F := x.dcfFairValuePerShare :: x.triggeringSignal.numbers

theorem load?_dump {x : LongTermResearchReport PyFloat} (h : ∀ y ∈ x.numbers, y.finite = true) :
    x.dump.load? = some x := by
  obtain ⟨hfair, hsig⟩ := List.forall_mem_cons.1 h
  obtain ⟨q, hq⟩ := PyFloat.exists_of_finite hfair
  have hload := FundamentalFactorSignal.load?_dump hsig
  simp only [load?, dump, hload, hq, PyFloat.dump, Option.bind_some, Option.map_some]
  rw [← hq]

end LongTermResearchReport

end TalonX.Core
