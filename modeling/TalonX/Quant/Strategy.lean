import Mathlib.Algebra.Order.Field.Basic
import Mathlib.Data.Rat.Defs
import Mathlib.Algebra.Order.Ring.Rat
import Mathlib.Tactic.FieldSimp
import Mathlib.Tactic.Linarith
import TalonX.Quant.Schemas

/-!
# The signals of a bar

- `IndicatorSnapshot`: the latest and the previous indicators of a symbol, as `compute_indicators` returns them;
- `calculateTradeGeometry`: stop, target, risk and reward from one entry price;
- `confluenceScore`, `evaluateIndependentConfirmations`: the two contracts that score a candidate;
- `evaluateSignals`: the candidates of a bar, at most one of each family.

Prices and ratios are exact; the texts of the messages are left out.
-/

set_option autoImplicit false

namespace TalonX.Quant

/-- The New York clock: time of day and calendar date of an instant. -/
structure EasternClock where
  time : Timestamp → ℕ
  date : Timestamp → ℕ
  /-- The local date never goes back, whatever the offset does. -/
  date_mono : Monotone date

inductive SignalType
  | rsiOversoldVolumeSurge
  | rsiOverboughtVolumeSurge
  | macdBullishCross
  | macdBearishCross
  | maGoldenCross
  | maDeathCross
  deriving DecidableEq

inductive SignalDirection
  | bullish
  | bearish
  deriving DecidableEq

inductive VolatilityGateMode
  | current1m
  | multitimeframeExperimental
  deriving DecidableEq

inductive ConfluenceContract
  | legacy
  | independentConfirmationExperimental
  deriving DecidableEq

/-- What `strategy.py` and the gates read of `QuantConfig`. -/
structure StrategyConfig where
  rsiOversold : ℚ
  rsiOverbought : ℚ
  volumeSurgeRatioThreshold : ℚ
  premarketVolumeSurgeRatioThreshold : ℚ
  minMaSpreadPct : ℚ
  atrPeriod : ℕ
  atrMoveMultiplier : ℚ
  atrStopMultiplier : ℚ
  atrRewardMultiplier : ℚ
  minRiskRewardRatio : ℚ
  minAtrPct : ℚ
  confluenceScoreMin : ℤ
  volatilityGateMode : VolatilityGateMode
  confluenceContract : ConfluenceContract
  htfSmaPeriod : ℕ
  trendGateEnabled : Bool
  cooldown : ℕ
  lossLockout : ℕ
  throttleMaxSignals : ℤ
  maxCandidateAgeSeconds : ℚ
  opportunityScoreConfluenceWeight : ℚ
  opportunityScoreRrWeight : ℚ
  opportunityScoreVolumeWeight : ℚ
  opportunityScoreTrendWeight : ℚ
  opportunityScoreRrCap : ℚ
  opportunityScoreVolumeCap : ℚ

structure IndicatorSnapshot where
  price : ℚ
  barTimestamp : Timestamp
  rsi : Option ℚ
  rsiPrev : Option ℚ
  macd : Option ℚ
  macdSignalLine : Option ℚ
  macdPrev : Option ℚ
  macdSignalLinePrev : Option ℚ
  smaFast : Option ℚ
  smaSlow : Option ℚ
  smaFastPrev : Option ℚ
  smaSlowPrev : Option ℚ
  volume : Option ℚ
  volumeSurgeRatio : Option ℚ
  atr : Option ℚ
  barTrueRange : Option ℚ

/-- Pivot levels of the last completed regular session. -/
structure DailyPivots where
  pivot : ℚ
  resistance : ℚ
  support : ℚ
  deriving DecidableEq

/-! ## Trade geometry -/

inductive GeometryPath
  | structuralPrimary
  | atrFallback
  deriving DecidableEq

inductive FallbackReason
  | noStructuralSupport
  | structureNotBelowEntry
  | structureInvalidOrNonfinite
  deriving DecidableEq

structure TradeGeometry where
  stopPrice : ℚ
  targetPrice : ℚ
  risk : ℚ
  reward : Option ℚ
  riskRewardRatio : Option ℚ
  geometryPath : GeometryPath
  fallbackReason : Option FallbackReason
  structuralLevel : Option ℚ
  structuralLevelType : Option String
  deriving DecidableEq

/-- `math.isfinite(pivot_support) and pivot_support > 0 and pivot_support < price`; exact prices are finite. -/
def StructuralValid (price support : ℚ) : Prop := 0 < support ∧ support < price

instance (price support : ℚ) : Decidable (StructuralValid price support) :=
  inferInstanceAs (Decidable (_ ∧ _))

/-- A stop, and how it came about. -/
structure StopChoice where
  stopPrice : ℚ
  geometryPath : GeometryPath
  fallbackReason : Option FallbackReason
  structuralLevel : Option ℚ
  structuralLevelType : Option String

/-- The stop of a long: the support pivot where it is below the price, else the ATR distance. -/
def bullishStop (price atrRisk : ℚ) : Option ℚ → StopChoice
  | none => ⟨price - atrRisk, .atrFallback, some .noStructuralSupport, none, none⟩
  | some support =>
    if StructuralValid price support then
      ⟨support, .structuralPrimary, none, some support, some "prior_session_S1_pivot"⟩
    else if support ≤ 0 then ⟨price - atrRisk, .atrFallback, some .structureInvalidOrNonfinite, none, none⟩
    else ⟨price - atrRisk, .atrFallback, some .structureNotBelowEntry, none, none⟩

/-- The pivot as the target where it lies beyond the price, with the reward; else the ATR distance, with none. -/
def bullishTarget (price atrReward : ℚ) (pivotResistance : Option ℚ) : ℚ × Option ℚ :=
  match pivotResistance with
  | some resistance => if price < resistance then (resistance, some (resistance - price)) else (price + atrReward, none)
  | none => (price + atrReward, none)

def bearishTarget (price atrReward : ℚ) (pivotSupport : Option ℚ) : ℚ × Option ℚ :=
  match pivotSupport with
  | some support => if support < price then (support, some (price - support)) else (price - atrReward, none)
  | none => (price - atrReward, none)

/-- `(reward / risk) if reward is not None and reward > 0 else None`. -/
def rewardRatio (reward : Option ℚ) (risk : ℚ) : Option ℚ :=
  reward.bind fun reward => if 0 < reward then some (reward / risk) else none

def calculateTradeGeometry (price : ℚ) (atr : Option ℚ) (direction : SignalDirection)
    (pivotResistance pivotSupport : Option ℚ) (config : StrategyConfig) : Option TradeGeometry :=
  match atr with
  | none => none
  | some atr =>
    let atrRisk := config.atrStopMultiplier * atr
    if atr ≤ 0 ∨ price = 0 ∨ atrRisk ≤ 0 then none
    else match direction with
      | .bullish =>
        let stop := bullishStop price atrRisk pivotSupport
        let risk := price - stop.stopPrice
        if risk ≤ 0 then none
        else
          let (target, reward) := bullishTarget price (config.atrRewardMultiplier * atr) pivotResistance
          some ⟨stop.stopPrice, target, risk, reward, rewardRatio reward risk, stop.geometryPath, stop.fallbackReason,
            stop.structuralLevel, stop.structuralLevelType⟩
      | .bearish =>
        let (target, reward) := bearishTarget price (config.atrRewardMultiplier * atr) pivotSupport
        some ⟨price + atrRisk, target, atrRisk, reward, rewardRatio reward atrRisk, .atrFallback, none, none, none⟩

/-! ### What a geometry says -/

/-- The stop and the target lie on the two sides of the price. -/
def GeometryValid (stop price target : ℚ) : SignalDirection → Prop
  | .bullish => stop < price ∧ price < target
  | .bearish => target < price ∧ price < stop

instance (stop price target : ℚ) (direction : SignalDirection) : Decidable (GeometryValid stop price target direction) :=
  match direction with
  | .bullish => inferInstanceAs (Decidable (_ ∧ _))
  | .bearish => inferInstanceAs (Decidable (_ ∧ _))

section Geometry

variable {price : ℚ} {atr : Option ℚ} {direction : SignalDirection} {resistance support : Option ℚ}
  {config : StrategyConfig} {g : TradeGeometry}

theorem stopPrice_bullishStop (price atrRisk : ℚ) (support : Option ℚ) :
    (bullishStop price atrRisk support).stopPrice =
      (support.filter (StructuralValid price ·)).getD (price - atrRisk) := by
  cases support with
  | none => rfl
  | some s =>
    unfold bullishStop
    by_cases hs : StructuralValid price s
    · simp [Option.filter, hs]
    · by_cases h0 : s ≤ 0 <;> simp [Option.filter, hs, h0]

theorem rewardRatio_eq_some {reward : Option ℚ} {risk ratio : ℚ} :
    rewardRatio reward risk = some ratio ↔ ∃ r, reward = some r ∧ 0 < r ∧ r / risk = ratio := by
  cases reward <;> simp [rewardRatio]

theorem bullishTarget_reward {atrReward r : ℚ} (h : (bullishTarget price atrReward resistance).2 = some r) :
    resistance = some (bullishTarget price atrReward resistance).1 ∧
      price < (bullishTarget price atrReward resistance).1 ∧
      r = (bullishTarget price atrReward resistance).1 - price := by
  cases resistance with
  | none => simp [bullishTarget] at h
  | some t =>
    by_cases ht : price < t
    · simp_all [bullishTarget]
    · simp [bullishTarget, ht] at h

theorem bearishTarget_reward {atrReward r : ℚ} (h : (bearishTarget price atrReward support).2 = some r) :
    support = some (bearishTarget price atrReward support).1 ∧
      (bearishTarget price atrReward support).1 < price ∧
      r = price - (bearishTarget price atrReward support).1 := by
  cases support with
  | none => simp [bearishTarget] at h
  | some t =>
    by_cases ht : t < price
    · simp_all [bearishTarget]
    · simp [bearishTarget, ht] at h

/-- A geometry with a ratio: a positive risk on one side, a pivot on the other, and the ratio of the two distances. -/
structure Measured (price : ℚ) (direction : SignalDirection) (resistance support : Option ℚ) (ratio : ℚ)
    (g : TradeGeometry) : Prop where
  valid : GeometryValid g.stopPrice price g.targetPrice direction
  risk : g.risk = |price - g.stopPrice|
  ratio : ratio = |g.targetPrice - price| / g.risk
  pivot : (match direction with | .bullish => resistance | .bearish => support) = some g.targetPrice

theorem calculateTradeGeometry_measured (h : calculateTradeGeometry price atr direction resistance support config = some g)
    {ratio : ℚ} (hr : g.riskRewardRatio = some ratio) : Measured price direction resistance support ratio g := by
  unfold calculateTradeGeometry at h
  cases atr with
  | none => simp at h
  | some a =>
    by_cases h0 : a ≤ 0 ∨ price = 0 ∨ config.atrStopMultiplier * a ≤ 0
    · simp [h0] at h
    simp only [if_neg h0] at h
    push Not at h0
    cases direction with
    | bullish =>
      by_cases hrisk : price - (bullishStop price (config.atrStopMultiplier * a) support).stopPrice ≤ 0
      · simp [hrisk] at h
      simp only [if_neg hrisk] at h
      obtain rfl := Option.some.inj h
      obtain ⟨r, hreward, hpos, hratio⟩ := rewardRatio_eq_some.1 hr
      obtain ⟨hpivot, hlt, heq⟩ := bullishTarget_reward hreward
      have hstop : 0 < price - (bullishStop price (config.atrStopMultiplier * a) support).stopPrice := not_le.1 hrisk
      refine ⟨⟨sub_pos.1 hstop, hlt⟩, (abs_of_pos hstop).symm, ?_, hpivot⟩
      rw [← hratio, heq, abs_of_pos (sub_pos.2 hlt)]
    | bearish =>
      obtain rfl := Option.some.inj h
      obtain ⟨r, hreward, hpos, hratio⟩ := rewardRatio_eq_some.1 hr
      obtain ⟨hpivot, hlt, heq⟩ := bearishTarget_reward hreward
      refine ⟨⟨hlt, lt_add_of_pos_right _ h0.2.2⟩, ?_, ?_, hpivot⟩
      · simp [abs_of_pos h0.2.2]
      · rw [← hratio, heq, abs_sub_comm, abs_of_pos (sub_pos.2 hlt)]

end Geometry

/-! ## Signals -/

/-- A candidate. -/
structure QuantSignal where
  ticker : Symbol
  signalType : SignalType
  direction : SignalDirection
  price : ℚ
  rsi : Option ℚ
  macd : Option ℚ
  macdSignalLine : Option ℚ
  smaFast : Option ℚ
  smaSlow : Option ℚ
  volume : Option ℚ
  volumeSurgeRatio : Option ℚ
  atr : Option ℚ
  confluenceScore : ℕ
  confirmationCount : Option ℕ
  confirmationMacd : Option Bool
  confirmationRsi : Option Bool
  confirmationVolume : Option Bool
  confirmationContract : Option ConfluenceContract
  riskRewardRatio : Option ℚ
  stopPrice : Option ℚ
  targetPrice : Option ℚ
  geometryPath : Option GeometryPath
  fallbackReason : Option FallbackReason
  structuralLevel : Option ℚ
  structuralLevelType : Option String
  trendAligned : Option Bool
  htfSma200 : Option ℚ
  pivotResistance : Option ℚ
  pivotSupport : Option ℚ
  session : Session
  signalAgeMs : Option ℚ
  barTimestamp : Timestamp
  deriving DecidableEq

/-- The inputs of a check that are not in the snapshot. -/
structure SignalContext where
  session : Session
  htfSma200 : Option ℚ
  volumeThreshold : ℚ
  pivots : Option DailyPivots

def pickVolumeThreshold (session : Session) (config : StrategyConfig) : ℚ :=
  if session = .preMarket then config.premarketVolumeSurgeRatioThreshold else config.volumeSurgeRatioThreshold

/-- The true range of this bar reaches the multiple of the ATR; missing values do not. -/
def clearsAtrMove (s : IndicatorSnapshot) (config : StrategyConfig) : Bool :=
  match s.atr, s.barTrueRange with
  | some atr, some range => 0 < atr ∧ config.atrMoveMultiplier * atr ≤ range
  | _, _ => false

/-- `fast` was at or below `slow`, and is above it. -/
def crossedAbove : (fast slow fastPrev slowPrev : Option ℚ) → Bool
  | some fast, some slow, some fastPrev, some slowPrev => fastPrev ≤ slowPrev ∧ slow < fast
  | _, _, _, _ => false

def macdBullishCrossedThisBar (s : IndicatorSnapshot) : Bool :=
  crossedAbove s.macd s.macdSignalLine s.macdPrev s.macdSignalLinePrev

def macdBearishCrossedThisBar (s : IndicatorSnapshot) : Bool :=
  crossedAbove s.macdSignalLine s.macd s.macdSignalLinePrev s.macdPrev

def macdCrossedThisBar (s : IndicatorSnapshot) : Bool := macdBullishCrossedThisBar s || macdBearishCrossedThisBar s

def SignalType.isMacd (t : SignalType) : Bool := t = .macdBullishCross || t = .macdBearishCross

def SignalType.isRsi (t : SignalType) : Bool := t = .rsiOversoldVolumeSurge || t = .rsiOverboughtVolumeSurge

/-- The RSI sits in the extreme zone that supports the direction. -/
def rsiSupports (s : IndicatorSnapshot) (config : StrategyConfig) (direction : SignalDirection) : Bool :=
  s.rsi.any fun rsi => match direction with
    | .bullish => rsi < config.rsiOversold
    | .bearish => config.rsiOverbought < rsi

def volumeSurges (s : IndicatorSnapshot) (volumeThreshold : ℚ) : Bool := s.volumeSurgeRatio.any (volumeThreshold < ·)

/-- The legacy contract. -/
def confluenceScore (s : IndicatorSnapshot) (config : StrategyConfig) (volumeThreshold : ℚ)
    (direction : SignalDirection) (signalType : SignalType) : ℕ :=
  (macdCrossedThisBar s && !signalType.isMacd).toNat + (rsiSupports s config direction).toNat +
    (volumeSurges s volumeThreshold).toNat

structure ConfirmationState where
  macdConfirmed : Bool
  rsiConfirmed : Bool
  volumeConfirmed : Bool
  deriving DecidableEq

namespace ConfirmationState

def confirmationComponents (c : ConfirmationState) : List String :=
  ([("macd", c.macdConfirmed), ("rsi", c.rsiConfirmed), ("volume", c.volumeConfirmed)].filter (·.2)).map (·.1)

def confirmationCount (c : ConfirmationState) : ℕ := c.confirmationComponents.length

end ConfirmationState

/-- The experimental contract: no candidate is confirmed by its own trigger, and a cross confirms its direction only. -/
def evaluateIndependentConfirmations (s : IndicatorSnapshot) (signalType : SignalType) (direction : SignalDirection)
    (volumeThreshold : ℚ) (config : StrategyConfig) : ConfirmationState :=
  let macdDirectional := match direction with
    | .bullish => macdBullishCrossedThisBar s
    | .bearish => macdBearishCrossedThisBar s
  ⟨macdDirectional && !signalType.isMacd, rsiSupports s config direction && !signalType.isRsi,
    volumeSurges s volumeThreshold⟩

/-- `none` where the gate does not apply, or where there is no average yet. -/
def trendAligned (price : ℚ) (direction : SignalDirection) (session : Session) (htfSma200 : Option ℚ)
    (config : StrategyConfig) : Option Bool :=
  if !config.trendGateEnabled ∨ direction ≠ .bullish ∨ session ≠ .regular then none
  else htfSma200.map fun sma => sma < price

def buildSignal (ticker : Symbol) (s : IndicatorSnapshot) (signalType : SignalType) (direction : SignalDirection)
    (config : StrategyConfig) (ctx : SignalContext) : QuantSignal :=
  let confirmation := match config.confluenceContract with
    | .independentConfirmationExperimental =>
      some (evaluateIndependentConfirmations s signalType direction ctx.volumeThreshold config)
    | .legacy => none
  let pivotResistance := ctx.pivots.map (·.resistance)
  let pivotSupport := ctx.pivots.map (·.support)
  let geometry := calculateTradeGeometry s.price s.atr direction pivotResistance pivotSupport config
  { ticker := ticker.toUpper
    signalType := signalType
    direction := direction
    price := s.price
    rsi := s.rsi
    macd := s.macd
    macdSignalLine := s.macdSignalLine
    smaFast := s.smaFast
    smaSlow := s.smaSlow
    volume := s.volume
    volumeSurgeRatio := s.volumeSurgeRatio
    atr := s.atr
    confluenceScore := match confirmation with
      | some c => c.confirmationCount
      | none => confluenceScore s config ctx.volumeThreshold direction signalType
    confirmationCount := confirmation.map (·.confirmationCount)
    confirmationMacd := confirmation.map (·.macdConfirmed)
    confirmationRsi := confirmation.map (·.rsiConfirmed)
    confirmationVolume := confirmation.map (·.volumeConfirmed)
    confirmationContract := confirmation.map fun _ => config.confluenceContract
    riskRewardRatio := geometry.bind (·.riskRewardRatio)
    stopPrice := geometry.map (·.stopPrice)
    targetPrice := geometry.map (·.targetPrice)
    geometryPath := geometry.map (·.geometryPath)
    fallbackReason := geometry.bind (·.fallbackReason)
    structuralLevel := geometry.bind (·.structuralLevel)
    structuralLevelType := geometry.bind (·.structuralLevelType)
    trendAligned := trendAligned s.price direction ctx.session ctx.htfSma200 config
    htfSma200 := ctx.htfSma200
    pivotResistance := pivotResistance
    pivotSupport := pivotSupport
    session := ctx.session
    signalAgeMs := none
    barTimestamp := s.barTimestamp }

section Checks

variable (ticker : Symbol) (s : IndicatorSnapshot) (config : StrategyConfig) (ctx : SignalContext)

/-- The RSI curls back from an extreme; the legacy contract asks for a volume surge as well. -/
def checkRsiVolumeSetup : Option QuantSignal :=
  match s.rsi, s.rsiPrev with
  | some rsi, some rsiPrev =>
    let experimental : Bool := config.confluenceContract = .independentConfirmationExperimental
    let volumeConfirmed := volumeSurges s ctx.volumeThreshold
    if !clearsAtrMove s config then none
    else if !experimental ∧ s.volumeSurgeRatio = none then none
    else if (rsiPrev < config.rsiOversold ∧ config.rsiOversold ≤ rsi) ∧ (experimental ∨ volumeConfirmed) then
      some (buildSignal ticker s .rsiOversoldVolumeSurge .bullish config ctx)
    else if (config.rsiOverbought < rsiPrev ∧ rsi ≤ config.rsiOverbought) ∧ (experimental ∨ volumeConfirmed) then
      some (buildSignal ticker s .rsiOverboughtVolumeSurge .bearish config ctx)
    else none
  | _, _ => none

def checkMacdCrossover : Option QuantSignal :=
  if !clearsAtrMove s config then none
  else if macdBullishCrossedThisBar s then some (buildSignal ticker s .macdBullishCross .bullish config ctx)
  else if macdBearishCrossedThisBar s then some (buildSignal ticker s .macdBearishCross .bearish config ctx)
  else none

/-- The averages cross, and part by enough of the price. -/
def checkMaCrossover : Option QuantSignal :=
  match s.smaFast, s.smaSlow with
  | some fast, some slow =>
    if s.price = 0 ∨ !clearsAtrMove s config then none
    else if |fast - slow| < config.minMaSpreadPct * s.price then none
    else if crossedAbove s.smaFast s.smaSlow s.smaFastPrev s.smaSlowPrev then
      some (buildSignal ticker s .maGoldenCross .bullish config ctx)
    else if crossedAbove s.smaSlow s.smaFast s.smaSlowPrev s.smaFastPrev then
      some (buildSignal ticker s .maDeathCross .bearish config ctx)
    else none
  | _, _ => none

end Checks

def signalContext (eastern : EasternClock) (s : IndicatorSnapshot) (config : StrategyConfig)
    (htfSma200 : Option ℚ) (pivots : Option DailyPivots) : SignalContext :=
  let session := getSession eastern.time s.barTimestamp
  ⟨session, htfSma200, pickVolumeThreshold session config, pivots⟩

def evaluateSignals (eastern : EasternClock) (ticker : Symbol) (s : IndicatorSnapshot) (config : StrategyConfig)
    (htfSma200 : Option ℚ) (pivots : Option DailyPivots) : List QuantSignal :=
  let ctx := signalContext eastern s config htfSma200 pivots
  (checkRsiVolumeSetup ticker s config ctx).toList ++ (checkMacdCrossover ticker s config ctx).toList ++
    (checkMaCrossover ticker s config ctx).toList

end TalonX.Quant
