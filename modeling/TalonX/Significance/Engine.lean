import TalonX.Significance.Rules

/-!
# The significance engine

`evaluate_significance`: the rules in their order, the total, the bands, and the fingerprint of the inputs.

- `inputFingerprint`: `identity.py`;
- `scoredComponents`: the rules in order;
- `substantivePoints`, `substantiveFamilies`, `holdBand`: the score and the four holds of the band;
- `evaluateSignificance`: the result.
-/

set_option autoImplicit false

namespace TalonX.Significance

open Clock
open TalonX.Core (PyFloat)
open TalonX.Insider (InsiderActivity)

/-! ## The fingerprint -/

variable (lib : Lib)

def join (sep : String) (parts : List String) : String := sep.intercalate parts

def sortedFlags (flags : List String) : List String := flags.insertionSort (· ≤ ·)

/-- `str(x or "")`. -/
def orEmpty (x : Option String) : String := x.getD ""

/-- `'' if x is None else round(x, n)`. -/
def roundedOrEmpty (x : Option PyFloat) (n : ℕ) : String := (x.map (lib.roundText · n)).getD ""

def SectionType.value : SectionType → String
  | .riskFactors => "risk_factors"
  | .mdna => "mdna"
  | .liquidity => "liquidity"

def SectionStatus.value : SectionStatus → String
  | .found => "FOUND"
  | .notFound => "NOT_FOUND"
  | .ambiguous => "AMBIGUOUS"
  | .multipleMatches => "MULTIPLE_MATCHES"

def KeywordCategory.value : KeywordCategory → String
  | .negativeRisk => "negative_risk"
  | .positiveBusiness => "positive_business"

def clusterKindText : Insider.ClusterKind → String
  | .multipleOpenMarketBuyers => "MULTIPLE_OPEN_MARKET_BUYERS"
  | .multipleOpenMarketSellers => "MULTIPLE_OPEN_MARKET_SELLERS"

/-- `int(flag)` as a text. -/
def bit (b : Bool) : String := if b then "1" else "0"

/-- `_event_part`. -/
def eventPart (event : TextEvent) : String :=
  join "|" ["event", event.eventId, event.eventType.value, event.formType, join "," event.filingItems,
    (event.acceptedAtUtc.map Utc.isoformat).getD "", orEmpty event.sourceHash,
    join "," (sortedFlags event.dataQualityFlags), if event.isAmendment then "AMEND" else "ORIG"]

/-- `_comparison_part`. -/
def comparisonPart : Option FilingComparison → String
  | none => "comparison=NONE"
  | some c =>
    let whole := match c.wholeDocumentChange with
      | none => ""
      | some w => "whole:" ++ lib.roundText w.diffRatio 6 ++ ":" ++ bit w.exceedsMaterialThreshold
    let secs := join "&" (c.sectionChanges.map fun s =>
      s.sectionType.value ++ ":" ++ s.status.value ++ ":" ++ roundedOrEmpty lib s.diffRatio 6)
    let xbrl := join "&" (c.xbrlChanges.map fun x =>
      x.field ++ ":" ++ x.comparison.value ++ ":" ++ roundedOrEmpty lib x.relativeDelta 6 ++ ":" ++ x.status)
    let kw := join "&" (c.keywordCategorySummaries.map fun s => s.category.value ++ ":" ++ toString s.totalDelta)
    join "|" ["comparison", c.comparisonId, orEmpty c.currentDocumentHash, orEmpty c.priorDocumentHash, whole, secs,
      xbrl, kw, toString c.newPassages.length, join "," (sortedFlags c.dataQualityFlags)]

/-- `_insider_part`. -/
def insiderPart : Option InsiderActivity → String
  | none => "insider=NONE"
  | some a =>
    let aggs := join "&" (a.openMarketAggregates.map fun g =>
      toString g.windowCalendarDays ++ ":" ++ toString g.transactionCount ++ ":" ++
        roundedOrEmpty lib g.largestSingleTransactionValue 2 ++ ":" ++ toString g.distinctPurchasers ++ ":" ++
        toString g.distinctSellers)
    let clusters := join "&" (a.clusters.map fun c => clusterKindText c.kind ++ ":" ++ toString c.distinctOwners)
    let txnIds := join "," (sortedFlags (a.transactions.map (·.transactionId)))
    join "|" ["insider", a.symbol, a.asOfDate.isoformat, aggs, clusters, txnIds,
      join "," (sortedFlags a.dataQualityFlags)]

/-- `_watchlist_part`. -/
def watchlistPart (onWatchlist pinned : Bool) : String := "watchlist:" ++ bit onWatchlist ++ ":" ++ bit pinned

/-- `_context_part`. -/
def contextPart (simultaneousTypes : ℤ) (rarityCode sourceStatus : String) : String :=
  "context:sim=" ++ toString simultaneousTypes ++ ":rarity=" ++ rarityCode ++ ":src=" ++ sourceStatus

/-- `source_status or "NA"`. -/
def statusText : Option String → String
  | none => "NA"
  | some s => if s = "" then "NA" else s

/-- `input_fingerprint` of the inputs. -/
def inputFingerprint (i : Inputs) : String :=
  lib.sourceHash ["significance_input_fingerprint@v1", i.rulesetVersion, eventPart i.event,
    comparisonPart lib i.comparison, insiderPart lib i.insiderActivity, watchlistPart i.onWatchlist i.pinned,
    contextPart i.simultaneousTypeCount ((i.rarityResult.map (·.code.value)).getD "NA") (statusText i.sourceStatus)]

/-! ## The total and the band -/

/-- `_has_open_market_insider`. -/
def hasOpenMarketInsider : Option InsiderActivity → Bool
  | none => false
  | some a => a.openMarketAggregates.any (0 < ·.transactionCount) || a.transactions.any (·.isOpenMarketDiscretionary)

/-- `ordered`: the rules in their order. -/
def scoredComponents (i : Inputs) : List Scored :=
  let whatChanged := i.comparison.map buildWhatChanged
  let comparisonId := i.comparison.map (·.comparisonId)
  [eventTypeBase i.event (hasOpenMarketInsider i.insiderActivity),
    materialItems i.event,
    filingChange lib whatChanged comparisonId,
    riskLanguage whatChanged comparisonId,
    xbrlMagnitude lib whatChanged comparisonId,
    insiderActivity lib i.insiderActivity,
    rarityComponent i.rarityResult,
    simultaneousEvents i.simultaneousTypeCount simultaneousWindowDays,
    recency i.event i.now,
    watchlistPriority i.onWatchlist i.pinned,
    qualityPenalty i.event i.comparison i.insiderActivity i.sourceStatus]

def substantive (components : List SignificanceComponent) : List SignificanceComponent :=
  components.filter fun c => c.substantive && 0 < c.points

def substantivePoints (components : List SignificanceComponent) : ℤ := ((substantive components).map (·.points)).sum

def substantiveFamilies (components : List SignificanceComponent) : ℕ := (substantive components).length

def rawScore (components : List SignificanceComponent) : ℤ := (components.map (·.points)).sum

/-- The score within its floor and cap. -/
def clampScore (raw : ℤ) : ℤ := max scoreFloor (min scoreTotalCap raw)

/-- The reason of a capped or floored total. -/
def totalReason (raw : ℤ) : Option SignificanceReason :=
  let delta := clampScore raw - raw
  if delta = 0 then none
  else
    some
      { code := if delta < 0 then "SCORE_CAPPED" else "SCORE_FLOORED"
        description := "total significance score " ++ (if delta < 0 then "limited to" else "raised to") ++
          " the frozen " ++ (if delta < 0 then "cap" else "floor") ++ " (" ++
          toString (if delta < 0 then scoreTotalCap else scoreFloor) ++ ")"
        points := delta
        component := .scoreTotal
        evidenceRef := none }

/-- A band and the texts of the holds so far. -/
abbrev Held := SignificanceBand × List String

/-- CRITICAL needs points from several families. -/
def holdCritical (points : ℤ) (families : ℕ) (h : Held) : Held :=
  if h.1 = .critical ∧ ¬ (criticalMinSubstantivePoints ≤ points ∧ criticalMinSubstantiveFamilies ≤ families) then
    (.high, h.2 ++ ["CRITICAL held to HIGH: needs >= " ++ toString criticalMinSubstantivePoints ++
      " substantive points across >= " ++ toString criticalMinSubstantiveFamilies ++ " families (had " ++
      toString points ++ " / " ++ toString families ++ ")"])
  else h

/-- HIGH needs some substantive points. -/
def holdHigh (points : ℤ) (h : Held) : Held :=
  if h.1 = .high ∧ points < highMinSubstantivePoints then
    (.medium, h.2 ++ ["HIGH held to MEDIUM: needs >= " ++ toString highMinSubstantivePoints ++
      " substantive points (had " ++ toString points ++ ")"])
  else h

/-- The band is held to `cap`; a text is added when that lowers it. -/
def holdTo (cap : SignificanceBand) (text : String) (h : Held) : Held :=
  if minBand h.1 cap = h.1 then h else (minBand h.1 cap, h.2 ++ [text])

def holdNonSubstantive (points : ℤ) (h : Held) : Held :=
  if points ≤ 0 then
    holdTo nonSubstantiveOnlyBand "band held to LOW: no substantive evidence (recency / watchlist priority only)" h
  else h

/-- The quality triggers that cap the band, sorted. -/
def qualityTriggers (i : Inputs) : List String :=
  (if i.event.dataQualityFlags.contains "missing_acceptance_timestamp" then ["missing_acceptance_timestamp"] else []) ++
    if i.sourceStatus = some "DOWN" then ["source_down"] else []

def holdQuality (triggers : List String) (h : Held) : Held :=
  if triggers.isEmpty then h
  else holdTo .medium ("band held to MEDIUM by a data-quality trigger (" ++ join ", " triggers ++ ")") h

/-- The four holds in their order. -/
def holdBand (score points : ℤ) (families : ℕ) (triggers : List String) : Held :=
  holdQuality triggers
    (holdNonSubstantive points (holdHigh points (holdCritical points families (bandForScore score, []))))

/-- The band of scored components after all holds. -/
def heldBand (components : List SignificanceComponent) (triggers : List String) : Held :=
  holdBand (clampScore (rawScore components)) (substantivePoints components) (substantiveFamilies components) triggers

/-- The flags of the issues that contributed. -/
def outputFlags (i : Inputs) : List String :=
  let flags := i.event.dataQualityFlags.filter qualityEventFlags.contains ++
    (i.comparison.elim [] fun c => c.dataQualityFlags.filter qualityComparisonFlags.contains) ++
    (i.insiderActivity.elim [] fun a => a.dataQualityFlags.filter qualityInsiderFlags.contains) ++
    ((i.sourceStatus.filter fun s => s == "STALE" || s == "DOWN").map ("source_" ++ ·.toLower)).toList ++
    if i.rarityResult.any (·.code = .insufficientHistory) then ["rarity_insufficient_history"] else []
  flags.dedup.insertionSort (· ≤ ·)

def inputsPresent (i : Inputs) : List String :=
  ["event"] ++ (if i.comparison.isSome then ["comparison"] else []) ++
    (if i.insiderActivity.isSome then ["insider"] else []) ++
    if i.onWatchlist || i.pinned then ["watchlist"] else []

/-- `evaluate_significance`. -/
def evaluateSignificance (i : Inputs) : InformationSignificance :=
  let ordered := scoredComponents lib i
  let components := ordered.map (·.component)
  let raw := rawScore components
  let held := heldBand components (qualityTriggers i)
  { significanceId := "SIG:" ++ i.event.eventId ++ ":" ++ i.rulesetVersion
    rulesetVersion := i.rulesetVersion
    eventId := i.event.eventId
    symbol := i.event.symbol.toUpper
    score := clampScore raw
    band := held.1
    rawScore := raw
    reasons := ordered.flatMap (·.reasons) ++ (totalReason raw).toList
    components := components
    substantivePoints := substantivePoints components
    substantiveFamilies := substantiveFamilies components
    dataQualityFlags := outputFlags i
    inputsPresent := inputsPresent i
    bandCapsApplied := held.2
    inputFingerprint := inputFingerprint lib i
    evaluatedAtUtc := i.now }

end TalonX.Significance
