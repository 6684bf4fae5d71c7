import TalonX.Core.PyFloat

/-!
# The frozen ruleset

The constants of `config.py`: points, caps, thresholds and bands.

- `EventType`, `eventTypeBasePoints`: what a filing is, and its base points;
- `ComponentCode`, `componentCap`: the scoring categories and their caps;
- `SignificanceBand`, `bandForScore`, `minBand`: bands in ascending order.
-/

set_option autoImplicit false

namespace TalonX.Significance

open TalonX.Core (PyFloat)

inductive EventType
  | earningsResults | earningsExpected | materialAgreement | agreementTerminated | acquisitionDisposition
  | debtFinancing | restructuring | executiveChange | regulationFd | otherMaterialEvent | shareholderVoteResult
  | charterBylawAmendment | unregisteredEquitySale | materialImpairment | delistingNotice | quarterlyFiling
  | annualFiling | insiderTransaction | filingAmendment | unclassified8K | unsupportedForm
  deriving DecidableEq

/-- The value of the enumeration. -/
def EventType.value : EventType → String
  | .earningsResults => "EARNINGS_RESULTS"
  | .earningsExpected => "EARNINGS_EXPECTED"
  | .materialAgreement => "MATERIAL_AGREEMENT"
  | .agreementTerminated => "AGREEMENT_TERMINATED"
  | .acquisitionDisposition => "ACQUISITION_DISPOSITION"
  | .debtFinancing => "DEBT_FINANCING"
  | .restructuring => "RESTRUCTURING"
  | .executiveChange => "EXECUTIVE_CHANGE"
  | .regulationFd => "REGULATION_FD"
  | .otherMaterialEvent => "OTHER_MATERIAL_EVENT"
  | .shareholderVoteResult => "SHAREHOLDER_VOTE_RESULT"
  | .charterBylawAmendment => "CHARTER_BYLAW_AMENDMENT"
  | .unregisteredEquitySale => "UNREGISTERED_EQUITY_SALE"
  | .materialImpairment => "MATERIAL_IMPAIRMENT"
  | .delistingNotice => "DELISTING_NOTICE"
  | .quarterlyFiling => "QUARTERLY_FILING"
  | .annualFiling => "ANNUAL_FILING"
  | .insiderTransaction => "INSIDER_TRANSACTION"
  | .filingAmendment => "FILING_AMENDMENT"
  | .unclassified8K => "UNCLASSIFIED_8K"
  | .unsupportedForm => "UNSUPPORTED_FORM"

def rulesetVersion : String := "information-significance-v1"

/-- `EVENT_TYPE_BASE_POINTS`. -/
def eventTypeBasePoints : EventType → ℤ
  | .acquisitionDisposition | .restructuring | .materialImpairment | .delistingNotice => 3
  | .earningsResults | .materialAgreement | .agreementTerminated | .debtFinancing | .executiveChange
  | .regulationFd | .annualFiling => 2
  | .otherMaterialEvent | .unregisteredEquitySale | .unclassified8K | .filingAmendment | .quarterlyFiling
  | .insiderTransaction => 1
  | .shareholderVoteResult | .charterBylawAmendment | .earningsExpected | .unsupportedForm => 0

def highBaseRawItems : List String := ["1.05", "2.01", "2.05", "2.06", "3.01"]

def nonMaterialItems : List String := ["9.01"]

def multiItemMinCount : ℕ := 3

def multiItemPoints : ℤ := 1

inductive SectionType
  | riskFactors
  | mdna
  | liquidity
  deriving DecidableEq

/-- The keys of the two threshold tables. -/
inductive ChangeKey
  | wholeDocument
  | section (s : SectionType)
  deriving DecidableEq

def tercileChangeThreshold : ChangeKey → PyFloat
  | .wholeDocument => .fin (1339 / 10000)
  | .section .riskFactors => .fin (1093 / 10000)
  | .section .mdna => .fin (1659 / 10000)
  | .section .liquidity => .fin (1511 / 10000)

def decileChangeThreshold : ChangeKey → PyFloat
  | .wholeDocument => .fin (2239 / 10000)
  | .section .riskFactors => .fin (6466 / 10000)
  | .section .mdna => .fin (2934 / 10000)
  | .section .liquidity => .fin (3113 / 10000)

def filingChangeSectionKeys : List SectionType := [.riskFactors, .mdna, .liquidity]

def filingChangeDecilePoints : ℤ := 2

def filingChangeTercilePoints : ℤ := 1

def filingChangeWholeDocPoints : ℤ := 1

def newMaterialPassagesMinCount : ℕ := 2

def newMaterialPassagesPoints : ℤ := 1

def negativeRiskKeywordDeltaThreshold : ℤ := 15

def riskLanguagePoints : ℤ := 1

def xbrlMagnitudeFields : List String := ["revenue", "eps_diluted"]

def xbrlDecileAbsRelativeDelta : PyFloat := .fin (1 / 2)

def xbrlTercileAbsRelativeDelta : PyFloat := .fin (1 / 5)

def xbrlDecilePoints : ℤ := 2

def xbrlTercilePoints : ℤ := 1

def insiderLargeTransactionUsd : PyFloat := .fin 1000000

def insiderLargeTransactionPoints : ℤ := 1

def insiderClusterPoints : ℤ := 2

/-- In microseconds, as the times are. -/
def recencyFresh : ℕ := 2 * 60 * 60 * 1000000

def recencyHorizon : ℕ := 48 * 60 * 60 * 1000000

def recencyPoints : ℤ := 1

def watchlistPoints : ℤ := 1

def watchlistPinnedPoints : ℤ := 2

def simultaneousWindowDays : ℕ := 7

def simultaneousMinDistinctTypes : ℤ := 2

def simultaneousPoints : ℤ := 1

def qualityPenaltyPerIssue : ℤ := -1

def qualityPenaltyFloor : ℤ := -2

def qualityEventFlags : List String :=
  ["missing_acceptance_timestamp", "primary_document_unavailable", "ambiguous_session_bucket",
    "session_calendar_unavailable"]

def qualityComparisonFlags : List String :=
  ["missing_prior_filing", "prior_is_first_filing", "section_not_found", "ambiguous_section", "xbrl_unavailable",
    "xbrl_concept_missing", "current_document_unavailable", "prior_document_unavailable", "low_quality_comparison",
    "prior_form_mismatch"]

def qualityInsiderFlags : List String :=
  ["unknown_transaction_code", "role_unresolved", "missing_price", "missing_shares", "missing_transaction_date",
    "symbol_unresolved"]

/-! ## Categories -/

/-- The categories, and `score_total`, which owns the reason of a capped or floored total. -/
inductive ComponentCode
  | eventTypeBase
  | materialItems
  | filingChange
  | riskLanguage
  | xbrlMagnitude
  | insiderActivity
  | rarity
  | simultaneousEvents
  | recency
  | watchlistPriority
  | qualityPenalty
  | scoreTotal
  deriving DecidableEq

def ComponentCode.value : ComponentCode → String
  | .eventTypeBase => "event_type_base"
  | .materialItems => "material_items"
  | .filingChange => "filing_change"
  | .riskLanguage => "risk_language"
  | .xbrlMagnitude => "xbrl_magnitude"
  | .insiderActivity => "insider_activity"
  | .rarity => "rarity"
  | .simultaneousEvents => "simultaneous_events"
  | .recency => "recency"
  | .watchlistPriority => "watchlist_priority"
  | .qualityPenalty => "quality_penalty"
  | .scoreTotal => "score_total"

/-- `COMPONENT_CAPS.get(code)`. -/
def componentCap : ComponentCode → Option ℤ
  | .eventTypeBase => some 3
  | .materialItems => some 1
  | .filingChange => some 3
  | .riskLanguage => some 1
  | .xbrlMagnitude => some 2
  | .insiderActivity => some 3
  | .rarity => some 2
  | .simultaneousEvents => some 1
  | .recency => some 1
  | .watchlistPriority => some 2
  | .qualityPenalty => none
  | .scoreTotal => none

def scoreTotalCap : ℤ := 12

def scoreFloor : ℤ := 0

/-! ## Bands -/

inductive SignificanceBand
  | low
  | medium
  | high
  | critical
  deriving DecidableEq

/-- `_BAND_ORDER`. -/
def SignificanceBand.order : SignificanceBand → ℕ
  | .low => 0
  | .medium => 1
  | .high => 2
  | .critical => 3

instance : LE SignificanceBand := ⟨fun a b => a.order ≤ b.order⟩

instance (a b : SignificanceBand) : Decidable (a ≤ b) := inferInstanceAs (Decidable (a.order ≤ b.order))

/-- `band_for_score`. -/
def bandForScore (score : ℤ) : SignificanceBand :=
  if 7 ≤ score then .critical else if 4 ≤ score then .high else if 2 ≤ score then .medium else .low

/-- `min_band`. -/
def minBand (a b : SignificanceBand) : SignificanceBand := if a ≤ b then a else b

def criticalMinSubstantivePoints : ℤ := 5

def criticalMinSubstantiveFamilies : ℕ := 2

def highMinSubstantivePoints : ℤ := 2

def nonSubstantiveOnlyBand : SignificanceBand := .low

end TalonX.Significance
