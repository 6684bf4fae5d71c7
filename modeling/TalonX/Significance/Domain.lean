import Mathlib.Data.List.Infix
import TalonX.Insider.Activity
import TalonX.Significance.Config

/-!
# Inputs and results of the significance engine

- `TextEvent`, `FilingComparison`, `RarityResult`: the inputs, with the fields that are read;
- `WhatChanged`, `buildWhatChanged`: the summary of a comparison that the rules read;
- `SignificanceComponent`, `SignificanceReason`, `InformationSignificance`: the results.
-/

set_option autoImplicit false

namespace TalonX.Significance

open Clock
open TalonX.Core (PyFloat)
open TalonX.Insider (InsiderActivity)

/-! ## Inputs -/

structure TextEvent where
  eventId : String
  symbol : String
  eventType : EventType
  formType : String
  filingItems : List String
  accession : String
  acceptedAtUtc : Option Utc
  isAmendment : Bool
  sourceHash : Option String
  dataQualityFlags : List String

inductive SectionStatus
  | found
  | notFound
  | ambiguous
  | multipleMatches
  deriving DecidableEq

structure WholeDocumentChange where
  diffRatio : PyFloat
  exceedsMaterialThreshold : Bool

structure SectionChange where
  sectionType : SectionType
  status : SectionStatus
  diffRatio : Option PyFloat

inductive KeywordCategory
  | negativeRisk
  | positiveBusiness
  deriving DecidableEq

structure KeywordCategorySummary where
  category : KeywordCategory
  totalDelta : ℤ
  termsIncreased : List String

inductive XbrlPeriodComparison
  | yoy
  | qoq
  deriving DecidableEq

def XbrlPeriodComparison.value : XbrlPeriodComparison → String
  | .yoy => "YOY"
  | .qoq => "QOQ"

structure XbrlChange where
  field : String
  comparison : XbrlPeriodComparison
  relativeDelta : Option PyFloat
  status : String

structure PassageChange where
  sectionName : String

structure FilingComparison where
  comparisonId : String
  currentDocumentHash : Option String
  priorDocumentHash : Option String
  wholeDocumentChange : Option WholeDocumentChange
  sectionChanges : List SectionChange
  keywordCategorySummaries : List KeywordCategorySummary
  xbrlChanges : List XbrlChange
  newPassages : List PassageChange
  dataQualityFlags : List String

inductive RarityCode
  | rare
  | uncommon
  | common
  | insufficientHistory
  deriving DecidableEq

def RarityCode.value : RarityCode → String
  | .rare => "RARE"
  | .uncommon => "UNCOMMON"
  | .common => "COMMON"
  | .insufficientHistory => "INSUFFICIENT_HISTORY"

structure RarityResult where
  code : RarityCode
  points : ℤ
  detail : String

/-- The arguments of `evaluate_significance`. -/
structure Inputs where
  event : TextEvent
  comparison : Option FilingComparison
  insiderActivity : Option InsiderActivity
  rarityResult : Option RarityResult
  onWatchlist : Bool
  pinned : Bool
  simultaneousTypeCount : ℤ
  sourceStatus : Option String
  now : Utc
  rulesetVersion : String

/-! ## What changed -/

/-- The parts of `what_changed` that the rules read. A later entry of a dictionary replaces an earlier one. -/
structure WhatChanged where
  sections : SectionType → Option SectionChange
  wholeDocument : Option PyFloat
  negativeRisk : Option KeywordCategorySummary
  xbrl : List XbrlChange
  newMaterialPassages : Option ℕ

/-- `_notable_changes` of the kind `new_material_passages`. -/
def newMaterialPassages (c : FilingComparison) : Option ℕ :=
  let newRfMdna := c.newPassages.filter fun p => p.sectionName == "risk_factors" || p.sectionName == "mdna"
  if newMaterialPassagesMinCount ≤ newRfMdna.length then some newRfMdna.length else none

/-- `build_what_changed`. -/
def buildWhatChanged (c : FilingComparison) : WhatChanged where
  sections s := (c.sectionChanges.filter (·.sectionType = s)).getLast?
  wholeDocument := c.wholeDocumentChange.map (·.diffRatio)
  negativeRisk := (c.keywordCategorySummaries.filter (·.category = .negativeRisk)).getLast?
  xbrl := c.xbrlChanges
  newMaterialPassages := newMaterialPassages c

/-! ## Results -/

structure SignificanceComponent where
  code : ComponentCode
  points : ℤ
  rawPoints : ℤ
  substantive : Bool
  detail : String
  deriving DecidableEq

structure SignificanceReason where
  code : String
  description : String
  points : ℤ
  component : ComponentCode
  evidenceRef : Option String
  deriving DecidableEq

structure InformationSignificance where
  significanceId : String
  rulesetVersion : String
  eventId : String
  symbol : String
  score : ℤ
  band : SignificanceBand
  rawScore : ℤ
  reasons : List SignificanceReason
  components : List SignificanceComponent
  substantivePoints : ℤ
  substantiveFamilies : ℕ
  dataQualityFlags : List String
  inputsPresent : List String
  bandCapsApplied : List String
  inputFingerprint : String
  evaluatedAtUtc : Utc

/-- `_FORBIDDEN_CODE_TOKENS`. -/
def forbiddenCodeTokens : List String :=
  ["buy", "sell", "hold", "bullish", "bearish", "long", "short", "alpha", "edge", "opportunity", "conviction",
    "signal_strength", "expected_return", "target", "forecast", "outlook", "upside", "downside", "probability",
    "recommend"]

/-- `_clean_code` of both models accepts the code. The codes have no blanks around them. -/
def cleanCode (code : String) : Bool :=
  forbiddenCodeTokens.all fun token => !decide (token.toList <:+: code.toList.map Char.toLower)

end TalonX.Significance
