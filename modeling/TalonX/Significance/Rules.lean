import TalonX.Significance.Domain

/-!
# The scoring rules

One function for each category, as in `rules.py`: a component and its reasons.

- `Hit`, `finalize`, `emptyComponent`: the hits of a rule, capped by one more reason;
- `eventTypeBase` to `qualityPenalty`: the rules.
-/

set_option autoImplicit false

namespace TalonX.Significance

open Clock
open TalonX.Core (PyFloat)
open TalonX.Insider (InsiderActivity)

/-- Formatting of floats (`.0%` and `,.0f`), a rounded float as a text, and `source_hash`. -/
structure Lib where
  percent : PyFloat → String
  dollars : PyFloat → String
  roundText : PyFloat → ℕ → String
  sourceHash : List String → String

/-! ## Hits -/

structure Hit where
  code : String
  description : String
  points : ℤ
  evidenceRef : Option String

/-- What a rule returns. -/
structure Scored where
  component : SignificanceComponent
  reasons : List SignificanceReason

def Hit.reason (component : ComponentCode) (h : Hit) : SignificanceReason :=
  ⟨h.code, h.description, h.points, component, h.evidenceRef⟩

def sumPoints (hits : List Hit) : ℤ := (hits.map (·.points)).sum

/-- The floor of the quality penalty. -/
def componentFloor (code : ComponentCode) : Option ℤ :=
  if code = .qualityPenalty then some qualityPenaltyFloor else none

/-- The points after the cap or the floor, and the synthetic reason for the difference. -/
def limited (code : ComponentCode) (raw : ℤ) : ℤ × Option Hit :=
  match (componentCap code).filter (· < raw), (componentFloor code).filter (raw < ·) with
  | some cap, _ =>
    (cap, some ⟨code.value.toUpper ++ "_CONTRIBUTION_CAPPED",
      code.value.replace "_" " " ++ " contribution limited to the frozen category cap (" ++ toString cap ++ ")",
      cap - raw, none⟩)
  | none, some floor =>
    (floor, some ⟨"QUALITY_PENALTY_FLOORED",
      "data-quality penalty limited to the frozen floor (" ++ toString floor ++ ")", floor - raw, none⟩)
  | none, none => (raw, none)

/-- `_finalize`. -/
def finalize (code : ComponentCode) (substantive : Bool) (hits : List Hit) (detail : String := "") : Scored :=
  let raw := sumPoints hits
  let reasons := (hits ++ (limited code raw).2.toList).map (·.reason code)
  { component :=
      { code := code
        points := (limited code raw).1
        rawPoints := raw
        substantive := substantive
        detail := if detail = "" then (reasons.head?.map (·.description)).getD "" else detail }
    reasons := reasons }

/-- `_empty`. -/
def emptyComponent (code : ComponentCode) (substantive : Bool) (detail : String := "") : Scored :=
  ⟨⟨code, 0, 0, substantive, detail⟩, []⟩

/-- Elements of a list that are in another one, sorted: `sorted(set(a) & b)`. -/
def sortedCommon (xs known : List String) : List String :=
  ((xs.filter fun x => known.contains x).dedup).insertionSort (· ≤ ·)

/-! ## Event type, items -/

/-- `_EVENT_TYPE_LABEL`. -/
def eventTypeLabel : EventType → String
  | .earningsResults => "results-of-operations 8-K (Item 2.02)"
  | .materialAgreement => "material definitive agreement 8-K (Item 1.01)"
  | .agreementTerminated => "material agreement termination 8-K (Item 1.02)"
  | .acquisitionDisposition => "asset acquisition or disposition 8-K (Item 2.01)"
  | .debtFinancing => "direct financial obligation 8-K (Item 2.03/2.04)"
  | .restructuring => "exit or disposal costs 8-K (Item 2.05)"
  | .materialImpairment => "material impairment 8-K (Item 2.06)"
  | .delistingNotice => "delisting / listing-transfer 8-K (Item 3.01)"
  | .executiveChange => "director/officer change 8-K (Item 5.02)"
  | .regulationFd => "Regulation FD disclosure 8-K (Item 7.01)"
  | .otherMaterialEvent => "other-events 8-K (Item 8.01)"
  | .unregisteredEquitySale => "unregistered equity sale 8-K (Item 3.02)"
  | .shareholderVoteResult => "shareholder-vote-results 8-K (Item 5.07)"
  | .charterBylawAmendment => "charter/bylaw amendment 8-K (Item 5.03)"
  | .quarterlyFiling => "Form 10-Q quarterly report"
  | .annualFiling => "Form 10-K annual report"
  | .insiderTransaction => "insider ownership filing (Form 3/4/5)"
  | .filingAmendment => "amendment to a prior filing"
  | .unclassified8K => "8-K (items not individually classified)"
  | .unsupportedForm => "filing outside the current coverage set"
  | .earningsExpected => "expected earnings date (unconfirmed)"

/-- The bump of the first rare item, up to three points in all. -/
def highItemHit (event : TextEvent) (base : ℤ) : Option Hit :=
  match sortedCommon event.filingItems highBaseRawItems with
  | code :: _ =>
    if base < 3 then
      some ⟨"HIGH_BASE_RAW_ITEM",
        if code = "1.05" then "material cybersecurity incident (Item 1.05)"
        else "rare structural 8-K item (" ++ code ++ ")", 3 - base, some event.accession⟩
    else none
  | [] => none

/-- `event_type_base`. -/
def eventTypeBase (event : TextEvent) (hasOpenMarketInsider : Bool) : Scored :=
  let base := eventTypeBasePoints event.eventType
  let label := eventTypeLabel event.eventType
  if event.eventType = .insiderTransaction && !hasOpenMarketInsider then
    emptyComponent .eventTypeBase true "insider ownership filing with no open-market transaction"
  else
    let baseHit : Option Hit :=
      if 0 < base then some ⟨"EVENT_TYPE_BASE", label, base, some event.accession⟩ else none
    let amended := event.isAmendment &&
      [EventType.quarterlyFiling, .annualFiling, .earningsResults].contains event.eventType
    let amendHit : Option Hit :=
      if amended then some ⟨"AMENDS_PRIOR_FILING", "amends a previously filed report", 1, some event.accession⟩ else none
    let hits := baseHit.toList ++ (highItemHit event base).toList ++ amendHit.toList
    if hits.isEmpty then emptyComponent .eventTypeBase true label else finalize .eventTypeBase true hits label

/-- `material_items`. -/
def materialItems (event : TextEvent) : Scored :=
  let material := ((event.filingItems.filter fun c => !nonMaterialItems.contains c).dedup).insertionSort (· ≤ ·)
  let n := material.length
  if n < multiItemMinCount then
    emptyComponent .materialItems true (toString n ++ " material 8-K item(s)")
  else
    finalize .materialItems true
      [⟨"MULTI_ITEM_8K",
        "bundled 8-K carrying " ++ toString n ++ " distinct material items (" ++ ", ".intercalate material ++ ")",
        multiItemPoints, some event.accession⟩]

/-! ## The filing comparison -/

variable (lib : Lib)

def sectionLabel : SectionType → String
  | .riskFactors => "Risk Factors"
  | .mdna => "MD&A"
  | .liquidity => "Liquidity & Capital Resources"

/-- One section: it has to be found on both sides. -/
def sectionHit (w : WhatChanged) (comparisonId : Option String) (key : SectionType) : Option Hit :=
  match (w.sections key).filter (·.status = .found) |>.bind (·.diffRatio) with
  | none => none
  | some dr =>
    if (decileChangeThreshold (.section key)).le dr then
      some ⟨"SECTION_CHANGE_DECILE",
        sectionLabel key ++ " rewrite in the top decile of this filing type's history (change magnitude " ++
          lib.percent dr ++ ")", filingChangeDecilePoints, comparisonId⟩
    else if (tercileChangeThreshold (.section key)).le dr then
      some ⟨"SECTION_CHANGE_TERCILE",
        sectionLabel key ++ " changed above the frozen material threshold (change magnitude " ++ lib.percent dr ++ ")",
        filingChangeTercilePoints, comparisonId⟩
    else none

def wholeDocumentHit (w : WhatChanged) (comparisonId : Option String) : Option Hit :=
  match w.wholeDocument with
  | none => none
  | some wdr =>
    if (decileChangeThreshold .wholeDocument).le wdr then
      some ⟨"WHOLE_DOCUMENT_CHANGE",
        "whole-document rewrite in the top decile of history (change magnitude " ++ lib.percent wdr ++ ")",
        filingChangeWholeDocPoints, comparisonId⟩
    else none

def newPassagesHit (w : WhatChanged) (comparisonId : Option String) : Option Hit :=
  w.newMaterialPassages.map fun cnt =>
    ⟨"NEW_MATERIAL_PASSAGES",
      toString cnt ++ " new multi-sentence passage(s) inserted into Risk Factors / MD&A", newMaterialPassagesPoints,
      comparisonId⟩

/-- `filing_change`. -/
def filingChange (whatChanged : Option WhatChanged) (comparisonId : Option String) : Scored :=
  match whatChanged with
  | none => emptyComponent .filingChange true "no filing comparison available"
  | some w =>
    let hits := filingChangeSectionKeys.filterMap (sectionHit lib w comparisonId) ++
      (wholeDocumentHit lib w comparisonId).toList ++ (newPassagesHit w comparisonId).toList
    if hits.isEmpty then emptyComponent .filingChange true "filing changes below thresholds"
    else finalize .filingChange true hits

/-- `{delta:+d}`. -/
def signed (delta : ℤ) : String := if 0 ≤ delta then "+" ++ toString delta else toString delta

/-- `risk_language`. -/
def riskLanguage (whatChanged : Option WhatChanged) (comparisonId : Option String) : Scored :=
  match whatChanged.bind (·.negativeRisk) with
  | none => emptyComponent .riskLanguage true
  | some neg =>
    let delta := neg.totalDelta
    if delta < negativeRiskKeywordDeltaThreshold then
      emptyComponent .riskLanguage true ("risk-term lexicon count change " ++ signed delta ++ " (below threshold)")
    else
      let terms := ", ".intercalate (neg.termsIncreased.take 5)
      finalize .riskLanguage true
        [⟨"RISK_TERM_COUNT_ROSE",
          "count of frozen risk-term lexicon entries rose by " ++ toString delta ++ " vs the prior filing" ++
            (if terms = "" then "" else " (e.g. " ++ terms ++ ")"), riskLanguagePoints, comparisonId⟩]

/-- The first of the largest magnitudes; a `nan` stays only when it comes first. -/
def largestMagnitude : List XbrlChange → Option (PyFloat × XbrlChange) :=
  List.foldl (fun best x =>
    match x.relativeDelta with
    | none => best
    | some delta =>
      let mag := delta.abs
      match best with
      | none => some (mag, x)
      | some b => if b.1.lt mag then some (mag, x) else some b) none

/-- `xbrl_magnitude`. -/
def xbrlMagnitude (whatChanged : Option WhatChanged) (comparisonId : Option String) : Scored :=
  let rows := (whatChanged.elim [] (·.xbrl)).filter fun x =>
    xbrlMagnitudeFields.contains x.field && x.status == "FOUND"
  match largestMagnitude rows with
  | none => emptyComponent .xbrlMagnitude true
  | some (mag, x) =>
    let hit (pts : ℤ) (tier : String) : Scored :=
      finalize .xbrlMagnitude true
        [⟨"XBRL_MAGNITUDE",
          tier ++ " reported " ++ x.field.replace "_" " " ++ " " ++ x.comparison.value ++ " change (magnitude " ++
            lib.percent mag ++ "; size only, not direction)", pts, comparisonId⟩]
    if xbrlDecileAbsRelativeDelta.le mag then hit xbrlDecilePoints "very large"
    else if xbrlTercileAbsRelativeDelta.le mag then hit xbrlTercilePoints "large"
    else
      emptyComponent .xbrlMagnitude true
        ("reported " ++ x.field ++ " " ++ x.comparison.value ++ " change " ++ lib.percent mag ++ " (below threshold)")

/-! ## Insider activity, rarity -/

/-- The largest single transaction of the windows, above zero. -/
def largestTransaction (activity : InsiderActivity) : PyFloat × Option String :=
  activity.openMarketAggregates.foldl (fun best agg =>
    match agg.largestSingleTransactionValue with
    | none => best
    | some v => if best.1.lt v.abs then (v.abs, agg.largestSingleTransactionId) else best) (0, none)

/-- `insider_activity`. At most one cluster contributes. -/
def insiderActivity (activity : Option InsiderActivity) : Scored :=
  match activity with
  | none => emptyComponent .insiderActivity true "no insider activity"
  | some act =>
    let largest := largestTransaction act
    let largeHit : Option Hit :=
      if insiderLargeTransactionUsd.le largest.1 then
        some ⟨"LARGE_OPEN_MARKET_TRANSACTION",
          "an open-market insider transaction of about $" ++ lib.dollars largest.1 ++ " was reported",
          insiderLargeTransactionPoints, largest.2⟩
      else none
    let clusterHit : Option Hit := act.clusters.head?.map fun c =>
      ⟨"INSIDER_CLUSTER",
        toString c.distinctOwners ++ " distinct insiders reported open-market " ++
          (if c.kind = .multipleOpenMarketBuyers then "buyers" else "sellers") ++ " within " ++
          toString c.windowCalendarDays ++ " days", insiderClusterPoints, none⟩
    let hits := largeHit.toList ++ clusterHit.toList
    if hits.isEmpty then emptyComponent .insiderActivity true "insider activity below thresholds"
    else finalize .insiderActivity true hits

/-- `rarity_component`. -/
def rarityComponent (rarityResult : Option RarityResult) : Scored :=
  match rarityResult with
  | none => emptyComponent .rarity true "rarity not assessed"
  | some r =>
    if r.points ≤ 0 then emptyComponent .rarity true r.detail
    else
      finalize .rarity true
        [⟨"EVENT_" ++ r.code.value ++ "_FOR_FILER", r.detail, r.points, some "event_store:rarity_count"⟩]

/-! ## Recency, watchlist, simultaneous events -/

/-- `recency`. The subtraction is `0` for an acceptance in the future. -/
def recency (event : TextEvent) (now : Utc) : Scored :=
  match event.acceptedAtUtc with
  | none => emptyComponent .recency false "no acceptance timestamp"
  | some ts =>
    let age := now.micros - ts.micros
    if age < recencyFresh then
      finalize .recency false
        [⟨"RECENT_ARRIVAL", "filing was accepted within the last 2 hours", recencyPoints, none⟩] "FRESH"
    else
      let state := if age < recencyHorizon then "RECENT" else "AGED"
      emptyComponent .recency false (state ++ " (accepted " ++ toString (age / 3600000000) ++ "h ago)")

/-- `watchlist_priority`. -/
def watchlistPriority (onWatchlist pinned : Bool) : Scored :=
  if pinned then
    finalize .watchlistPriority false
      [⟨"WATCHLIST_PINNED", "this company is pinned on your watchlist (user priority, not market significance)",
        watchlistPinnedPoints, none⟩]
  else if onWatchlist then
    finalize .watchlistPriority false
      [⟨"ON_WATCHLIST", "this company is on your watchlist (user priority, not market significance)",
        watchlistPoints, none⟩]
  else emptyComponent .watchlistPriority false "not on watchlist"

/-- `simultaneous_events`. -/
def simultaneousEvents (distinctTypeCount : ℤ) (windowDays : ℕ) : Scored :=
  if distinctTypeCount < simultaneousMinDistinctTypes then
    emptyComponent .simultaneousEvents true
      (toString distinctTypeCount ++ " distinct event type(s) in " ++ toString windowDays ++ "d")
  else
    finalize .simultaneousEvents true
      [⟨"EVENT_CLUSTER",
        toString distinctTypeCount ++ " distinct disclosure types from this company within " ++ toString windowDays ++
          " days", simultaneousPoints, some "event_store:simultaneous_count"⟩]

/-! ## Data quality -/

/-- A hit for all flags together, when there is one. -/
def flagsHit (code subject : String) (flags : List String) (evidenceRef : Option String) : Option Hit :=
  if flags.isEmpty then none
  else
    some ⟨code, subject ++ " evidence is incomplete (" ++ ", ".intercalate flags ++ ")", qualityPenaltyPerIssue,
      evidenceRef⟩

/-- `quality_penalty`. -/
def qualityPenalty (event : TextEvent) (comparison : Option FilingComparison) (activity : Option InsiderActivity)
    (sourceStatus : Option String) : Scored :=
  let eventHits : List Hit := (sortedCommon event.dataQualityFlags qualityEventFlags).map fun f =>
    ⟨"EVENT_DATA_INCOMPLETE", "event evidence is incomplete (" ++ f ++ ")", qualityPenaltyPerIssue, some event.accession⟩
  let comparisonHit := comparison.bind fun c =>
    flagsHit "FILING_COMPARISON_INCOMPLETE" "filing comparison" (sortedCommon c.dataQualityFlags qualityComparisonFlags)
      (some c.comparisonId)
  let insiderHit := activity.bind fun a =>
    flagsHit "INSIDER_DATA_INCOMPLETE" "insider" (sortedCommon a.dataQualityFlags qualityInsiderFlags) none
  let sourceHit : Option Hit := (sourceStatus.filter fun s => s == "STALE" || s == "DOWN").map fun s =>
    ⟨"SOURCE_NOT_FRESH", "the SEC source feed was " ++ s.toLower ++ " at evaluation time", qualityPenaltyPerIssue, none⟩
  let hits := eventHits ++ comparisonHit.toList ++ insiderHit.toList ++ sourceHit.toList
  if hits.isEmpty then emptyComponent .qualityPenalty false "evidence complete"
  else finalize .qualityPenalty false hits

end TalonX.Significance
