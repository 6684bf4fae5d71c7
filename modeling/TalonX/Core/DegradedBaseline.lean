import TalonX.Core.LongTermHistory

/-!
# Degraded reports and the baseline of a decision

Two histories that differ by degraded reports only, compared at a decision on a report that is not degraded.

- `plain`: a history without its degraded reports; `core_stateOf`: what a state has apart from its reports does not depend
  on them;
- `reportBefore`, `plainBefore`: the report before the latest one, among all reports and among those that are not degraded;
- `LongTermDecision`: what a decision concludes; `decisionOf_congr`: it depends on the two verdicts on the baseline only;
- `degraded_neutral_iff`: exactly when two such histories lead to the same decision.
-/

set_option autoImplicit false

namespace TalonX.Core

open V2

/-! ## Histories without degraded reports -/

def LongTermEvent.degraded (e : LongTermEvent) : Bool := e.report?.any (·.1.isDegraded)

def plain (es : List LongTermEvent) : List LongTermEvent := es.filter fun e => !e.degraded

/-- The state apart from its reports. -/
def LongTermTickerState.core (state : LongTermTickerState) : LongTermTickerState :=
  { state with longtermReport := none, longtermReportAt := none, previousMoatRating := none, previousFairValue := none }

section Plain

variable {cfg : CoreConfig} {k : String} {es es' : List LongTermEvent} {e : LongTermEvent}

theorem core_apply_of_degraded (h : e.degraded = true) (state : LongTermTickerState) :
    (e.apply cfg state).core = state.core := by
  cases e with
  | alerted ticker action price when => cases h
  | received x now =>
    cases x with
    | signal x => cases h
    | report x => rfl

theorem core_apply_congr {s t : LongTermTickerState} (h : s.core = t.core) (e : LongTermEvent) :
    (e.apply cfg s).core = (e.apply cfg t).core := by
  cases s
  cases t
  simp only [LongTermTickerState.core, LongTermTickerState.mk.injEq] at h
  obtain ⟨rfl, rfl, -, -, rfl, rfl, rfl, rfl, rfl, -, -⟩ := h
  cases e with
  | alerted ticker action price when => rfl
  | received x now =>
    cases x with
    | report x => rfl
    | signal x =>
      simp only [LongTermEvent.apply, LongTerm.apply, LongTermTickerState.updateSignal, LongTermTickerState.countStreak]
      split <;> rfl

theorem core_stateOf (cfg : CoreConfig) (k : String) (es : List LongTermEvent) :
    (stateOf cfg k es).core = (stateOf cfg k (plain es)).core := by
  induction es using List.reverseRecOn with
  | nil => rfl
  | append_singleton es e ih =>
    rw [plain, List.filter_append, List.filter_singleton, stateOf_concat]
    cases hd : e.degraded with
    | true =>
      simp only [Bool.not_true, cond_false, List.append_nil]
      split
      · rw [core_apply_of_degraded hd]
        exact ih
      · exact ih
    | false =>
      simp only [Bool.not_false, cond_true, stateOf_concat]
      split
      · exact core_apply_congr ih e
      · exact ih

theorem reportsOf_plain (k : String) (es : List LongTermEvent) :
    reportsOf k (plain es) = (reportsOf k es).filter fun r => !r.1.isDegraded := by
  induction es using List.reverseRecOn with
  | nil => rfl
  | append_singleton es e ih =>
    rw [plain, List.filter_append, List.filter_singleton, reportsOf_concat, List.filter_append]
    cases hreport : e.report? with
    | none =>
      have hd : e.degraded = false := by rw [LongTermEvent.degraded, hreport]; rfl
      rw [hd]
      simp only [Bool.not_false, cond_true, reportsOf_concat, hreport, Option.toList_none, ite_self, List.filter_nil,
        List.append_nil]
      exact ih
    | some r =>
      have hd : e.degraded = r.1.isDegraded := by rw [LongTermEvent.degraded, hreport]; rfl
      cases hr : r.1.isDegraded with
      | true =>
        rw [hd, hr]
        simp only [Bool.not_true, cond_false, List.append_nil]
        refine ih.trans ?_
        split <;> simp [hr]
      | false =>
        rw [hd, hr]
        simp only [Bool.not_false, cond_true, reportsOf_concat, hreport]
        rw [show reportsOf k (es.filter fun e => !e.degraded) = _ from ih]
        split <;> simp [hr]

end Plain

/-! ## The baseline -/

/-- The report that came before the latest one. -/
def reportBefore (k : String) (es : List LongTermEvent) : Option (LongTermResearchReport PyFloat) :=
  (reportsOf k es).dropLast.getLast?.map Prod.fst

/-- The report that came before the latest one, among those that are not degraded. -/
def plainBefore (k : String) (es : List LongTermEvent) : Option (LongTermResearchReport PyFloat) :=
  reportBefore k (plain es)

section Baseline

variable {cfg : CoreConfig} {k : String} {es : List LongTermEvent} {r : LongTermResearchReport PyFloat × Instant}

/-- The latest report is the latest one that is not degraded. -/
theorem getLast?_reportsOf_plain (hlast : (reportsOf k es).getLast? = some r) (hr : r.1.isDegraded = false) :
    (reportsOf k (plain es)).getLast? = some r := by
  obtain ⟨rs, hrs⟩ := List.getLast?_eq_some_iff.1 hlast
  rw [reportsOf_plain, hrs, List.filter_append, List.filter_singleton, hr]
  exact List.getLast?_concat

/-- With no degraded report right before it, the report before it is not degraded, or missing. -/
theorem plainBefore_eq (hlast : (reportsOf k es).getLast? = some r) (hr : r.1.isDegraded = false)
    (hbefore : (reportBefore k es).any (·.isDegraded) = false) : plainBefore k es = reportBefore k es := by
  obtain ⟨rs, hrs⟩ := List.getLast?_eq_some_iff.1 hlast
  unfold plainBefore reportBefore at *
  rw [reportsOf_plain, hrs, List.filter_append, List.filter_singleton, hr]
  rw [hrs, List.dropLast_concat] at hbefore
  simp only [Bool.not_false, cond_true, List.dropLast_concat]
  cases rs using List.reverseRecOn with
  | nil => rfl
  | append_singleton rs b =>
    rw [List.getLast?_concat, Option.map_some, Option.any_some] at hbefore
    rw [List.filter_append, List.filter_singleton, hbefore, List.getLast?_concat]
    exact congrArg (Option.map Prod.fst) List.getLast?_concat

theorem moat_stateOf (cfg : CoreConfig) (k : String) (es : List LongTermEvent) :
    (stateOf cfg k es).previousMoatRating = (reportBefore k es).map (·.moatRating) := by
  rw [(reportsOnFile cfg k es).moat, reportBefore, Option.map_map]
  rfl

theorem fair_stateOf (cfg : CoreConfig) (k : String) (es : List LongTermEvent) :
    (stateOf cfg k es).previousFairValue = (reportBefore k es).map (·.dcfFairValuePerShare) := by
  rw [(reportsOnFile cfg k es).fair, reportBefore, Option.map_map]
  rfl

end Baseline

/-! ## Decisions -/

def Evaluation.map {α β : Type} (f : α → β) : Evaluation α → Evaluation β
  | .alert a => .alert (f a)
  | .suppressed reason => .suppressed reason
  | .zeroDivision => .zeroDivision

theorem Evaluation.map_retrigger {α β : Type} (f : α → β) (baseline : Option PyFloat) (price : PyFloat) (limit : ℚ)
    (alert : α) : (retrigger baseline price limit alert).map f = retrigger baseline price limit (f alert) := by
  cases baseline with
  | none => rfl
  | some last =>
    simp only [retrigger]
    cases unmoved? price last limit with
    | none => rfl
    | some unmoved => cases unmoved <;> rfl

/-- What `evaluate_long_term` concludes: the action, or why there is none; the verdict on the moat; the fair value and the
margin of safety that are reported as the previous ones. -/
structure LongTermDecision where
  action : Evaluation AlertAction
  moatDowngraded : Bool
  previousFairValue : Option PyFloat
  previousMarginOfSafetyPct : Option PyFloat
  deriving DecidableEq, Repr

def decisionOf (cfg : CoreConfig) (state : LongTermTickerState) (now correlatedAt : Instant) : LongTermDecision where
  action := (evaluateLongTermVerbose cfg state now correlatedAt).map (·.action)
  moatDowngraded := state.longtermReport.any (moatDowngraded state)
  previousFairValue := state.previousFairValue
  previousMarginOfSafetyPct :=
    state.previousFairValue.bind fun fair => state.lastAlertPrice.bind fun price => marginOfSafety fair price

/-- The alert reports what the decision says. -/
theorem decisionOf_alert {cfg : CoreConfig} {state : LongTermTickerState} {now correlatedAt : Instant}
    {a : LongTermActionableAlert PyFloat} (h : evaluateLongTermVerbose cfg state now correlatedAt = .alert a) :
    (decisionOf cfg state now correlatedAt).action = .alert a.action ∧
      (decisionOf cfg state now correlatedAt).previousFairValue = a.previousFairValue ∧
      (decisionOf cfg state now correlatedAt).previousMarginOfSafetyPct = a.previousMarginOfSafetyPct := by
  obtain ⟨signal, report, action, -, -, -, -, -, rfl⟩ := evaluateLongTerm_eq_alert h
  refine ⟨?_, rfl, rfl⟩
  rw [decisionOf, h]
  rfl

/-- States that agree on all but the baseline decide alike, when they agree on the verdict and on the fair value. -/
theorem decisionOf_congr {cfg : CoreConfig} {s t : LongTermTickerState} (hcore : s.core = t.core)
    (hreport : s.longtermReport = t.longtermReport) (hat : s.longtermReportAt = t.longtermReportAt)
    (hverdict : s.longtermReport.any (moatDowngraded s) = t.longtermReport.any (moatDowngraded t))
    (hfair : s.previousFairValue = t.previousFairValue) (now correlatedAt : Instant) :
    decisionOf cfg s now correlatedAt = decisionOf cfg t now correlatedAt := by
  cases s
  cases t
  simp only [LongTermTickerState.core, LongTermTickerState.mk.injEq] at hcore
  obtain ⟨rfl, rfl, -, -, rfl, rfl, rfl, rfl, rfl, -, -⟩ := hcore
  obtain rfl := hreport
  obtain rfl := hat
  obtain rfl := hfair
  simp only [decisionOf, LongTermDecision.mk.injEq, and_true]
  refine ⟨?_, hverdict⟩
  rename_i signal signalAt report reportAt alertAt alertAction alertPrice streak year moat fair moat'
  cases signal with
  | none => rfl
  | some signal =>
    cases report with
    | none => rfl
    | some report =>
      have haction : longTermActionFor cfg
          ⟨some signal, signalAt, some report, reportAt, alertAt, alertAction, alertPrice, streak, year, moat, fair⟩
          signal report = longTermActionFor cfg
          ⟨some signal, signalAt, some report, reportAt, alertAt, alertAction, alertPrice, streak, year, moat', fair⟩
          signal report := by
        unfold longTermActionFor
        rw [show moatDowngraded _ report = moatDowngraded _ report from hverdict]
        rfl
      simp only [evaluateLongTermVerbose, haction]
      -- the gates do not look at the baseline
      repeat' split
      all_goals first | rfl | skip
      rw [Evaluation.map_retrigger, Evaluation.map_retrigger]
      rfl

/-! ## Two histories -/

/-- A degraded report carries placeholders: no moat, no quality, no fair value. -/
def LongTermResearchReport.Placeholder (r : LongTermResearchReport PyFloat) : Prop :=
  r.isDegraded = true → r.moatRating = .none ∧ r.qualityScore = 0 ∧ r.dcfFairValuePerShare = 0

instance (r : LongTermResearchReport PyFloat) : Decidable r.Placeholder :=
  inferInstanceAs (Decidable (r.isDegraded = true → _ ∧ _ ∧ _))

/-- The report is a downgrade from this one. -/
def downgradedFrom (report : LongTermResearchReport PyFloat) (before : Option (LongTermResearchReport PyFloat)) : Bool :=
  before.any fun b => moatRank report.moatRating < moatRank b.moatRating

section Neutral

variable {cfg : CoreConfig} {k : String} {es es' : List LongTermEvent} {r : LongTermResearchReport PyFloat × Instant}

theorem verdict_stateOf (cfg : CoreConfig) (hlast : (reportsOf k es).getLast? = some r) :
    (stateOf cfg k es).longtermReport.any (moatDowngraded (stateOf cfg k es)) =
      downgradedFrom r.1 (reportBefore k es) := by
  rw [(reportsOnFile cfg k es).report, hlast, Option.map_some, Option.any_some, moatDowngraded, moat_stateOf,
    Option.any_map]
  rfl

/-- The decisions agree, when the reports before agree in what a decision takes from them. -/
theorem decisionOf_eq_iff (hplain : plain es = plain es') (hlast : (reportsOf k es).getLast? = some r)
    (hlast' : (reportsOf k es').getLast? = some r) (now correlatedAt : Instant) :
    decisionOf cfg (stateOf cfg k es) now correlatedAt = decisionOf cfg (stateOf cfg k es') now correlatedAt ↔
      downgradedFrom r.1 (reportBefore k es) = downgradedFrom r.1 (reportBefore k es') ∧
        (reportBefore k es).map (·.dcfFairValuePerShare) = (reportBefore k es').map (·.dcfFairValuePerShare) := by
  rw [← verdict_stateOf cfg hlast, ← verdict_stateOf cfg hlast', ← fair_stateOf cfg, ← fair_stateOf cfg]
  constructor
  · intro h
    exact ⟨congrArg LongTermDecision.moatDowngraded h, congrArg LongTermDecision.previousFairValue h⟩
  · rintro ⟨hverdict, hfair⟩
    refine decisionOf_congr ?_ ?_ ?_ hverdict hfair now correlatedAt
    · rw [core_stateOf, hplain, ← core_stateOf]
    · rw [(reportsOnFile cfg k es).report, (reportsOnFile cfg k es').report, hlast, hlast']
    · rw [(reportsOnFile cfg k es).reportAt, (reportsOnFile cfg k es').reportAt, hlast, hlast']

/-- A degraded report compares like one without fair value and without a better moat. -/
theorem agree_placeholder {report d : LongTermResearchReport PyFloat} {b : Option (LongTermResearchReport PyFloat)}
    (hd : d.isDegraded = true) (hplaceholder : d.Placeholder) :
    (downgradedFrom report (some d) = downgradedFrom report b ∧
        (some d).map (·.dcfFairValuePerShare) = b.map (·.dcfFairValuePerShare)) ↔
      ∃ x, b = some x ∧ x.dcfFairValuePerShare = 0 ∧ moatRank x.moatRating ≤ moatRank report.moatRating := by
  obtain ⟨hmoat, -, hfair⟩ := hplaceholder hd
  have hverdict : downgradedFrom report (some d) = false := by
    rw [downgradedFrom, Option.any_some, hmoat]
    exact decide_eq_false (Nat.not_lt_zero _)
  rw [hverdict, Option.map_some, hfair]
  cases b with
  | none => simp
  | some x =>
    simp only [downgradedFrom, Option.any_some, Option.map_some, Option.some.injEq, exists_eq_left']
    rw [@eq_comm Bool, decide_eq_false_iff_not, not_lt, @eq_comm PyFloat 0]
    exact and_comm

theorem exists_of_any {before : Option (LongTermResearchReport PyFloat)} (h : before.any (·.isDegraded) = true) :
    ∃ d, before = some d ∧ d.isDegraded = true := by
  cases before with
  | none => cases h
  | some d => exact ⟨d, rfl, h⟩

theorem mem_of_reportBefore {d : LongTermResearchReport PyFloat} (h : reportBefore k es = some d) :
    ∃ x ∈ reportsOf k es, x.1 = d := by
  obtain ⟨x, hx, rfl⟩ := Option.map_eq_some_iff.1 h
  exact ⟨x, List.dropLast_subset _ (List.mem_of_getLast? hx), rfl⟩

/-- Two histories that differ by degraded reports only, whose latest reports are not degraded: they lead to the same
decision, exactly when a degraded report stands right before the latest one in both or in neither, or else the last report
before it that is not degraded compares like the placeholders. -/
theorem degraded_neutral_iff {r' : LongTermResearchReport PyFloat × Instant} (hplain : plain es = plain es')
    (hlast : (reportsOf k es).getLast? = some r) (hlast' : (reportsOf k es').getLast? = some r')
    (hr : r.1.isDegraded = false) (hr' : r'.1.isDegraded = false) (hplaceholder : ∀ x ∈ reportsOf k es, x.1.Placeholder)
    (hplaceholder' : ∀ x ∈ reportsOf k es', x.1.Placeholder) (now correlatedAt : Instant) :
    decisionOf cfg (stateOf cfg k es) now correlatedAt = decisionOf cfg (stateOf cfg k es') now correlatedAt ↔
      (reportBefore k es).any (·.isDegraded) = (reportBefore k es').any (·.isDegraded) ∨
        ∃ b, plainBefore k es = some b ∧ b.dcfFairValuePerShare = 0 ∧
          moatRank b.moatRating ≤ moatRank r.1.moatRating := by
  obtain rfl : r = r' := by
    have hsame := getLast?_reportsOf_plain hlast hr
    rw [hplain, getLast?_reportsOf_plain hlast' hr'] at hsame
    exact (Option.some.inj hsame).symm
  have hbefore : plainBefore k es = plainBefore k es' := by rw [plainBefore, plainBefore, hplain]
  rw [decisionOf_eq_iff hplain hlast hlast']
  cases hd : (reportBefore k es).any (·.isDegraded) with
  | false =>
    have hes := plainBefore_eq hlast hr hd
    cases hd' : (reportBefore k es').any (·.isDegraded) with
    | false =>
      rw [← hes, ← plainBefore_eq hlast' hr' hd', hbefore]
      simp
    | true =>
      obtain ⟨d, hsome, hdeg⟩ := exists_of_any hd'
      obtain ⟨x, hx, rfl⟩ := mem_of_reportBefore hsome
      rw [← hes, hsome, @eq_comm Bool (downgradedFrom _ _), @eq_comm (Option PyFloat) (Option.map _ _),
        agree_placeholder hdeg (hplaceholder' x hx)]
      simp
  | true =>
    obtain ⟨d, hsome, hdeg⟩ := exists_of_any hd
    obtain ⟨x, hx, rfl⟩ := mem_of_reportBefore hsome
    cases hd' : (reportBefore k es').any (·.isDegraded) with
    | false =>
      rw [← plainBefore_eq hlast' hr' hd', ← hbefore, hsome, agree_placeholder hdeg (hplaceholder x hx)]
      simp
    | true =>
      obtain ⟨d', hsome', hdeg'⟩ := exists_of_any hd'
      obtain ⟨x', hx', rfl⟩ := mem_of_reportBefore hsome'
      obtain ⟨hmoat, -, hfair⟩ := hplaceholder' x' hx' hdeg'
      rw [hsome, hsome', agree_placeholder hdeg (hplaceholder x hx)]
      simp [hmoat, hfair, moatRank]

end Neutral

/-! ## Histories on fixed inputs -/

def fundamentals : FundamentalFactorSignal PyFloat :=
  { ticker := "AAPL", fiscalYear := 2025, roic := some (.fin (2 / 10)), piotroskiFScore := none, fcfYield := none
    altmanZScore := none, debtToEbitdaProxy := none, price := .fin 50, message := "", isEarningsRelated := false
    computedAt := 0 }

def researched (moat : MoatRating) (fair : ℚ) (quality : ℕ) (isDegraded : Bool) : LongTermResearchReport PyFloat :=
  { ticker := "AAPL", triggeringSignal := fundamentals, moatRating := moat, capitalAllocationAssessment := ""
    dcfFairValuePerShare := .fin fair, qualityScore := quality, summary := "", keyFindings := [], riskFactors := []
    modelUsed := "", guidanceRevisionNotes := none, revenueEpsSurprise := none, isEarningsRelated := false
    isStale := false, isDegraded, fromCache := false, generatedAt := 0, publishedAt := 0 }

def aQuarter : CoreConfig :=
  { minConfidence := 0, correlationWindow := 0, tickerCooldown := 0, priceDeltaRetriggerPct := 0, qualityScoreMin := 7
    marginOfSafetyPct := 2 / 10, valuationPremiumPct := 2 / 10, assumedWacc := 9 / 100, maxDebtToEbitda := 4
    correlationWindowLongTerm := 90, tickerCooldownLongTerm := 30, priceDeltaRetriggerPctLongTerm := 1 / 10 }

/-- A wide moat, then a narrow one, with these reports between them. -/
def narrowed (before between : List (LongTermResearchReport PyFloat)) : List LongTermEvent :=
  (LongTerm.signal fundamentals :: (before ++ [researched .wide 100 8 false] ++ between ++
    [researched .narrow 100 8 false]).map LongTerm.report).map (.received · 0)

/-- The placeholders of a degraded report. -/
def unavailable : LongTermResearchReport PyFloat := researched .none 0 0 true

/-- A degraded report at the start makes no difference. -/
theorem degraded_neutral_sample :
    decisionOf aQuarter (stateOf aQuarter "AAPL" (narrowed [unavailable] [])) 1 1 =
      decisionOf aQuarter (stateOf aQuarter "AAPL" (narrowed [] [])) 1 1 := by
  have hlast : ∀ before ∈ [[unavailable], []], (reportsOf "AAPL" (narrowed before [])).getLast? =
      some (researched .narrow 100 8 false, 0) := by decide +kernel
  exact (degraded_neutral_iff (by rfl) (hlast _ (by simp)) (hlast _ (by simp)) rfl rfl (by decide +kernel)
    (by decide +kernel) 1 1).2 (.inl (by decide +kernel))

/-- A degraded report between the two hides the downgrade: a purchase is recommended instead of a rebalancing. -/
theorem degraded_report_hides_downgrade :
    plain (narrowed [] [unavailable]) = plain (narrowed [] []) ∧
      (decisionOf aQuarter (stateOf aQuarter "AAPL" (narrowed [] [unavailable])) 1 1).action = .alert .highConvictionBuy ∧
      (decisionOf aQuarter (stateOf aQuarter "AAPL" (narrowed [] [])) 1 1).action = .alert .underPerformRebalance :=
  ⟨rfl, by decide +kernel, by decide +kernel⟩

end TalonX.Core
