import Mathlib.Data.List.Sort
import TalonX.Quant.Contracts

/-!
# The gates between a candidate and the throttle

- `failsMinVolatility`, `evaluateRegime`, `evaluateActiveVolatilityGate`: may the bar be evaluated at all;
- `Gate`: what a gate rejects of a batch and what it keeps; `chain`: gate after gate, until nothing is left;
- `scannerGates`, `replayGates`: the gates of the live scanner and those of a replay;
- `replay_parity`: what the two have in common.
-/

set_option autoImplicit false

namespace TalonX.Quant

/-! ## Volatility -/

def failsMinVolatility (snapshot : IndicatorSnapshot) (config : StrategyConfig) : Bool :=
  match snapshot.atr with
  | none => false
  | some atr => if snapshot.price = 0 then false else atr / snapshot.price * 100 < config.minAtrPct

structure VolatilityRegimeSnapshot where
  atr15m : Option ℚ
  atrPct15m : Option ℚ
  ready15m : Bool
  atr60m : Option ℚ
  atrPct60m : Option ℚ
  ready60m : Bool
  asOf : Timestamp

def provisionalRegime15mThresholdPct : ℚ := 329 / 1000

def provisionalRegime60mThresholdPct : ℚ := 839 / 1000

inductive RegimeReason
  | regimeEligible
  | regimeStateNotReady
  | regime15mBelowThreshold
  | regime60mBelowThreshold
  | regimeBothBelowThreshold
  deriving DecidableEq

structure RegimeEligibilityResult where
  eligible : Bool
  ready : Bool
  reason : RegimeReason

def evaluateRegime (snapshot : VolatilityRegimeSnapshot) : RegimeEligibilityResult :=
  match snapshot.ready15m, snapshot.ready60m, snapshot.atrPct15m, snapshot.atrPct60m with
  | true, true, some atrPct15m, some atrPct60m =>
    let below15m : Bool := atrPct15m < provisionalRegime15mThresholdPct
    let below60m : Bool := atrPct60m < provisionalRegime60mThresholdPct
    let reason : RegimeReason :=
      if below15m && below60m then .regimeBothBelowThreshold
      else if below15m then .regime15mBelowThreshold
      else if below60m then .regime60mBelowThreshold
      else .regimeEligible
    ⟨reason = .regimeEligible, true, reason⟩
  | _, _, _, _ => ⟨false, false, .regimeStateNotReady⟩

inductive Reason
  | lowVolatility
  | lowVolatilityRegime
  | globalRiskDegraded
  | ukSessionClosed
  | usMarketSessionClosed
  | openingBlackout
  | closingBlackout
  | lossLockout
  | cooldown
  | lowConfluence
  | lowRiskReward
  | htfDataUnavailable
  | trendGate
  | premarketProviderUnsupported
  | premarketLiquidity
  | newsCatalyst
  | throttle
  | expiredInThrottleQueue
  | finalRevalidationDataUnavailable
  | rrDegradedDuringThrottle
  | noActivePosition
  | postEodFlattenNoNewEntry
  | geometryInvalidatedAtFill
  deriving DecidableEq

def evaluateActiveVolatilityGate (failsVolatility1m : Bool) (regime : RegimeEligibilityResult)
    (config : StrategyConfig) : Bool × Reason × Option RegimeReason :=
  match config.volatilityGateMode with
  | .current1m => (failsVolatility1m, .lowVolatility, none)
  | .multitimeframeExperimental => (!regime.eligible, .lowVolatilityRegime, some regime.reason)

/-! ## Predicates on a candidate -/

def trendGateApplicable (signal : QuantSignal) (config : StrategyConfig) : Bool :=
  config.trendGateEnabled && signal.direction = .bullish && signal.session = .regular

def confluenceEligible (signal : QuantSignal) (config : StrategyConfig) : Bool :=
  match config.confluenceContract with
  | .independentConfirmationExperimental => 1 ≤ signal.confluenceScore
  | .legacy => config.confluenceScoreMin ≤ signal.confluenceScore

/-- `min(value / cap, 1.0)`, where there is a value and a cap. -/
def normalised (value : Option ℚ) (cap : ℚ) : ℚ :=
  match value with
  | some value => if 0 < cap then min (value / cap) 1 else 0
  | none => 0

def opportunityScore (signal : QuantSignal) (config : StrategyConfig) : ℚ :=
  let trendNorm : ℚ := match signal.trendAligned with
    | some true => 1
    | some false => 0
    | none => 1 / 2
  config.opportunityScoreConfluenceWeight * (signal.confluenceScore / 3) +
    config.opportunityScoreRrWeight * normalised signal.riskRewardRatio config.opportunityScoreRrCap +
    config.opportunityScoreVolumeWeight * normalised signal.volumeSurgeRatio config.opportunityScoreVolumeCap +
    config.opportunityScoreTrendWeight * trendNorm

inductive EntryBlackout
  | none
  | opening
  | closing
  deriving DecidableEq

def getEntryBlackout (eastern : Timestamp → ℕ) (t : Timestamp) : EntryBlackout :=
  if 9 * hour + 30 * minute ≤ eastern t ∧ eastern t < 9 * hour + 45 * minute then .opening
  else if 15 * hour + 30 * minute ≤ eastern t ∧ eastern t < 16 * hour then .closing
  else .none

/-! ## Gates -/

/-- What a gate records of a batch, and what it lets through. -/
abbrev Gate := List QuantSignal → List (Reason × ℕ) × List QuantSignal

/-- The whole batch or nothing. -/
def Gate.block (reason : Reason) (p : List QuantSignal → Bool) : Gate := fun signals =>
  if p signals then ([(reason, signals.length)], []) else ([], signals)

/-- `_partition`: those with `p` stay, the number of the others is recorded. -/
def Gate.keep (reason : Reason) (p : QuantSignal → Bool) : Gate := fun signals =>
  let dropped := signals.filter (!p ·)
  (if dropped = [] then [] else [(reason, dropped.length)], signals.filter p)

/-- The batch is rejected where no candidate qualifies; else the ones that do not are left out without a record. -/
def Gate.confluence (config : StrategyConfig) : Gate := fun signals =>
  let qualifying := signals.filter (confluenceEligible · config)
  if qualifying = [] then ([(.lowConfluence, signals.length)], []) else ([], qualifying)

/-- One gate after the other; once nothing is left, the rest is not reached. -/
def chain : List Gate → Gate
  | [], signals => ([], signals)
  | gate :: gates, signals =>
    let (rejected, kept) := gate signals
    if kept = [] then (rejected, [])
    else
      let (rejected', kept') := chain gates kept
      (rejected ++ rejected', kept')

section Gates

variable (eastern : EasternClock) (config : StrategyConfig) (barTimestamp : Timestamp) (lossLockedOut onCooldown : Bool)

/-- From the session of the bar to the trend. -/
def commonGates : List Gate :=
  [.block .usMarketSessionClosed fun signals => signals.head?.any (·.session = .closed),
    .block .openingBlackout fun _ => getEntryBlackout eastern.time barTimestamp = .opening,
    .keep .closingBlackout fun s => getEntryBlackout eastern.time barTimestamp ≠ .closing || s.direction ≠ .bullish,
    .block .lossLockout fun _ => lossLockedOut,
    .block .cooldown fun _ => onCooldown,
    .confluence config,
    .keep .lowRiskReward fun s => s.riskRewardRatio.any (config.minRiskRewardRatio ≤ ·),
    .keep .htfDataUnavailable fun s => !(trendGateApplicable s config && s.htfSma200 = none),
    .keep .trendGate fun s => s.trendAligned ≠ some false]

/-- The gates of `_process_symbol_bar`: a replay has neither quotes nor news. -/
def replayGates : List Gate :=
  commonGates eastern config barTimestamp lossLockedOut onCooldown ++
    [.keep .premarketLiquidity fun s => s.session ≠ .preMarket]

/-- What the live scanner knows besides the bar. -/
structure LiveConditions where
  riskDegraded : Bool
  operatingWindowOpen : Bool
  hasQuote : Symbol → Bool
  clearsPremarketLiquidity : QuantSignal → Bool
  hasRecentNews : Symbol → Bool

/-- The gates of `_handle_market_tick`. -/
def scannerGates (live : LiveConditions) (symbol : Symbol) : List Gate :=
  [.block .globalRiskDegraded fun _ => live.riskDegraded,
    .block .ukSessionClosed fun _ => !live.operatingWindowOpen] ++
  commonGates eastern config barTimestamp lossLockedOut onCooldown ++
  [.keep .premarketProviderUnsupported fun s => s.session ≠ .preMarket || live.hasQuote s.ticker.toUpper,
    .keep .premarketLiquidity fun s => s.session ≠ .preMarket || live.clearsPremarketLiquidity s,
    .keep .newsCatalyst fun s => s.session ≠ .preMarket || live.hasRecentNews symbol]

end Gates

/-! ## Chains -/

section Chains

variable {gates gates' : List Gate} {signals : List QuantSignal} {reason : Reason}

@[simp] theorem Gate.block_true {p : List QuantSignal → Bool} (h : p signals = true) :
    Gate.block reason p signals = ([(reason, signals.length)], []) := by simp [Gate.block, h]

@[simp] theorem Gate.block_false {p : List QuantSignal → Bool} (h : p signals = false) :
    Gate.block reason p signals = ([], signals) := by simp [Gate.block, h]

@[simp] theorem Gate.keep_snd {p : QuantSignal → Bool} : (Gate.keep reason p signals).2 = signals.filter p := rfl

theorem Gate.keep_congr {p q : QuantSignal → Bool} (h : ∀ s ∈ signals, p s = q s) :
    Gate.keep reason p signals = Gate.keep reason q signals := by
  have hdropped : signals.filter (!p ·) = signals.filter (!q ·) := List.filter_congr fun s hs => by rw [h s hs]
  simp only [Gate.keep, hdropped, List.filter_congr h]

theorem chain_cons (gate : Gate) :
    chain (gate :: gates) signals =
      if (gate signals).2 = [] then ((gate signals).1, [])
      else ((gate signals).1 ++ (chain gates (gate signals).2).1, (chain gates (gate signals).2).2) := rfl

theorem chain_append (hne : signals ≠ []) :
    chain (gates ++ gates') signals =
      if (chain gates signals).2 = [] then ((chain gates signals).1, [])
      else ((chain gates signals).1 ++ (chain gates' (chain gates signals).2).1,
        (chain gates' (chain gates signals).2).2) := by
  induction gates generalizing signals with
  | nil => simp [chain, hne]
  | cons gate gates ih =>
    rw [List.cons_append, chain_cons, chain_cons]
    by_cases hk : (gate signals).2 = []
    · simp [hk]
    · rw [if_neg hk, if_neg hk, ih hk]
      by_cases hk' : (chain gates (gate signals).2).2 = []
      · simp [hk']
      · simp [hk']

/-- A block that stands open. -/
theorem chain_block_open {p : List QuantSignal → Bool} (h : p signals = false) (hne : signals ≠ []) :
    chain (.block reason p :: gates) signals = chain gates signals := by
  rw [chain_cons, Gate.block_false h, if_neg hne]
  simp

theorem chain_block_shut {p : List QuantSignal → Bool} (h : p signals = true) :
    chain (.block reason p :: gates) signals = ([(reason, signals.length)], []) := by
  rw [chain_cons, Gate.block_true h, if_pos rfl]

/-- A gate that lets every candidate through. -/
theorem chain_keep_all {p : QuantSignal → Bool} (h : ∀ s ∈ signals, p s = true) (hne : signals ≠ []) :
    chain (.keep reason p :: gates) signals = chain gates signals := by
  have hk : signals.filter p = signals := List.filter_eq_self.2 h
  have hd : signals.filter (!p ·) = [] := List.filter_eq_nil_iff.2 fun s hs => by simp [h s hs]
  rw [chain_cons, Gate.keep_snd, hk, if_neg hne]
  simp [Gate.keep, hd]

variable (signals) in
/-- Of gates that sort one by one, the survivors are those that each of them keeps. -/
theorem chain_keep_snd (ps : List (Reason × (QuantSignal → Bool))) :
    (chain (ps.map fun p => .keep p.1 p.2) signals).2 = signals.filter fun s => ps.all (·.2 s) := by
  induction ps generalizing signals with
  | nil => simp [chain]
  | cons p ps ih =>
    have hall : (signals.filter p.2).filter (fun s => ps.all (·.2 s)) =
        signals.filter fun s => (p :: ps).all (·.2 s) := by
      rw [List.filter_filter]
      refine List.filter_congr fun s _ => ?_
      rw [List.all_cons, Bool.and_comm]
    rw [List.map_cons, chain_cons, Gate.keep_snd]
    by_cases hk : signals.filter p.2 = []
    · rw [if_pos hk, ← hall, hk, List.filter_nil]
    · rw [if_neg hk, ih, hall]

/-- A gate invents no candidate, counts none twice, and records its own reasons. -/
structure Gate.Sound (P : Reason → Prop) (gate : Gate) : Prop where
  kept (signals : List QuantSignal) : (gate signals).2.Sublist signals
  counts (signals : List QuantSignal) :
    ((gate signals).1.map (·.2)).sum + (gate signals).2.length ≤ signals.length
  records (signals : List QuantSignal) : ∀ r ∈ (gate signals).1, P r.1

theorem sound_block {P : Reason → Prop} (hP : P reason) (p : List QuantSignal → Bool) :
    (Gate.block reason p).Sound P where
  kept l := by cases h : p l <;> simp [h]
  counts l := by cases h : p l <;> simp [h]
  records l := by cases h : p l <;> simp [h, hP]

theorem sound_keep {P : Reason → Prop} (hP : P reason) (p : QuantSignal → Bool) : (Gate.keep reason p).Sound P where
  kept l := List.filter_sublist
  counts l := by
    have hlen := List.length_eq_length_filter_add (l := l) p
    unfold Gate.keep
    by_cases hd : l.filter (!p ·) = []
    · simp [hd, List.length_filter_le]
    · simp [hd]
      omega
  records l := by
    unfold Gate.keep
    by_cases hd : l.filter (!p ·) = [] <;> simp [hd, hP]

theorem sound_confluence {P : Reason → Prop} (hP : P .lowConfluence) (config : StrategyConfig) :
    (Gate.confluence config).Sound P where
  kept l := by
    unfold Gate.confluence
    by_cases hq : l.filter (confluenceEligible · config) = [] <;> simp [hq]
  counts l := by
    unfold Gate.confluence
    by_cases hq : l.filter (confluenceEligible · config) = [] <;> simp [hq, List.length_filter_le]
  records l := by
    unfold Gate.confluence
    by_cases hq : l.filter (confluenceEligible · config) = [] <;> simp [hq, hP]

theorem sound_chain {P : Reason → Prop} (h : ∀ gate ∈ gates, gate.Sound P) : (Gate.Sound P (chain gates)) := by
  induction gates with
  | nil => exact ⟨fun l => List.Sublist.refl l, fun l => by simp [chain], fun l => by simp [chain]⟩
  | cons gate gates ih =>
    obtain ⟨hkept, hcounts, hrecords⟩ := h gate List.mem_cons_self
    obtain ⟨hkept', hcounts', hrecords'⟩ := ih fun g hg => h g (List.mem_cons_of_mem gate hg)
    refine ⟨fun l => ?_, fun l => ?_, fun l => ?_⟩ <;> rw [chain_cons] <;> by_cases hk : (gate l).2 = []
    · simp [hk]
    · rw [if_neg hk]
      exact (hkept' _).trans (hkept l)
    · have := hcounts l
      simp_all
    · have := hcounts l
      have := hcounts' (gate l).2
      simp only [hk, if_false, List.map_append, List.sum_append]
      omega
    · rw [if_pos hk]
      exact hrecords l
    · rw [if_neg hk]
      intro r hr
      rcases List.mem_append.1 hr with hr | hr
      · exact hrecords l r hr
      · exact hrecords' _ r hr

/-- One gate that is shut stops the batch, wherever it stands. -/
theorem chain_snd_of_shut (gate : Gate) (hmem : gate ∈ gates) (hshut : ∀ l, (gate l).2 = []) :
    (chain gates signals).2 = [] := by
  induction gates generalizing signals with
  | nil => simp at hmem
  | cons g gates ih =>
    rw [chain_cons]
    by_cases hk : (g signals).2 = []
    · simp [hk]
    · rw [if_neg hk]
      rcases List.mem_cons.1 hmem with rfl | hmem
      · exact absurd (hshut signals) hk
      · exact ih hmem

end Chains

section Sound

variable (eastern : EasternClock) (config : StrategyConfig) (barTimestamp : Timestamp) (lossLockedOut onCooldown : Bool)

/-- What the gates that both paths share record. -/
inductive CommonReason : Reason → Prop
  | usMarketSessionClosed : CommonReason .usMarketSessionClosed
  | openingBlackout : CommonReason .openingBlackout
  | closingBlackout : CommonReason .closingBlackout
  | lossLockout : CommonReason .lossLockout
  | cooldown : CommonReason .cooldown
  | lowConfluence : CommonReason .lowConfluence
  | lowRiskReward : CommonReason .lowRiskReward
  | htfDataUnavailable : CommonReason .htfDataUnavailable
  | trendGate : CommonReason .trendGate

theorem sound_commonGates : ∀ gate ∈ commonGates eastern config barTimestamp lossLockedOut onCooldown,
    gate.Sound CommonReason := by
  simp only [commonGates, List.forall_mem_cons, List.not_mem_nil, IsEmpty.forall_iff, implies_true, and_true]
  exact ⟨sound_block .usMarketSessionClosed _, sound_block .openingBlackout _, sound_keep .closingBlackout _,
    sound_block .lossLockout _, sound_block .cooldown _, sound_confluence .lowConfluence _,
    sound_keep .lowRiskReward _, sound_keep .htfDataUnavailable _, sound_keep .trendGate _⟩

theorem sound_replayGates : ∀ gate ∈ replayGates eastern config barTimestamp lossLockedOut onCooldown,
    gate.Sound fun reason => CommonReason reason ∨ reason = .premarketLiquidity := by
  intro gate hgate
  rcases List.mem_append.1 hgate with hgate | hgate
  · obtain ⟨hkept, hcounts, hrecords⟩ := sound_commonGates _ _ _ _ _ gate hgate
    exact ⟨hkept, hcounts, fun l r hr => .inl (hrecords l r hr)⟩
  · rw [List.mem_singleton.1 hgate]
    exact sound_keep (.inr rfl) _

/-- A symbol that is locked out has no candidates. -/
theorem replayGates_lockedOut (signals : List QuantSignal) :
    (chain (replayGates eastern config barTimestamp true onCooldown) signals).2 = [] :=
  chain_snd_of_shut (.block .lossLockout fun _ => true) (by simp [replayGates, commonGates])
    fun l => by simp

end Sound

/-! ## The replay and the live scanner -/

section Parity

variable (eastern : EasternClock) (config : StrategyConfig) (barTimestamp : Timestamp) (lossLockedOut onCooldown : Bool)
  (live : LiveConditions) (symbol : Symbol)

/-- The name that a replay has for a pre-market candidate that no provider quotes. -/
def replayReason : Reason → Reason
  | .premarketProviderUnsupported => .premarketLiquidity
  | reason => reason

theorem map_replayReason {rs : List (Reason × ℕ)} (h : ∀ r ∈ rs, CommonReason r.1) :
    rs.map (fun r => (replayReason r.1, r.2)) = rs := by
  refine (List.map_congr_left fun r hr => ?_).trans (List.map_id rs)
  obtain ⟨reason, n⟩ := r
  cases h _ hr <;> rfl

theorem map_replayReason_keep (signals : List QuantSignal) (p : QuantSignal → Bool) :
    (Gate.keep .premarketProviderUnsupported p signals).1.map (fun r => (replayReason r.1, r.2)) =
      (Gate.keep .premarketLiquidity p signals).1 := by
  simp only [Gate.keep]
  split_ifs <;> rfl

/-- Where the scanner may publish, a replay lets through what it lets through outside the pre-market; with no quotes the
two agree on the rejections too. -/
theorem replay_agrees_with_scanner {signals : List QuantSignal} (hne : signals ≠ []) :
    let scanner := chain (scannerGates eastern config barTimestamp lossLockedOut onCooldown live symbol) signals
    let replay := chain (replayGates eastern config barTimestamp lossLockedOut onCooldown) signals
    ((live.riskDegraded = true ∨ live.operatingWindowOpen = false) → scanner.2 = []) ∧
      (live.riskDegraded = false → live.operatingWindowOpen = true →
        replay.2 = scanner.2.filter (·.session ≠ .preMarket) ∧
        (∀ s ∈ scanner.2, s.session = .preMarket →
          live.hasQuote s.ticker.toUpper ∧ live.clearsPremarketLiquidity s ∧ live.hasRecentNews symbol) ∧
        ((∀ s ∈ signals, s.session = .preMarket → live.hasQuote s.ticker.toUpper = false) →
          replay = (scanner.1.map fun r => (replayReason r.1, r.2), scanner.2))) := by
  have hcommon := sound_chain (sound_commonGates eastern config barTimestamp lossLockedOut onCooldown)
  have hkept := hcommon.kept signals
  have hrecords := hcommon.records signals
  refine ⟨fun hshut => ?_, fun hrisk hopen => ?_⟩
  · -- one of the first two gates takes the whole batch
    unfold scannerGates
    by_cases hrisk : live.riskDegraded = true
    · rw [List.append_assoc, List.cons_append, chain_block_shut hrisk]
    · rw [List.append_assoc, List.cons_append, chain_block_open (by simpa using hrisk) hne, List.cons_append,
        chain_block_shut (by simpa using hshut.resolve_left hrisk)]
  · have hscanner : scannerGates eastern config barTimestamp lossLockedOut onCooldown live symbol =
        .block .globalRiskDegraded (fun _ => live.riskDegraded) ::
        .block .ukSessionClosed (fun _ => !live.operatingWindowOpen) ::
        (commonGates eastern config barTimestamp lossLockedOut onCooldown ++
          [.keep .premarketProviderUnsupported fun s => s.session ≠ .preMarket || live.hasQuote s.ticker.toUpper,
            .keep .premarketLiquidity fun s => s.session ≠ .preMarket || live.clearsPremarketLiquidity s,
            .keep .newsCatalyst fun s => s.session ≠ .preMarket || live.hasRecentNews symbol]) := rfl
    rw [hscanner, chain_block_open (by simpa using hrisk) hne, chain_block_open (by simpa using hopen) hne, replayGates,
      chain_append hne, chain_append hne]
    generalize chain (commonGates eastern config barTimestamp lossLockedOut onCooldown) signals = common at *
    by_cases hempty : common.2 = []
    · simp [hempty, map_replayReason hrecords]
    · simp only [if_neg hempty]
      have hreplay := chain_keep_snd common.2
        [(.premarketLiquidity, fun s => decide (s.session ≠ .preMarket))]
      have hscan := chain_keep_snd common.2
        [(.premarketProviderUnsupported, fun s => decide (s.session ≠ .preMarket) || live.hasQuote s.ticker.toUpper),
          (.premarketLiquidity, fun s => decide (s.session ≠ .preMarket) || live.clearsPremarketLiquidity s),
          (.newsCatalyst, fun s => decide (s.session ≠ .preMarket) || live.hasRecentNews symbol)]
      simp only [List.map_cons, List.map_nil] at hreplay hscan
      refine ⟨?_, fun s hs hpre => ?_, fun hquotes => ?_⟩
      · rw [hreplay, hscan, List.filter_filter]
        refine List.filter_congr fun s _ => ?_
        by_cases hpre : s.session = .preMarket <;> simp [hpre]
      · rw [hscan] at hs
        simpa [hpre] using (List.mem_filter.1 hs).2
      · -- no candidate of the pre-market gets past the first of the three gates
        have hfirst : ∀ s ∈ common.2, (decide (s.session ≠ .preMarket) || live.hasQuote s.ticker.toUpper) =
            decide (s.session ≠ .preMarket) := fun s hs => by
          by_cases hpre : s.session = .preMarket
          · simp [hpre, hquotes s (hkept.subset hs) hpre]
          · simp [hpre]
        have hrest : ∀ p : QuantSignal → Bool, ∀ s ∈ common.2.filter (fun s => decide (s.session ≠ .preMarket)),
            (decide (s.session ≠ .preMarket) || p s) = true := fun p s hs => by
          simp only [(List.mem_filter.1 hs).2, Bool.true_or]
        rw [@chain_cons [_, _], Gate.keep_congr hfirst, @chain_cons [], Gate.keep_snd, Gate.keep_snd]
        by_cases hk : common.2.filter (fun s => decide (s.session ≠ .preMarket)) = []
        · rw [if_pos hk, if_pos hk, List.map_append, map_replayReason hrecords, map_replayReason_keep]
        · rw [if_neg hk, if_neg hk, chain_keep_all (hrest _) hk, chain_keep_all (hrest _) hk, List.map_append,
            map_replayReason hrecords]
          simp [map_replayReason_keep, chain]

theorem replay_agrees_with_scanner_sample :
    let live : LiveConditions := ⟨false, true, fun _ => false, fun _ => true, fun _ => true⟩
    let scanner := chain (scannerGates sampleClock sampleStrategy (10 * hour) false false live "ACME") [sampleSignal]
    let replay := chain (replayGates sampleClock sampleStrategy (10 * hour) false false) [sampleSignal]
    replay.2 = scanner.2.filter (·.session ≠ .preMarket) :=
  ((replay_agrees_with_scanner _ _ _ _ _ _ _ (List.cons_ne_nil sampleSignal [])).2 rfl rfl).1

end Parity

end TalonX.Quant
