import TalonX.Quant.Strategy

/-!
# The two confluence contracts

- `fires`: the types a bar gives rise to, `mem_evaluateSignals`: the candidates are theirs;
- `score_by_family`: what a candidate scores under each contract, with nothing for its own trigger;
- `experimental_extends_legacy`: the candidates of the two contracts side by side.
-/

set_option autoImplicit false

namespace TalonX.Quant

def SignalType.direction : SignalType → SignalDirection
  | .rsiOversoldVolumeSurge | .macdBullishCross | .maGoldenCross => .bullish
  | .rsiOverboughtVolumeSurge | .macdBearishCross | .maDeathCross => .bearish

section Firing

variable (s : IndicatorSnapshot) (config : StrategyConfig) (ctx : SignalContext)

/-- What the RSI trigger asks for besides the curl. -/
def rsiTriggerOpen : Bool :=
  config.confluenceContract = .independentConfirmationExperimental || volumeSurges s ctx.volumeThreshold

/-- The RSI was below `oversold`, and is not. -/
def curlsUp : Bool :=
  s.rsi.any fun rsi => s.rsiPrev.any fun prev => prev < config.rsiOversold ∧ config.rsiOversold ≤ rsi

def curlsDown : Bool :=
  s.rsi.any fun rsi => s.rsiPrev.any fun prev => config.rsiOverbought < prev ∧ rsi ≤ config.rsiOverbought

/-- The averages are far enough apart. -/
def clearsSpread : Bool :=
  s.smaFast.any fun fast => s.smaSlow.any fun slow => s.price ≠ 0 ∧ config.minMaSpreadPct * s.price ≤ |fast - slow|

/-- The types of the candidates of a bar. -/
def fires (t : SignalType) : Bool :=
  clearsAtrMove s config && match t with
    | .rsiOversoldVolumeSurge => curlsUp s config && rsiTriggerOpen s config ctx
    | .rsiOverboughtVolumeSurge => curlsDown s config && !curlsUp s config && rsiTriggerOpen s config ctx
    | .macdBullishCross => macdBullishCrossedThisBar s
    | .macdBearishCross => macdBearishCrossedThisBar s
    | .maGoldenCross => clearsSpread s config && crossedAbove s.smaFast s.smaSlow s.smaFastPrev s.smaSlowPrev
    | .maDeathCross => clearsSpread s config && crossedAbove s.smaSlow s.smaFast s.smaSlowPrev s.smaFastPrev

end Firing

section Candidates

variable {eastern : EasternClock} {ticker : Symbol} {s : IndicatorSnapshot} {config : StrategyConfig}
  {ctx : SignalContext} {htfSma200 : Option ℚ} {pivots : Option DailyPivots}

/-- Two values do not cross in both directions. -/
theorem crossedAbove_asymm {a b a' b' : Option ℚ} (h : crossedAbove a b a' b' = true) : crossedAbove b a b' a' = false := by
  cases a <;> cases b <;> cases a' <;> cases b' <;> simp_all [crossedAbove]
  intro _
  exact h.2.le

theorem checkRsiVolumeSetup_eq :
    checkRsiVolumeSetup ticker s config ctx =
      if fires s config ctx .rsiOversoldVolumeSurge then
        some (buildSignal ticker s .rsiOversoldVolumeSurge .bullish config ctx)
      else if fires s config ctx .rsiOverboughtVolumeSurge then
        some (buildSignal ticker s .rsiOverboughtVolumeSurge .bearish config ctx)
      else none := by
  unfold checkRsiVolumeSetup
  cases hrsi : s.rsi with
  | none => simp [fires, curlsUp, curlsDown, hrsi]
  | some rsi =>
    cases hprev : s.rsiPrev with
    | none => simp [fires, curlsUp, curlsDown, hrsi, hprev]
    | some prev =>
      by_cases hmove : clearsAtrMove s config
      · have hup : curlsUp s config = decide (prev < config.rsiOversold ∧ config.rsiOversold ≤ rsi) := by
          simp [curlsUp, hrsi, hprev]
        have hdown : curlsDown s config = decide (config.rsiOverbought < prev ∧ rsi ≤ config.rsiOverbought) := by
          simp [curlsDown, hrsi, hprev]
        have hnone : s.volumeSurgeRatio = none → volumeSurges s ctx.volumeThreshold = false := fun h => by
          simp [volumeSurges, h]
        by_cases hu : prev < config.rsiOversold ∧ config.rsiOversold ≤ rsi <;>
          by_cases hd : config.rsiOverbought < prev ∧ rsi ≤ config.rsiOverbought <;>
          by_cases he : config.confluenceContract = .independentConfirmationExperimental <;>
          by_cases hv : volumeSurges s ctx.volumeThreshold <;>
          simp only [fires, rsiTriggerOpen, hup, hdown, hmove, hu, hd, he, hv] <;> simp
        all_goals exact fun h => absurd (hnone h) (by simp [hv])
      · simp [fires, hmove]

theorem checkMacdCrossover_eq :
    checkMacdCrossover ticker s config ctx =
      if fires s config ctx .macdBullishCross then some (buildSignal ticker s .macdBullishCross .bullish config ctx)
      else if fires s config ctx .macdBearishCross then
        some (buildSignal ticker s .macdBearishCross .bearish config ctx)
      else none := by
  by_cases hmove : clearsAtrMove s config <;> simp [checkMacdCrossover, fires, hmove]

theorem checkMaCrossover_eq :
    checkMaCrossover ticker s config ctx =
      if fires s config ctx .maGoldenCross then some (buildSignal ticker s .maGoldenCross .bullish config ctx)
      else if fires s config ctx .maDeathCross then some (buildSignal ticker s .maDeathCross .bearish config ctx)
      else none := by
  unfold checkMaCrossover
  cases hfast : s.smaFast with
  | none => simp [fires, clearsSpread, hfast]
  | some fast =>
    cases hslow : s.smaSlow with
    | none => simp [fires, clearsSpread, hfast, hslow]
    | some slow =>
      by_cases hmove : clearsAtrMove s config
      · by_cases hprice : s.price = 0
        · simp [fires, clearsSpread, hfast, hslow, hmove, hprice]
        · by_cases hspread : |fast - slow| < config.minMaSpreadPct * s.price
          · simp [fires, clearsSpread, hfast, hslow, hmove, hprice, hspread, not_le.2 hspread]
          · simp [fires, clearsSpread, hfast, hslow, hmove, hprice, hspread, not_lt.1 hspread]
      · simp [fires, hmove]

/-- One of two candidates, the first where both conditions hold. -/
theorem firstOf_eq_some {a b : Bool} {x y q : QuantSignal} :
    (if a then some x else if b then some y else none) = some q ↔ (a ∧ q = x) ∨ (a = false ∧ b ∧ q = y) := by
  cases a <;> cases b <;> simp [eq_comm]

theorem fires_asymm {t u : SignalType} (ht : fires s config ctx t = true) (hu : fires s config ctx u = true)
    (hrsi : t.isRsi = u.isRsi) (hmacd : t.isMacd = u.isMacd) : t = u := by
  have hcross : ∀ {a b a' b' : Option ℚ}, crossedAbove a b a' b' = true → crossedAbove b a b' a' = true → False :=
    fun h h' => by simp [crossedAbove_asymm h] at h'
  unfold fires at ht hu
  cases t <;> cases u <;> simp [SignalType.isRsi, SignalType.isMacd] at hrsi hmacd ⊢ <;>
    simp only [Bool.and_eq_true, Bool.not_eq_true'] at ht hu
  · exact absurd ht.2.1 (by simp [hu.2.1.2])
  · exact absurd hu.2.1 (by simp [ht.2.1.2])
  · exact hcross ht.2 hu.2
  · exact hcross ht.2 hu.2
  · exact hcross ht.2.2 hu.2.2
  · exact hcross ht.2.2 hu.2.2

theorem mem_evaluateSignals {q : QuantSignal} :
    q ∈ evaluateSignals eastern ticker s config htfSma200 pivots ↔
      ∃ t : SignalType, fires s config (signalContext eastern s config htfSma200 pivots) t ∧
        q = buildSignal ticker s t t.direction config (signalContext eastern s config htfSma200 pivots) := by
  simp only [evaluateSignals, List.mem_append, Option.mem_toList, checkRsiVolumeSetup_eq,
    checkMacdCrossover_eq, checkMaCrossover_eq, firstOf_eq_some]
  constructor
  · rintro (((⟨h, rfl⟩ | ⟨-, h, rfl⟩) | (⟨h, rfl⟩ | ⟨-, h, rfl⟩)) | (⟨h, rfl⟩ | ⟨-, h, rfl⟩)) <;>
      exact ⟨_, h, rfl⟩
  · -- of two types of one family, one fires
    rintro ⟨t, h, rfl⟩
    cases t with
    | rsiOversoldVolumeSurge => exact .inl (.inl (.inl ⟨h, rfl⟩))
    | rsiOverboughtVolumeSurge => exact .inl (.inl (.inr ⟨Bool.eq_false_iff.2 fun h' => (by cases fires_asymm h' h rfl rfl), h, rfl⟩))
    | macdBullishCross => exact .inl (.inr (.inl ⟨h, rfl⟩))
    | macdBearishCross => exact .inl (.inr (.inr ⟨Bool.eq_false_iff.2 fun h' => (by cases fires_asymm h' h rfl rfl), h, rfl⟩))
    | maGoldenCross => exact .inr (.inl ⟨h, rfl⟩)
    | maDeathCross => exact .inr (.inr ⟨Bool.eq_false_iff.2 fun h' => (by cases fires_asymm h' h rfl rfl), h, rfl⟩)

/-! ## Scores -/

theorem confirmationCount_eq (c : ConfirmationState) :
    c.confirmationCount = c.macdConfirmed.toNat + c.rsiConfirmed.toNat + c.volumeConfirmed.toNat := by
  obtain ⟨m, r, v⟩ := c
  cases m <;> cases r <;> cases v <;> rfl

/-- The cross that confirms a direction; the legacy contract takes either. -/
def macdEvidence (s : IndicatorSnapshot) (config : StrategyConfig) (direction : SignalDirection) : Bool :=
  match config.confluenceContract, direction with
  | .legacy, _ => macdCrossedThisBar s
  | .independentConfirmationExperimental, .bullish => macdBullishCrossedThisBar s
  | .independentConfirmationExperimental, .bearish => macdBearishCrossedThisBar s

variable (ticker s config ctx) in
theorem buildSignal_score (t : SignalType) (direction : SignalDirection) :
    (buildSignal ticker s t direction config ctx).confluenceScore =
      (macdEvidence s config direction && !t.isMacd).toNat +
        (rsiSupports s config direction && !(t.isRsi && config.confluenceContract ≠ .legacy)).toNat +
        (volumeSurges s ctx.volumeThreshold).toNat := by
  unfold buildSignal macdEvidence
  cases hc : config.confluenceContract with
  | legacy => simp [confluenceScore]
  | independentConfirmationExperimental =>
    cases direction <;> simp [confirmationCount_eq, evaluateIndependentConfirmations]

/-- After the curl the RSI is out of the zone that would confirm it. -/
theorem rsiSupports_of_fires {t : SignalType} (ht : t.isRsi = true) (hf : fires s config ctx t = true) :
    rsiSupports s config t.direction = false := by
  cases hrsi : s.rsi with
  | none => simp [rsiSupports, hrsi]
  | some rsi =>
    cases hprev : s.rsiPrev with
    | none => cases t <;> simp_all [SignalType.isRsi, fires, curlsUp, curlsDown]
    | some prev =>
      cases t <;> simp_all [SignalType.isRsi, fires, curlsUp, curlsDown, rsiSupports, SignalType.direction]

/-- What each family can be confirmed by, under either contract: never by its own trigger. -/
theorem score_by_family {q : QuantSignal} (hq : q ∈ evaluateSignals eastern ticker s config htfSma200 pivots) :
    let volume := (volumeSurges s (pickVolumeThreshold q.session config)).toNat
    let macd := (macdEvidence s config q.direction).toNat
    let rsi := (rsiSupports s config q.direction).toNat
    (q.signalType.isRsi → q.confluenceScore = macd + volume ∧ (config.confluenceContract = .legacy → volume = 1)) ∧
      (q.signalType.isMacd → q.confluenceScore = rsi + volume) ∧
      (q.signalType.isRsi = false → q.signalType.isMacd = false → q.confluenceScore = macd + rsi + volume) := by
  obtain ⟨t, hf, rfl⟩ := mem_evaluateSignals.1 hq
  have hscore := buildSignal_score ticker s config (signalContext eastern s config htfSma200 pivots) t t.direction
  have htype : (buildSignal ticker s t t.direction config (signalContext eastern s config htfSma200 pivots)).signalType =
    t := rfl
  have hnot : t.isRsi = true → t.isMacd = false := by cases t <;> simp [SignalType.isRsi, SignalType.isMacd]
  refine ⟨fun hrsi => ⟨?_, fun hlegacy => ?_⟩, fun hmacd => ?_, fun hrsi hmacd => ?_⟩
  · rw [htype] at hrsi
    rw [hscore, hnot hrsi, rsiSupports_of_fires hrsi hf]
    simp [buildSignal, signalContext]
  · -- the legacy trigger asks for the surge
    rw [htype] at hrsi
    have hopen : rsiTriggerOpen s config (signalContext eastern s config htfSma200 pivots) = true := by
      cases t <;> simp_all [SignalType.isRsi, fires]
    have hsurge : volumeSurges s (pickVolumeThreshold (getSession eastern.time s.barTimestamp) config) = true := by
      simpa [rsiTriggerOpen, hlegacy, signalContext] using hopen
    simp [buildSignal, signalContext, hsurge]
  · rw [htype] at hmacd
    have hrsi : t.isRsi = false := Bool.eq_false_iff.2 fun h => by simp [hnot h] at hmacd
    rw [hscore, hmacd, hrsi]
    simp [buildSignal, signalContext]
  · rw [htype] at hrsi hmacd
    rw [hscore, hmacd, hrsi]
    simp [buildSignal, signalContext]

/-! ### A sample -/

/-- A clock without an offset. -/
def sampleClock : EasternClock where
  time t := t % (24 * hour)
  date t := t / (24 * hour)
  date_mono _ _ h := Nat.div_le_div_right h

def sampleStrategy : StrategyConfig where
  rsiOversold := 30
  rsiOverbought := 70
  volumeSurgeRatioThreshold := 2
  premarketVolumeSurgeRatioThreshold := 2
  minMaSpreadPct := 0
  atrPeriod := 14
  atrMoveMultiplier := 1
  atrStopMultiplier := 1
  atrRewardMultiplier := 2
  minRiskRewardRatio := 1
  minAtrPct := 0
  confluenceScoreMin := 0
  volatilityGateMode := .current1m
  confluenceContract := .legacy
  htfSmaPeriod := 200
  trendGateEnabled := false
  cooldown := 10 * minute
  lossLockout := hour
  throttleMaxSignals := 1
  maxCandidateAgeSeconds := 60
  opportunityScoreConfluenceWeight := 1
  opportunityScoreRrWeight := 1
  opportunityScoreVolumeWeight := 1
  opportunityScoreTrendWeight := 1
  opportunityScoreRrCap := 3
  opportunityScoreVolumeCap := 3

/-- An RSI that curls up on a surge of volume. -/
def sampleSurge : IndicatorSnapshot where
  price := 100
  barTimestamp := 10 * hour
  rsi := some 31
  rsiPrev := some 29
  macd := some 1
  macdSignalLine := some 0
  macdPrev := some 0
  macdSignalLinePrev := some 0
  smaFast := none
  smaSlow := none
  smaFastPrev := none
  smaSlowPrev := none
  volume := some 3000
  volumeSurgeRatio := some 3
  atr := some 5
  barTrueRange := some 5

def sampleSignal : QuantSignal :=
  buildSignal "ACME" sampleSurge .rsiOversoldVolumeSurge .bullish sampleStrategy
    (signalContext sampleClock sampleSurge sampleStrategy none none)

theorem score_by_family_sample :
    let volume := (volumeSurges sampleSurge (pickVolumeThreshold sampleSignal.session sampleStrategy)).toNat
    let macd := (macdEvidence sampleSurge sampleStrategy sampleSignal.direction).toNat
    sampleSignal.signalType.isRsi ∧ sampleSignal.confluenceScore = macd + volume ∧ volume = 1 := by
  have hmem : sampleSignal ∈ evaluateSignals sampleClock "ACME" sampleSurge sampleStrategy none none :=
    mem_evaluateSignals.2 ⟨.rsiOversoldVolumeSurge, by decide +kernel, rfl⟩
  obtain ⟨hrsi, -⟩ := score_by_family hmem
  obtain ⟨hscore, hvolume⟩ := hrsi rfl
  exact ⟨rfl, hscore, hvolume rfl⟩

/-! ## The contracts side by side -/

/-- The same setup, scored by one contract or the other. -/
structure SameSetup (q q' : QuantSignal) : Prop where
  eq : q' = { q with
    confluenceScore := q'.confluenceScore
    confirmationCount := q'.confirmationCount
    confirmationMacd := q'.confirmationMacd
    confirmationRsi := q'.confirmationRsi
    confirmationVolume := q'.confirmationVolume
    confirmationContract := q'.confirmationContract }

def StrategyConfig.under (config : StrategyConfig) (contract : ConfluenceContract) : StrategyConfig :=
  { config with confluenceContract := contract }

section Under

variable (contract : ConfluenceContract)

@[simp] theorem confluenceContract_under : (config.under contract).confluenceContract = contract := rfl

@[simp] theorem clearsAtrMove_under : clearsAtrMove s (config.under contract) = clearsAtrMove s config := rfl

@[simp] theorem curlsUp_under : curlsUp s (config.under contract) = curlsUp s config := rfl

@[simp] theorem curlsDown_under : curlsDown s (config.under contract) = curlsDown s config := rfl

@[simp] theorem clearsSpread_under : clearsSpread s (config.under contract) = clearsSpread s config := rfl

@[simp] theorem rsiSupports_under (direction : SignalDirection) :
    rsiSupports s (config.under contract) direction = rsiSupports s config direction := rfl

@[simp] theorem signalContext_under :
    signalContext eastern s (config.under contract) htfSma200 pivots =
      signalContext eastern s config htfSma200 pivots := rfl

end Under

/-- The legacy trigger is the experimental one with a surge. -/
theorem fires_legacy_iff {t : SignalType} :
    fires s (config.under .legacy) ctx t ↔
      fires s (config.under .independentConfirmationExperimental) ctx t ∧
        (t.isRsi → volumeSurges s ctx.volumeThreshold) := by
  cases t <;> simp [fires, rsiTriggerOpen, SignalType.isRsi, StrategyConfig.under] <;> tauto

variable (config) in
theorem macdEvidence_legacy {direction : SignalDirection}
    (h : macdEvidence s (config.under .independentConfirmationExperimental) direction = true) :
    macdEvidence s (config.under .legacy) direction = true := by
  cases direction <;> simp_all [macdEvidence, StrategyConfig.under, macdCrossedThisBar]

theorem score_experimental_le (t : SignalType) (direction : SignalDirection) :
    (buildSignal ticker s t direction (config.under .independentConfirmationExperimental) ctx).confluenceScore ≤
      (buildSignal ticker s t direction (config.under .legacy) ctx).confluenceScore := by
  have hmacd : macdEvidence s _ direction = true → _ := macdEvidence_legacy config
  have htoNat : ∀ {a b : Bool}, (a = true → b = true) → a.toNat ≤ b.toNat := fun h => by
    revert h
    rename_i a b
    cases a <;> cases b <;> simp
  rw [buildSignal_score, buildSignal_score]
  refine Nat.add_le_add_right (Nat.add_le_add (htoNat fun h => ?_) (htoNat fun h => ?_)) _
  · rw [Bool.and_eq_true] at h ⊢
    exact ⟨hmacd h.1, h.2⟩
  · rw [Bool.and_eq_true] at h
    simpa using h.1

/-- Every candidate of the legacy contract is one of the experimental contract, with no higher a score; what the latter
adds are RSI curls without a surge of volume. -/
theorem experimental_extends_legacy (eastern : EasternClock) (ticker : Symbol) (s : IndicatorSnapshot)
    (config : StrategyConfig) (htfSma200 : Option ℚ) (pivots : Option DailyPivots) :
    let legacy := evaluateSignals eastern ticker s (config.under .legacy) htfSma200 pivots
    let experimental :=
      evaluateSignals eastern ticker s (config.under .independentConfirmationExperimental) htfSma200 pivots
    (∀ q ∈ legacy, ∃ q' ∈ experimental, SameSetup q q' ∧ q'.confluenceScore ≤ q.confluenceScore) ∧
      ∀ q' ∈ experimental, (∃ q ∈ legacy, SameSetup q q') ∨
        (q'.signalType.isRsi ∧ volumeSurges s (pickVolumeThreshold q'.session config) = false) := by
  have hsame : ∀ t : SignalType,
      SameSetup
        (buildSignal ticker s t t.direction (config.under .legacy)
          (signalContext eastern s (config.under .legacy) htfSma200 pivots))
        (buildSignal ticker s t t.direction (config.under .independentConfirmationExperimental)
          (signalContext eastern s (config.under .independentConfirmationExperimental) htfSma200 pivots)) :=
    fun t => ⟨rfl⟩
  refine ⟨fun q hq => ?_, fun q' hq' => ?_⟩
  · obtain ⟨t, hf, rfl⟩ := mem_evaluateSignals.1 hq
    exact ⟨_, mem_evaluateSignals.2 ⟨t, (fires_legacy_iff.1 hf).1, rfl⟩, hsame t, score_experimental_le t t.direction⟩
  · obtain ⟨t, hf, rfl⟩ := mem_evaluateSignals.1 hq'
    by_cases hl : fires s (config.under .legacy) (signalContext eastern s (config.under .legacy) htfSma200 pivots) t
    · exact .inl ⟨_, mem_evaluateSignals.2 ⟨t, hl, rfl⟩, hsame t⟩
    · have hquiet : ¬ (t.isRsi → volumeSurges s (signalContext eastern s config htfSma200 pivots).volumeThreshold) :=
        fun h => hl (fires_legacy_iff.2 ⟨hf, h⟩)
      push Not at hquiet
      exact .inr ⟨hquiet.1, Bool.eq_false_iff.2 hquiet.2⟩

end Candidates

end TalonX.Quant
