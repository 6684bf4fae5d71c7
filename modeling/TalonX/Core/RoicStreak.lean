import TalonX.Core.LongTermHistory
import TalonX.Transact.Runs
import TalonX.Transact.Trailing

/-!
# The ROIC streak and the fiscal years behind it

- `readings`: the signals that are for another fiscal year than the one before; `stretch`: the last of them with an ROIC
  below WACC;
- `streak_stateOf`, `countedYears_eq`: the streak counts the stretch;
- `streak_sound_iff`: in a run the streak counts no year twice and stands on consecutive years, exactly when the years of
  every stretch go up one by one, or down one by one.
-/

set_option autoImplicit false

namespace TalonX.Core

open Transact V2

/-- The reported ROIC is below WACC. -/
def FundamentalFactorSignal.low (wacc : ℚ) (x : FundamentalFactorSignal PyFloat) : Bool := x.roic.any (·.lt (.fin wacc))

def readings (xs : List (FundamentalFactorSignal PyFloat)) : List (FundamentalFactorSignal PyFloat) :=
  runHeads (·.fiscalYear) xs

/-- The readings below WACC since the last one that was not. -/
def stretch (wacc : ℚ) (xs : List (FundamentalFactorSignal PyFloat)) : List (FundamentalFactorSignal PyFloat) :=
  (readings xs).rtakeWhile (·.low wacc)

section Stretch

variable {wacc : ℚ} {xs : List (FundamentalFactorSignal PyFloat)} {x : FundamentalFactorSignal PyFloat}

theorem readings_concat : readings (xs ++ [x]) =
    if (readings xs).getLast?.map (·.fiscalYear) = some x.fiscalYear then readings xs else readings xs ++ [x] :=
  runHeads_concat ..

/-- A signal repeats the year, ends the stretch, or adds to it. -/
theorem stretch_concat : stretch wacc (xs ++ [x]) =
    if (readings xs).getLast?.map (·.fiscalYear) = some x.fiscalYear then stretch wacc xs
    else if x.low wacc then stretch wacc xs ++ [x] else [] := by
  rw [stretch, readings_concat]
  split
  · rfl
  · rw [List.rtakeWhile_concat]
    rfl

theorem exists_readings_eq (wacc : ℚ) (xs : List (FundamentalFactorSignal PyFloat)) :
    ∃ rs, readings xs = rs ++ stretch wacc xs := by
  obtain ⟨rs, hrs⟩ := List.rtakeWhile_suffix (p := (·.low wacc)) (l := readings xs)
  exact ⟨rs, hrs.symm⟩

theorem mem_of_mem_stretch (h : x ∈ stretch wacc xs) : x ∈ xs ∧ x.low wacc = true :=
  ⟨mem_of_mem_runHeads ((List.rtakeWhile_suffix _ _).subset h), List.mem_rtakeWhile_imp h⟩

/-- The year of the last signal, behind the last year that is another one. -/
def recentYears (xs : List (FundamentalFactorSignal PyFloat)) : Option (ℤ × ℤ) :=
  xs.getLast?.bind fun last =>
    (xs.filter (·.fiscalYear ≠ last.fiscalYear)).getLast?.map fun before => (before.fiscalYear, last.fiscalYear)

/-- They are the years of the last two readings. -/
theorem recentYears_eq {rs : List (FundamentalFactorSignal PyFloat)} {a b : FundamentalFactorSignal PyFloat}
    (h : readings xs = rs ++ [a] ++ [b]) : recentYears xs = some (a.fiscalYear, b.fiscalYear) := by
  have hb : xs.getLast?.map (·.fiscalYear) = some b.fiscalYear := by
    rw [← getLast?_runHeads, show runHeads (·.fiscalYear) xs = readings xs from rfl, h, List.getLast?_concat]
    rfl
  have ha := getLast?_dropLast_runHeads hb
  rw [show runHeads (·.fiscalYear) xs = readings xs from rfl, h, List.dropLast_concat, List.getLast?_concat] at ha
  obtain ⟨last, hlast, hyear⟩ := Option.map_eq_some_iff.1 hb
  obtain ⟨before, hbefore, hyear'⟩ := Option.map_eq_some_iff.1 ha.symm
  rw [recentYears, hlast, Option.bind_some, hyear, hbefore, Option.map_some, hyear']

end Stretch

/-! ## What the streak counts -/

theorem exists_last_two {α : Type} {l : List α} (h : 2 ≤ l.length) : ∃ xs a b, l = xs ++ [a] ++ [b] := by
  cases l using List.reverseRecOn with
  | nil => simp at h
  | append_singleton l b =>
    cases l using List.reverseRecOn with
    | nil => simp at h
    | append_singleton xs a => exact ⟨xs, a, b, rfl⟩

section Streak

variable {cfg : CoreConfig} {k : String} {es : List LongTermEvent} {e : LongTermEvent}

theorem roicBelowWaccStreak_countStreak (x : FundamentalFactorSignal PyFloat) (wacc : ℚ) (state : LongTermTickerState) :
    (state.countStreak x wacc).roicBelowWaccStreak =
      if state.lastStreakFiscalYear = some x.fiscalYear then state.roicBelowWaccStreak
      else if x.low wacc then state.roicBelowWaccStreak + 1 else 0 := by
  unfold LongTermTickerState.countStreak
  by_cases h : some x.fiscalYear = state.lastStreakFiscalYear
  · rw [if_pos h, if_pos h.symm]
  · rw [if_neg h, if_neg fun he => h (Eq.symm he)]
    rfl

/-- The streak is the length of the stretch. -/
theorem streak_stateOf (cfg : CoreConfig) (k : String) (es : List LongTermEvent) :
    (stateOf cfg k es).lastStreakFiscalYear = (readings (signalsOf k es)).getLast?.map (·.fiscalYear) ∧
      (stateOf cfg k es).roicBelowWaccStreak = (stretch cfg.assumedWacc (signalsOf k es)).length := by
  induction es using List.reverseRecOn with
  | nil => exact ⟨rfl, rfl⟩
  | append_singleton es e ih =>
    rw [stateOf_concat, signalsOf_concat]
    cases hof : e.isOf k with
    | false => simpa using ih
    | true =>
      rw [if_pos rfl, if_pos rfl]
      cases e with
      | alerted ticker action price when =>
        simp only [LongTermEvent.signal?, Option.toList_none, List.append_nil]
        exact ih
      | received x now =>
        cases x with
        | report x =>
          simp only [LongTermEvent.signal?, Option.toList_none, List.append_nil]
          exact ih
        | signal x =>
          obtain ⟨hlast, hstreak⟩ := ih
          rw [LongTermEvent.signal?, Option.toList_some, stretch_concat, ← hlast]
          constructor
          · refine (LongTermTickerState.lastStreakFiscalYear_countStreak ..).trans ?_
            rw [readings, getLast?_runHeads, List.getLast?_concat, Option.map_some]
          · refine (roicBelowWaccStreak_countStreak ..).trans ?_
            rw [hstreak]
            repeat' split
            · rfl
            · rw [List.length_append, List.length_singleton]
            · rfl

/-- The correlator after a run, and the years by which the run has raised the streak since it last was zero. -/
def counting (cfg : CoreConfig) (k : String) (es : List LongTermEvent) : Correlator LongTermTickerState × List ℤ :=
  es.foldl (fun p e =>
    let after := p.1.update e.ticker (e.apply cfg)
    (after,
      if (p.1.getOrCreate k).roicBelowWaccStreak < (after.getOrCreate k).roicBelowWaccStreak then
        p.2 ++ (e.signal?.map (·.fiscalYear)).toList
      else if (after.getOrCreate k).roicBelowWaccStreak = 0 then [] else p.2))
    (⟨fun _ => .new⟩, [])

def countedYears (cfg : CoreConfig) (k : String) (es : List LongTermEvent) : List ℤ := (counting cfg k es).2

theorem fst_counting (cfg : CoreConfig) (k : String) (es : List LongTermEvent) :
    (counting cfg k es).1 = remember cfg es := by
  induction es using List.reverseRecOn with
  | nil => rfl
  | append_singleton es e ih =>
    rw [counting, List.foldl_concat, remember, List.foldl_concat]
    exact congrArg (fun c => Correlator.update c e.ticker (e.apply cfg)) ih

theorem countedYears_concat : countedYears cfg k (es ++ [e]) =
    if (stateOf cfg k es).roicBelowWaccStreak < (stateOf cfg k (es ++ [e])).roicBelowWaccStreak then
      countedYears cfg k es ++ (e.signal?.map (·.fiscalYear)).toList
    else if (stateOf cfg k (es ++ [e])).roicBelowWaccStreak = 0 then [] else countedYears cfg k es := by
  have hfst := fst_counting cfg k es
  rw [countedYears, counting, List.foldl_concat]
  simp only [show es.foldl _ _ = counting cfg k es from rfl, hfst, stateOf, remember, List.foldl_concat]
  rfl

/-- They are the years of the stretch. -/
theorem countedYears_eq (cfg : CoreConfig) (k : String) (es : List LongTermEvent) :
    countedYears cfg k es = (stretch cfg.assumedWacc (signalsOf k es)).map (·.fiscalYear) := by
  induction es using List.reverseRecOn with
  | nil => rfl
  | append_singleton es e ih =>
    have hbefore := (streak_stateOf cfg k es).2
    have hafter := (streak_stateOf cfg k (es ++ [e])).2
    have hkept : stretch cfg.assumedWacc (signalsOf k (es ++ [e])) = stretch cfg.assumedWacc (signalsOf k es) →
        countedYears cfg k (es ++ [e]) = (stretch cfg.assumedWacc (signalsOf k (es ++ [e]))).map (·.fiscalYear) := by
      intro hsame
      rw [countedYears_concat, hbefore, hafter, hsame, if_neg (lt_irrefl _), ih]
      split
      · rename_i hzero
        rw [List.length_eq_zero_iff.1 hzero, List.map_nil]
      · rfl
    cases hof : e.isOf k with
    | false => exact hkept (by rw [signalsOf_concat, hof]; simp)
    | true =>
      cases hsignal : e.signal? with
      | none => exact hkept (by rw [signalsOf_concat, hsignal]; simp)
      | some x =>
        have hadd : signalsOf k (es ++ [e]) = signalsOf k es ++ [x] := by
          rw [signalsOf_concat, hof, hsignal, if_pos rfl, Option.toList_some]
        by_cases hyear : (readings (signalsOf k es)).getLast?.map (·.fiscalYear) = some x.fiscalYear
        · exact hkept (by rw [hadd, stretch_concat, if_pos hyear])
        · rw [countedYears_concat, hbefore, hafter, hadd, hsignal, ih, stretch_concat, if_neg hyear]
          by_cases hlow : x.low cfg.assumedWacc = true
          · rw [if_pos hlow, if_pos (by simp), List.map_append]
            rfl
          · rw [if_neg hlow, if_neg (by simp), List.length_nil, if_pos rfl, List.map_nil]

/-- The streak counts no fiscal year twice; from two on, the two most recent years observed are consecutive, and for both
an ROIC below WACC was reported. -/
structure StreakSound (cfg : CoreConfig) (k : String) (es : List LongTermEvent) : Prop where
  once : (countedYears cfg k es).Nodup
  recent : 2 ≤ (stateOf cfg k es).roicBelowWaccStreak → ∃ a b, recentYears (signalsOf k es) = some (a, b) ∧
    Adjacent a b ∧ ∀ year ∈ [a, b], ∃ x ∈ signalsOf k es, x.fiscalYear = year ∧ x.low cfg.assumedWacc = true

/-- The years of the stretch are steady. -/
def SteadyStretch (cfg : CoreConfig) (k : String) (es : List LongTermEvent) : Prop :=
  Steady ((stretch cfg.assumedWacc (signalsOf k es)).map (·.fiscalYear))

theorem SteadyStretch.sound (h : SteadyStretch cfg k es) : StreakSound cfg k es := by
  constructor
  · rw [countedYears_eq]
    exact h.nodup
  · intro htwo
    rw [(streak_stateOf cfg k es).2] at htwo
    obtain ⟨xs, a, b, hstretch⟩ := exists_last_two htwo
    obtain ⟨rs, hrs⟩ := exists_readings_eq cfg.assumedWacc (signalsOf k es)
    have hlast : readings (signalsOf k es) = rs ++ xs ++ [a] ++ [b] := by
      rw [hrs, hstretch]
      simp only [List.append_assoc]
    have hmem : ∀ x ∈ [a, b], x ∈ signalsOf k es ∧ x.low cfg.assumedWacc = true := fun x hx =>
      mem_of_mem_stretch (by rw [hstretch, List.append_assoc]; exact List.mem_append_right _ hx)
    rw [SteadyStretch, hstretch, List.map_append, List.map_append] at h
    refine ⟨a.fiscalYear, b.fiscalYear, recentYears_eq hlast, h.adjacent, fun year hyear => ?_⟩
    obtain ⟨x, hx, rfl⟩ := List.mem_map.1 (show year ∈ [a, b].map (·.fiscalYear) from hyear)
    exact ⟨x, (hmem x hx).1, rfl, (hmem x hx).2⟩

/-- A stretch that grows soundly stays steady. -/
theorem SteadyStretch.concat (h : SteadyStretch cfg k es) (hsound : StreakSound cfg k (es ++ [e])) :
    SteadyStretch cfg k (es ++ [e]) := by
  have honce := hsound.once
  rw [countedYears_eq] at honce
  have hrecent := hsound.recent
  rw [(streak_stateOf cfg k (es ++ [e])).2] at hrecent
  unfold SteadyStretch
  by_cases hsame : stretch cfg.assumedWacc (signalsOf k (es ++ [e])) = stretch cfg.assumedWacc (signalsOf k es)
  · rw [hsame]
    exact h
  obtain ⟨x, hadd⟩ : ∃ x, signalsOf k (es ++ [e]) = signalsOf k es ++ [x] := by
    rw [signalsOf_concat] at hsame ⊢
    cases hof : e.isOf k with
    | false => simp [hof] at hsame
    | true =>
      cases hsignal : e.signal? with
      | none => simp [hof, hsignal] at hsame
      | some x => exact ⟨x, rfl⟩
  rw [hadd, stretch_concat] at hsame honce hrecent ⊢
  by_cases hyear : (readings (signalsOf k es)).getLast?.map (·.fiscalYear) = some x.fiscalYear
  · exact absurd (if_pos hyear) hsame
  rw [if_neg hyear] at honce hrecent ⊢
  by_cases hlow : x.low cfg.assumedWacc = true
  · rw [if_pos hlow, List.map_append] at honce ⊢
    rw [if_pos hlow] at hrecent
    refine Steady.concat h honce fun year hlast => ?_
    -- the last two of the stretch are the last two readings
    rw [List.getLast?_map] at hlast
    obtain ⟨a, ha, rfl⟩ := Option.map_eq_some_iff.1 hlast
    obtain ⟨xs, hxs⟩ := List.getLast?_eq_some_iff.1 ha
    obtain ⟨rs, hrs⟩ := exists_readings_eq cfg.assumedWacc (signalsOf k es)
    have hreadings : readings (signalsOf k es ++ [x]) = rs ++ xs ++ [a] ++ [x] := by
      rw [readings_concat, if_neg hyear, hrs, hxs]
      simp only [List.append_assoc]
    obtain ⟨a', b', hrecent, hadjacent, -⟩ := hrecent (by rw [hxs]; simp)
    rw [recentYears_eq hreadings, Option.some.injEq, Prod.mk.injEq] at hrecent
    rwa [← hrecent.1, ← hrecent.2] at hadjacent
  · rw [if_neg hlow]
    exact .inl List.isChain_nil

/-- In every run: in all the states that it reaches the streak is sound, exactly when the fiscal years of every stretch go up
one by one, or down one by one. -/
theorem streak_sound_iff (cfg : CoreConfig) (k : String) (es : List LongTermEvent) :
    (∀ p, p <+: es → StreakSound cfg k p) ↔ ∀ p, p <+: es → SteadyStretch cfg k p := by
  constructor
  · intro hsound p hp
    induction p using List.reverseRecOn with
    | nil => exact .inl List.isChain_nil
    | append_singleton p e ih => exact (ih ((List.prefix_append p [e]).trans hp)).concat (hsound _ hp)
  · intro hsteady p hp
    exact (hsteady p hp).sound

end Streak

/-! ## Runs on fixed inputs -/

def yearly (fiscalYear : ℤ) (roic : ℚ) : LongTermEvent :=
  .received (.signal
    { ticker := "AAPL", fiscalYear, roic := some (.fin roic), piotroskiFScore := none, fcfYield := none, altmanZScore := none
      debtToEbitdaProxy := none, price := .fin 100, message := "", isEarningsRelated := false, computedAt := 0 }) 0

/-- The only rate that matters here. -/
def ninePercent : CoreConfig :=
  { minConfidence := 0, correlationWindow := 0, tickerCooldown := 0, priceDeltaRetriggerPct := 0, qualityScoreMin := 0
    marginOfSafetyPct := 0, valuationPremiumPct := 0, assumedWacc := 9 / 100, maxDebtToEbitda := 0
    correlationWindowLongTerm := 0, tickerCooldownLongTerm := 0, priceDeltaRetriggerPctLongTerm := 0 }

/-- An earlier year is published again between two publications of a later one. -/
theorem streak_counts_twice : ¬StreakSound ninePercent "AAPL"
    [yearly 2025 (5 / 100), yearly 2024 (5 / 100), yearly 2025 (5 / 100)] := by
  intro h
  have htwice : ¬(countedYears ninePercent "AAPL"
      [yearly 2025 (5 / 100), yearly 2024 (5 / 100), yearly 2025 (5 / 100)]).Nodup := by decide +kernel
  exact htwice h.once

/-- A missing year does not end the streak. -/
example : countedYears ninePercent "AAPL" [yearly 2023 (5 / 100), yearly 2025 (5 / 100)] = [2023, 2025] := by
  decide +kernel

end TalonX.Core
