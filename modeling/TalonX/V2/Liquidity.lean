import Mathlib.Algebra.Order.Field.Rat
import Mathlib.Data.List.Dedup
import TalonX.V2.ClusterEngine
import TalonX.V2.Paper

/-!
# The liquidity gate and the Brain decision

- `Bar`: a daily bar the price sources let through (positive open and close);
- `evaluateLiquidity`, `evaluateLiquidityChecked`: the trailing window strictly before the entry session;
- `causalDecision`: the decision `process_episode` and the intent pass both derive from it.
-/

set_option autoImplicit false

namespace TalonX.V2

/-- A price row; the sources drop rows whose open or close is missing, not finite or not positive. -/
structure Bar where
  date : Date
  openPrice : PosRat
  closePrice : PosRat
  volume : ℚ
  provenance : Option Provenance

structure LiquidityResult where
  ok : Bool
  medianDollarVolume : Option ℚ
  lastClose : Option ℚ
  nSessionsUsed : ℕ
  reason : LiquidityReason

/-- The bars strictly before the entry session, oldest first. -/
def priorBars (bars : List Bar) (entrySession : Date) : List Bar :=
  (bars.filter (·.date < entrySession)).insertionSort fun a b => a.date ≤ b.date

/-- `prior[-n:]`, for a positive `n`. -/
def liquidityWindow (cfg : V2Config) (bars : List Bar) (entrySession : Date) : List Bar :=
  let prior := priorBars bars entrySession
  prior.drop (prior.length - cfg.liquidityLookbackSessions)

def medianOfSorted (dvs : List ℚ) : ℚ :=
  let m := dvs.length
  if m % 2 = 1 then dvs.getD (m / 2) 0 else (dvs.getD (m / 2 - 1) 0 + dvs.getD (m / 2) 0) / 2

def evaluateLiquidity (cfg : V2Config) (bars : List Bar) (entrySession : Date) : LiquidityResult :=
  let window := liquidityWindow cfg bars entrySession
  match window.getLast? with
  | none => ⟨false, none, none, 0, .noPriorBars⟩
  | some last =>
    if window.length < cfg.liquidityLookbackSessions then
      ⟨false, none, some last.closePrice.1, window.length,
        .insufficientHistory window.length cfg.liquidityLookbackSessions⟩
    else
      let median := medianOfSorted ((window.map fun b => b.closePrice.1 * b.volume).insertionSort (· ≤ ·))
      if last.closePrice.1 < cfg.liquidityMinClose then ⟨false, some median, some last.closePrice.1, window.length, .closeLt⟩
      else if median < cfg.liquidityMinMedianDollarVolume then
        ⟨false, some median, some last.closePrice.1, window.length, .medianDvLt⟩
      else ⟨true, some median, some last.closePrice.1, window.length, .pass⟩

/-- With `requireContiguous` the window must be exactly the sessions that precede the entry session. -/
def evaluateLiquidityChecked (cal : Calendar) (cfg : V2Config) (requireContiguous : Bool) (bars : List Bar)
    (entrySession : Date) : Option LiquidityResult :=
  let n := cfg.liquidityLookbackSessions
  let window := liquidityWindow cfg bars entrySession
  if requireContiguous && window.length = n then
    match ((List.range n).map (n - ·)).mapM fun k => cal.addSessions entrySession (-(k : ℤ)) with
    | none => none
    | some expected =>
      if window.map Bar.date = expected then some (evaluateLiquidity cfg bars entrySession)
      else
        let missing := (expected.dedup.filter (· ∉ window.map Bar.date)).length
        some ⟨false, none, window.getLast?.map (·.closePrice.1), window.length, .nonContiguousWindow missing n⟩
  else some (evaluateLiquidity cfg bars entrySession)

/-- The Quant signal and the Brain's answer to it: `BUY` when the gate passes, else `HOLD`. -/
def contextualize (ep : ClusterEpisode) (liq : LiquidityResult) : Decision :=
  ⟨ep.episodeId, ep.symbol, if liq.ok then .buy else .hold⟩

/-- `_eval_causal_decision`. -/
def causalDecision (cal : Calendar) (cfg : V2Config) (requireContiguous : Bool) (bars : List Bar)
    (ep : ClusterEpisode) : Option (LiquidityResult × Decision) :=
  (evaluateLiquidityChecked cal cfg requireContiguous bars ep.eligibleEntrySession).map fun liq =>
    (liq, contextualize ep liq)

@[simp] theorem contextualize_episodeId (ep : ClusterEpisode) (liq : LiquidityResult) :
    (contextualize ep liq).episodeId = ep.episodeId := rfl

@[simp] theorem contextualize_symbol (ep : ClusterEpisode) (liq : LiquidityResult) :
    (contextualize ep liq).symbol = ep.symbol := rfl

end TalonX.V2
