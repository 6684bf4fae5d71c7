import Mathlib.Data.List.Sort
import TalonX.Clock.IsoFormat
import TalonX.Core.PyFloat
import TalonX.Piv.Engine

/-!
# The shadow ledger

Hypothetical trades that follow recommendations, without a broker: `shadow_ledger.py`, and what it uses of
`execution.py`.

- `ExecutionConfig`, `applyCost`, `checkBarForExit`: costs, and the level that a bar reaches;
- `ShadowPosition`, with `fill`, `observe`, `exitAt` and `close`: what is done to one record;
- `ShadowLedger`: the records, the three indexes, and the file that every call leaves behind;
- `considerEntry`, `onBar`, `forceClose`, `reload`: the calls; `runShadow`: a sequence of them.
-/

set_option autoImplicit false

namespace TalonX.Piv.Shadow

open Clock Transact
open TalonX.Core (PyFloat)

/-! ## Costs and levels -/

inductive Direction
  | bullish
  | bearish
  deriving DecidableEq

inductive SameBarResolution
  | stopFirst
  | targetFirst
  deriving DecidableEq

structure ExecutionConfig where
  entrySlippageBps : ℚ := 0
  exitSlippageBps : ℚ := 0
  spreadBps : ℚ := 0
  sameBarResolution : SameBarResolution := .stopFirst

inductive TradeSide
  | entry
  | exit
  deriving DecidableEq

/-- `_apply_cost`: the price is moved against the trader. -/
def applyCost (price : PyFloat) (direction : Direction) (side : TradeSide) (bps : ℚ) : PyFloat :=
  if bps ≤ 0 then price
  else
    let factor := bps / 10000
    if (side = .entry) = (direction = .bullish) then price.scale (1 + factor) else price.scale (1 - factor)

def applyEntryCost (rawPrice : PyFloat) (direction : Direction) (config : ExecutionConfig) : PyFloat :=
  applyCost rawPrice direction .entry (config.entrySlippageBps + config.spreadBps / 2)

def applyExitCost (rawPrice : PyFloat) (direction : Direction) (config : ExecutionConfig) : PyFloat :=
  applyCost rawPrice direction .exit (config.exitSlippageBps + config.spreadBps / 2)

inductive LevelHit
  | stop
  | target
  deriving DecidableEq

/-- `outcome.upper()`. -/
def LevelHit.reason : LevelHit → String
  | .stop => "STOP"
  | .target => "TARGET"

/-- `check_bar_for_exit`. -/
def checkBarForExit (direction : Direction) (stopPrice targetPrice barHigh barLow : PyFloat)
    (sameBarResolution : SameBarResolution) : Option LevelHit :=
  let hitTarget := if direction = .bullish then targetPrice.le barHigh else barLow.le targetPrice
  let hitStop := if direction = .bullish then barLow.le stopPrice else stopPrice.le barHigh
  if hitTarget && hitStop then some (if sameBarResolution = .stopFirst then .stop else .target)
  else if hitStop then some .stop
  else if hitTarget then some .target
  else none

/-! ## One record -/

structure Bar where
  timestamp : Utc
  openPrice : PyFloat
  high : PyFloat
  low : PyFloat
  close : PyFloat

inductive Status
  | pendingFill
  | opened
  | closed
  | unresolved
  deriving DecidableEq

/-- The times are texts in the source; they are written by `isoformat`. -/
structure ShadowPosition where
  shadowId : String
  decisionId : String
  symbol : String
  source : String
  recommendationTime : Utc
  stopPrice : Option PyFloat
  targetPrice : Option PyFloat
  horizon : Option String
  plannedEntryPrice : Option PyFloat
  experimental : Bool
  experimentalId : Option String
  status : Status := .pendingFill
  horizonDeadline : Option Utc := none
  hypotheticalFillTime : Option Utc := none
  simulatedEntryPriceRaw : Option PyFloat := none
  simulatedEntryPriceNet : Option PyFloat := none
  exitTime : Option Utc := none
  exitReason : Option String := none
  simulatedExitPriceRaw : Option PyFloat := none
  simulatedExitPriceNet : Option PyFloat := none
  grossResult : Option PyFloat := none
  estimatedEntryCost : Option PyFloat := none
  estimatedExitCost : Option PyFloat := none
  netResult : Option PyFloat := none
  initialRisk : Option PyFloat := none
  grossR : Option PyFloat := none
  netR : Option PyFloat := none
  holdingSeconds : Option ℚ := none
  mfePrice : Option PyFloat := none
  maePrice : Option PyFloat := none
  outcomeQuality : Option String := none

/-- `max(a, b)` of Python, which keeps `a` unless `b` is greater. -/
def pyMax (a b : PyFloat) : PyFloat := if a.lt b then b else a

def pyMin (a b : PyFloat) : PyFloat := if b.lt a then b else a

/-- `ts + delta`; beyond the last year it raises. -/
def plusMicros (t : Utc) (delta : ℕ) : Option Utc :=
  if h : t.micros + delta < horizon then some ⟨t.micros + delta, h⟩ else none

/-- The lengths of the horizons that have one, in microseconds. -/
abbrev HorizonPolicy := Option String → Option ℕ

/-- The deadline of a fill: `none` is an `OverflowError`. -/
def deadlineOf (policy : HorizonPolicy) (horizon : Option String) (fillTime : Utc) : Option (Option Utc) :=
  match policy horizon with
  | none => some none
  | some delta => (plusMicros fillTime delta).map some

namespace ShadowPosition

variable (config : ExecutionConfig) (p : ShadowPosition)

/-- A trade that is live for its symbol. -/
def live : Bool := p.status = .pendingFill || p.status = .opened

/-- The fill at the open of a bar. -/
def fill (b : Bar) (deadline : Option Utc) : ShadowPosition :=
  { p with
    status := .opened
    hypotheticalFillTime := some b.timestamp
    simulatedEntryPriceRaw := some b.openPrice
    simulatedEntryPriceNet := some (applyEntryCost b.openPrice .bullish config)
    mfePrice := some b.openPrice
    maePrice := some b.openPrice
    horizonDeadline := deadline
    initialRisk := p.stopPrice.map fun stop => (b.openPrice.sub stop).abs }

/-- The excursions with the range of one more bar. -/
def observe (b : Bar) : ShadowPosition :=
  { p with
    mfePrice := p.mfePrice.map (pyMax · b.high)
    maePrice := p.maePrice.map (pyMin · b.low) }

/-- The level that a bar reaches; both have to be known. -/
def levelHit (b : Bar) : Option (LevelHit × PyFloat) :=
  match p.stopPrice, p.targetPrice with
  | some stop, some target =>
    (checkBarForExit .bullish stop target b.high b.low .stopFirst).map fun hit =>
      (hit, if hit = .stop then stop else target)
  | _, _ => none

/-- A deadline is reached at `t`. -/
def expiredAt (t : Utc) : Bool := p.horizonDeadline.any fun deadline => deadline.isoformat ≤ t.isoformat

/-- The price and the reason of an exit on a bar: levels first, then the deadline at the close. -/
def exitAt (b : Bar) : Option (PyFloat × String) :=
  match p.levelHit b with
  | some (hit, price) => some (price, hit.reason)
  | none => if p.expiredAt b.timestamp then some (b.close, "HORIZON") else none

/-- `result / risk if risk else None`. -/
def inRisks (result : Option PyFloat) : Option PyFloat :=
  match p.initialRisk, result with
  | some risk, some result => result.div? risk
  | _, _ => none

/-- The record part of `_close`. -/
def close (timestamp : Utc) (exitPriceRaw : PyFloat) (reason : String) : ShadowPosition :=
  let exitPriceNet := applyExitCost exitPriceRaw .bullish config
  let gross := p.simulatedEntryPriceRaw.map exitPriceRaw.sub
  let net := p.simulatedEntryPriceNet.map exitPriceNet.sub
  { p with
    status := .closed
    exitTime := some timestamp
    exitReason := some reason
    simulatedExitPriceRaw := some exitPriceRaw
    simulatedExitPriceNet := some exitPriceNet
    grossResult := gross
    netResult := net
    estimatedEntryCost :=
      p.simulatedEntryPriceRaw.bind fun raw => p.simulatedEntryPriceNet.map fun net => net.sub raw
    estimatedExitCost := some (exitPriceNet.sub exitPriceRaw)
    grossR := p.inRisks gross
    netR := p.inRisks net
    holdingSeconds := p.hypotheticalFillTime.map fun t => ((timestamp.micros : ℚ) - t.micros) / 1000000
    outcomeQuality := some "RESOLVED" }

/-- The record of a trade that ends without an exit price. -/
def unresolve (quality reason : String) : ShadowPosition :=
  { p with status := .unresolved, outcomeQuality := some quality, exitReason := some reason }

end ShadowPosition

/-! ## The ledger -/

structure ShadowLedger where
  positions : Table ShadowPosition.shadowId
  byDecision : String → Option String
  pendingBySymbol : String → Option String
  openBySymbol : String → Option String
  file : Table ShadowPosition.shadowId

/-- What `consider_entry` reads of a decision. -/
structure Decision where
  decisionId : String
  ticker : String
  recommendation : Recommendation
  timestamp : Utc
  entryPrice : Option PyFloat
  stopPrice : Option PyFloat
  targetPrice : Option PyFloat
  horizon : Option String
  experimental : Bool
  experimentalId : Option String

/-- The record of a recommendation that waits for its fill. -/
def Decision.position (d : Decision) (source : String) : ShadowPosition where
  shadowId := "shadow_" ++ d.decisionId
  decisionId := d.decisionId
  symbol := d.ticker
  source := source
  recommendationTime := d.timestamp
  stopPrice := d.stopPrice
  targetPrice := d.targetPrice
  horizon := d.horizon
  plannedEntryPrice := d.entryPrice
  experimental := d.experimental
  experimentalId := d.experimentalId

/-- The rows as `json.dumps` with `sort_keys` writes them. -/
def sortedRows (t : Table ShadowPosition.shadowId) : Table ShadowPosition.shadowId :=
  ⟨t.rows.insertionSort fun p q => p.shadowId ≤ q.shadowId,
    ((List.perm_insertionSort _ t.rows).map _).nodup_iff.2 t.unique⟩

/-- A dictionary over the records that qualify: of equal keys the last one counts. -/
def indexOf (rows : List ShadowPosition) (key : ShadowPosition → String) (p : ShadowPosition → Bool) (k : String) :
    Option String :=
  (rows.reverse.find? fun r => p r && key r = k).map (·.shadowId)

namespace ShadowLedger

/-- The constructor, over the file that it finds. -/
def reload (file : Table ShadowPosition.shadowId) : ShadowLedger where
  positions := file
  byDecision := indexOf file.rows (·.decisionId) fun _ => true
  pendingBySymbol := indexOf file.rows (·.symbol) (·.status = .pendingFill)
  openBySymbol := indexOf file.rows (·.symbol) (·.status = .opened)
  file := file

def empty : ShadowLedger := reload Table.empty

variable (L : ShadowLedger)

/-- `positions[p.shadow_id] = p`, also where a record is changed in place. -/
def assign (p : ShadowPosition) : ShadowLedger :=
  { L with
    positions := L.positions.upsert p (fun q => if q.shadowId = p.shadowId then p else q) fun q => by
      split
      · next h => exact h.symm
      · rfl }

/-- `_save`. -/
def save : ShadowLedger := { L with file := sortedRows L.positions }

def setPending (symbol : String) (id : Option String) : ShadowLedger :=
  { L with pendingBySymbol := Function.update L.pendingBySymbol symbol id }

def setOpen (symbol : String) (id : Option String) : ShadowLedger :=
  { L with openBySymbol := Function.update L.openBySymbol symbol id }

/-- The record that an index points to. -/
def lookup (id : Option String) : Option ShadowPosition := id.bind L.positions.get

/-- `consider_entry`. -/
def considerEntry (d : Decision) (source : String) : ShadowLedger :=
  if d.recommendation ≠ .buy ∧ d.recommendation ≠ .experimentalBuy then L
  else if (L.lookup (L.byDecision d.decisionId)).isSome then L
  else if (L.pendingBySymbol d.ticker).isSome || (L.openBySymbol d.ticker).isSome then L
  else
    let p := d.position source
    let L' := (L.assign p).setPending d.ticker (some p.shadowId)
    { L' with byDecision := Function.update L'.byDecision d.decisionId (some p.shadowId) }.save

variable (policy : HorizonPolicy) (config : ExecutionConfig)

/-- The first half of `on_bar`; `none` is an exception, before anything was changed. -/
def fillPending (symbol : String) (b : Bar) : Option ShadowLedger :=
  match L.lookup (L.pendingBySymbol symbol) with
  | none => some L
  | some p =>
    if p.recommendationTime.isoformat < b.timestamp.isoformat then
      (deadlineOf policy p.horizon b.timestamp).map fun deadline =>
        (((L.assign (p.fill config b deadline)).setPending symbol none).setOpen symbol (some p.shadowId)).save
    else some L

/-- `_close`. -/
def closePosition (p : ShadowPosition) (timestamp : Utc) (exitPriceRaw : PyFloat) (reason : String) : ShadowLedger :=
  let L' := L.assign (p.close config timestamp exitPriceRaw reason)
  (if L'.openBySymbol p.symbol = some p.shadowId then L'.setOpen p.symbol none else L').save

/-- The second half of `on_bar`. -/
def monitorOpen (symbol : String) (b : Bar) : ShadowLedger :=
  match L.lookup (L.openBySymbol symbol) with
  | none => L
  | some p =>
    let seen := p.observe b
    match seen.exitAt b with
    | some (price, reason) => L.closePosition config seen b.timestamp price reason
    | none => (L.assign seen).save

/-- `on_bar`; the caller of it catches exceptions. -/
def onBar (symbol : String) (b : Bar) : ShadowLedger :=
  match L.fillPending policy config symbol b with
  | none => L
  | some L' => L'.monitorOpen config symbol b

/-- The reason of a forced close, once the deadline has passed unobserved. -/
def forcedReason (p : ShadowPosition) (timestamp : Utc) (reason : String) : String :=
  if p.expiredAt timestamp && reason != "HORIZON" then "HORIZON_EXPIRED_NO_EXECUTABLE_OBSERVATION" else reason

/-- The open trade of `force_close`, and the reason from then on. -/
def forceOpen (symbol : String) (timestamp : Utc) (price : Option PyFloat) (reason : String) : ShadowLedger × String :=
  match L.lookup (L.openBySymbol symbol) with
  | none => (L, reason)
  | some p =>
    let reason := forcedReason p timestamp reason
    match price with
    | some price => (L.closePosition config p timestamp price reason, reason)
    | none =>
      (((L.assign (p.unresolve "UNRESOLVED_MISSING_CLOSE_PRICE" reason)).setOpen symbol none).save, reason)

/-- `force_close`. -/
def forceClose (symbol : String) (timestamp : Utc) (price : Option PyFloat) (reason : String) : ShadowLedger :=
  let (L', reason) := L.forceOpen config symbol timestamp price reason
  match L'.lookup (L'.pendingBySymbol symbol) with
  | none => L'
  | some p =>
    ((L'.assign (p.unresolve "UNRESOLVED_NO_FILL_BEFORE_HORIZON_END" reason)).setPending symbol none).save

end ShadowLedger

/-! ## Runs -/

inductive Event
  | consider (d : Decision) (source : String)
  | bar (symbol : String) (b : Bar)
  | forceClose (symbol : String) (timestamp : Utc) (price : Option PyFloat) (reason : String)
  | restart

variable (policy : HorizonPolicy) (config : ExecutionConfig)

def stepShadow (L : ShadowLedger) : Event → ShadowLedger
  | .consider d source => L.considerEntry d source
  | .bar symbol b => L.onBar policy config symbol b
  | .forceClose symbol timestamp price reason => L.forceClose config symbol timestamp price reason
  | .restart => ShadowLedger.reload L.file

/-- The ledger after a sequence of calls and restarts, from an empty file. -/
def runShadow (es : List Event) : ShadowLedger := es.foldl (stepShadow policy config) ShadowLedger.empty

end TalonX.Piv.Shadow
