import TalonX.Piv.Lifecycle

/-!
# The decision engine

- `Situation.decide`: what a decision recommends, and what may be done about it at the broker;
- `Plan`: the exit plan of a symbol, which lives in memory; `rehydrated` builds the plans again from the saved state;
- `handleEntry`, `checkExit`, `flagOrphanedPositions`: the parts of a tick;
- `onBars`: a tick. What raises ends it, and the session goes on with the next one.

The scanner, the authorization of experiments and the ledgers of alerts and shadow positions stay outside; the decision
ledger may fail to write.
-/

set_option autoImplicit false

namespace TalonX.Piv

open Transact V2

/-! ## Decisions -/

inductive MarketView
  | bullish
  | bearish
  | neutral
  deriving DecidableEq, Repr

inductive Recommendation
  | buy
  | hold
  | sellToClose
  | noTrade
  | experimentalBuy
  deriving DecidableEq, Repr

inductive StrategyApprovalStatus
  | unvalidated
  | approved
  deriving DecidableEq, Repr

inductive DataReadiness
  | ready
  | dataNotReady
  | pending
  deriving DecidableEq, Repr

inductive ExecutionStatus
  | noAction
  | entryEligible
  | entryBlockedPaperDisabled
  | exitEligible
  | entryEligibleExperimentalPaper
  | entryBlockedExperimentalPaperNotPermitted
  deriving DecidableEq, Repr

structure Situation where
  marketView : MarketView
  hasOpenLong : Bool
  approvedExitCondition : Bool
  strategyApprovalStatus : StrategyApprovalStatus
  dataReadiness : DataReadiness := .ready
  paperEntryEnabled : Bool
  experimentalBuyPermitted : Bool := false
  experimentalPaperPermitted : Bool := false

namespace Situation

def recommendation (x : Situation) : Recommendation :=
  if x.hasOpenLong then if x.approvedExitCondition then .sellToClose else .hold
  else if x.marketView ≠ .bullish then .noTrade
  else if x.dataReadiness ≠ .ready then .noTrade
  else if x.strategyApprovalStatus ≠ .approved then
    if x.experimentalBuyPermitted then .experimentalBuy else .noTrade
  else .buy

/-- `decide`, up to the texts that are only displayed. -/
def decide (x : Situation) : Recommendation × ExecutionStatus :=
  (x.recommendation,
    match x.recommendation with
    | .buy => if x.paperEntryEnabled then .entryEligible else .entryBlockedPaperDisabled
    | .experimentalBuy =>
      if x.experimentalPaperPermitted then .entryEligibleExperimentalPaper
      else .entryBlockedExperimentalPaperNotPermitted
    | .sellToClose => .exitEligible
    | _ => .noAction)

end Situation

/-! ## The engine -/

structure Bar where
  timestamp : Instant
  low : ℚ
  high : ℚ
  deriving DecidableEq, Repr

/-- `OpenDecisionPosition`. -/
structure Plan where
  stopPrice : Option ℚ
  targetPrice : Option ℚ
  experimentalId : Option String := none
  experimental : Bool := false
  exitReason : Option ExitReason := none
  deriving DecidableEq, Repr

/-- The saved lifecycle and the plans in memory. -/
structure Engine where
  state : LifecycleState := {}
  plans : Symbol → Option Plan := fun _ => none
  /-- The time of the bar whose price fired the exit of a position, for the statements only. -/
  fired : PositionId → Option Instant := fun _ => none

/-- A signal of the scanner, with what `_experimental_permissions` and `_strategy_approval_status` say about it. -/
structure EntrySignal where
  symbol : Symbol
  barTimestamp : Instant
  price : ℚ
  stopPrice : Option ℚ
  targetPrice : Option ℚ
  bullish : Bool
  approval : StrategyApprovalStatus := .unvalidated
  experimentalBuyPermitted : Bool := false
  experimentalPaperPermitted : Bool := false
  experimentalId : Option String := none
  deriving DecidableEq, Repr

/-- What happens around one order: whether the decision ledger writes, the answer to the submission unless the process
dies before it is on file, and the poll that follows. -/
structure Dealing where
  recorded : Bool := true
  submit : Option SubmitAnswer
  poll : List OrderRow := []
  pollEnd : PollEnd := .timedOut

/-- How `order_intent` ends: with a `PaperGuardError`, with any other exception, or with the id of the order. -/
inductive Submitted
  | refused
  | raised
  | accepted (id : BrokerOrderId)
  deriving DecidableEq, Repr

/-- `order_intent`. -/
def orderIntent (cfg : Config) (s : LifecycleState) (r : OrderRequest) (submit : Option SubmitAnswer) :
    LifecycleState × Submitted :=
  match admitIntent cfg s r with
  | .error _ => (s, .refused)
  | .ok (i, t) =>
    match submit with
    | none => (t, .raised)
    | some .raised => (recordSubmission t i .raised, .raised)
    | some (.answered id) => (recordSubmission t i (.answered id), if id = "" then .refused else .accepted id)

/-- The poll ends with an exception: a read raises, or a number cannot be read. -/
def pollRaises (atEnd : PollEnd) : List OrderRow → Bool
  | [] => atEnd = .interrupted
  | row :: rows =>
    match row.pollReport with
    | none => true
    | some r => !r.status.terminal && pollRaises atEnd rows

/-- The engine after a part of a tick, whether the tick goes on, and the calls of `order_intent`. -/
structure Ran where
  engine : Engine
  goesOn : Bool
  calls : List OrderRequest := []

def pivQuantity : ℚ := 1

namespace Engine

variable (cfg : Config) (e : Engine)

def setPlan (symbol : Symbol) (plan : Option Plan) : Engine :=
  { e with plans := Function.update e.plans symbol plan }

@[simp] theorem plans_setPlan_self (symbol : Symbol) (plan : Option Plan) : (e.setPlan symbol plan).plans symbol = plan :=
  Function.update_self ..

theorem plans_setPlan_of_ne {symbol symbol' : Symbol} {plan : Option Plan} (h : symbol' ≠ symbol) :
    (e.setPlan symbol plan).plans symbol' = e.plans symbol' := Function.update_of_ne h ..

/-! ## Plans out of the saved state -/

/-- `_try_rehydrate_one`: the plan of an open position, unless it has no quantity. -/
def rehydratePlan (p : Position) : Option Plan :=
  if 0 < p.remainingQuantity ∨ 0 < p.quantity then
    some { stopPrice := p.stopPrice, targetPrice := p.targetPrice, experimentalId := p.experimentalId
           experimental := p.experimentalId.isSome, exitReason := p.triggeredExitReason }
  else none

/-- `_rehydrate_positions`, for one symbol: the first open position that gives a plan. -/
def rehydratePosition (s : LifecycleState) (symbol : Symbol) : Option Plan :=
  (s.positions.rows.filter fun p => p.status = .opened && p.symbol = symbol).findSome? rehydratePlan

/-- `pending_buy_intent_ids`, for one symbol. -/
def pendingBuyIntents (s : LifecycleState) (symbol : Symbol) : List Intent :=
  s.intents.rows.filter fun i => i.id.side = .buy && i.id.symbol = symbol &&
    (i.status = .orderIntent || i.status = .submitFailedUncertain ||
      s.orders.rows.any fun o => !o.status.terminal && o.intentId = i.id)

/-- `_rehydrate_pending_entries`, for one symbol: an ambiguous entry gives no plan. -/
def rehydratePending (s : LifecycleState) (symbol : Symbol) : Option Plan :=
  match pendingBuyIntents s symbol with
  | [i] => some { stopPrice := i.stopPrice, targetPrice := i.targetPrice, experimentalId := i.experimentalId
                  experimental := i.experimentalId.isSome }
  | _ => none

/-- A new process: the plans come from the saved state. -/
def restart : Engine :=
  { e with plans := fun symbol => (rehydratePosition e.state symbol).or (rehydratePending e.state symbol) }

/-- `_flag_orphaned_positions`, for one symbol. -/
def flag (symbol : Symbol) : Engine :=
  if (e.plans symbol).isSome then e
  else
    match e.state.openPositionFor symbol with
    | none => e
    | some p => e.setPlan symbol (rehydratePlan p)

def flagOrphanedPositions (symbols : List Symbol) : Engine := symbols.foldl flag e

/-! ## Entries -/

def entrySituation (sig : EntrySignal) : Situation :=
  { marketView := if sig.bullish then .bullish else .bearish
    hasOpenLong := (e.plans sig.symbol).isSome
    approvedExitCondition := false
    strategyApprovalStatus := sig.approval
    paperEntryEnabled := cfg.enabledFor sig.symbol
    experimentalBuyPermitted := sig.experimentalBuyPermitted
    experimentalPaperPermitted := sig.experimentalPaperPermitted }

/-- The decision lets the entry through. -/
def entryEligible (sig : EntrySignal) : Bool :=
  (e.entrySituation cfg sig).decide = (.buy, .entryEligible) ||
    (e.entrySituation cfg sig).decide = (.experimentalBuy, .entryEligibleExperimentalPaper)

def entryExperimental (sig : EntrySignal) : Bool := (e.entrySituation cfg sig).recommendation = .experimentalBuy

def entryRequest (sig : EntrySignal) : OrderRequest :=
  { signalId := "strategy_entry_" ++ sig.symbol ++ "_" ++ toString sig.barTimestamp
    symbol := sig.symbol, side := some .buy, quantity := some pivQuantity
    source := some (if e.entryExperimental cfg sig then .experimental else .strategy)
    referencePrice := some sig.price, stopPrice := sig.stopPrice, targetPrice := sig.targetPrice
    experimentalId := if e.entryExperimental cfg sig then sig.experimentalId else none }

def entryPlan (sig : EntrySignal) : Plan :=
  { stopPrice := sig.stopPrice, targetPrice := sig.targetPrice, experimental := e.entryExperimental cfg sig
    experimentalId := if e.entryExperimental cfg sig then sig.experimentalId else none }

/-- `_handle_entry`. -/
def handleEntry (sig : EntrySignal) (d : Dealing) : Ran :=
  if !d.recorded then ⟨e, false, []⟩
  else if !e.entryEligible cfg sig then ⟨e, true, []⟩
  else
    let r := e.entryRequest cfg sig
    match orderIntent cfg e.state r d.submit with
    | (s, .refused) => ⟨{ e with state := s }, true, [r]⟩
    | (s, .raised) => ⟨{ e with state := s }, false, [r]⟩
    | (s, .accepted id) =>
      ⟨{ e with state := pollOrderUntilTerminal s id d.poll d.pollEnd }.setPlan sig.symbol (some (e.entryPlan cfg sig)),
        !pollRaises d.pollEnd d.poll, [r]⟩

/-! ## Exits -/

/-- The bar is later than the first fill that the broker reported. -/
def causallyEligible (p : Position) (bar : Bar) : Bool :=
  match p.firstFillObservedAt with
  | some (.zoned t) => t < bar.timestamp
  | _ => false

/-- The levels that the bar reaches. -/
def priceReason (plan : Plan) (bar : Bar) : Option ExitReason :=
  if plan.stopPrice.any (bar.low ≤ ·) then some .stop
  else if plan.targetPrice.any (· ≤ bar.high) then some .target
  else none

/-- The exit that the price of this bar fires. -/
def priceTrigger (plan : Plan) (p : Position) (bar : Bar) (force : Option ExitReason) : Option ExitReason :=
  if force.isNone && plan.exitReason.isNone && causallyEligible p bar then priceReason plan bar else none

/-- Why the position is to be sold at this bar. -/
def exitReason (plan : Plan) (p : Position) (bar : Bar) (force : Option ExitReason) : Option ExitReason :=
  (force.or plan.exitReason).or (priceTrigger plan p bar force)

/-- The first reason is kept in the plan and saved with the position. -/
def latch (symbol : Symbol) (plan : Plan) (p : Position) (bar : Bar) (force : Option ExitReason) : Engine :=
  let reason := exitReason plan p bar force
  { state :=
      match plan.exitReason, reason with
      | none, some r => markExitTriggered e.state symbol r
      | _, _ => e.state
    plans := Function.update e.plans symbol (some { plan with exitReason := plan.exitReason.or reason })
    fired :=
      if (priceTrigger plan p bar force).isSome then Function.update e.fired p.id (some bar.timestamp) else e.fired }

/-- The SELL of what is left and not spoken for. -/
def exitRequest (symbol : Symbol) (plan : Plan) (bar : Bar) (reason : ExitReason) : OrderRequest :=
  { signalId := "strategy_exit_" ++ symbol ++ "_" ++ toString bar.timestamp
    symbol, side := some .sell, quantity := some (e.state.remainingHoldings symbol)
    source := some (if plan.experimental then .experimental else .strategy)
    referencePrice := match reason with
      | .stop => plan.stopPrice
      | .target => plan.targetPrice
      | .endOfSession => none
    experimentalId := if plan.experimental then plan.experimentalId else none }

/-- `_check_exit`, from the decision on. -/
def sellOut (symbol : Symbol) (plan : Plan) (bar : Bar) (reason : ExitReason) (d : Dealing) : Ran :=
  if e.state.remainingHoldings symbol ≤ shareTolerance then ⟨e, true, []⟩
  else
    let r := e.exitRequest symbol plan bar reason
    match orderIntent cfg e.state r d.submit with
    | (s, .refused) => ⟨{ e with state := s }, true, [r]⟩
    | (s, .raised) => ⟨{ e with state := s }, false, [r]⟩
    | (s, .accepted id) =>
      let e' := { e with state := pollOrderUntilTerminal s id d.poll d.pollEnd }
      if pollRaises d.pollEnd d.poll then ⟨e', false, [r]⟩
      else ⟨if (e'.state.openPositionFor symbol).isNone then e'.setPlan symbol none else e', true, [r]⟩

/-- `_check_exit`. -/
def checkExit (symbol : Symbol) (bar : Bar) (force : Option ExitReason) (d : Dealing) : Ran :=
  match e.plans symbol with
  | none => ⟨e, true, []⟩
  | some plan =>
    match e.state.openPositionFor symbol with
    | none => ⟨if e.state.entryStillPendingOrUncertain symbol then e else e.setPlan symbol none, true, []⟩
    | some p =>
      let e' := e.latch symbol plan p bar force
      if !d.recorded then ⟨e', false, []⟩
      else
        match exitReason plan p bar force with
        | none => ⟨e', true, []⟩
        | some reason => e'.sellOut cfg symbol plan bar reason d

/-! ## Ticks -/

end Engine

inductive Part
  | flag (symbol : Symbol)
  | entry (sig : EntrySignal) (d : Dealing)
  | exit (symbol : Symbol) (bar : Bar) (forced : Bool) (d : Dealing)

/-- The symbol that the part is about. -/
def Part.symbol : Part → Symbol
  | .flag symbol => symbol
  | .entry sig _ => sig.symbol
  | .exit symbol _ _ _ => symbol

/-- One call of `on_bars`: the bars with what happens around their exits, whether the scanner takes the bars, and the
signals that it publishes. A symbol has one bar. -/
structure Tick where
  bars : List (Symbol × Bar × Dealing)
  distinct : (bars.map (·.1)).Nodup
  fed : Bool := true
  signals : List (EntrySignal × Dealing) := []

def Tick.parts (t : Tick) : List Part :=
  t.bars.map (fun b => .flag b.1) ++
    if t.fed then t.signals.map (fun x => .entry x.1 x.2) ++ t.bars.map fun b => .exit b.1 b.2.1 false b.2.2 else []

namespace Engine

def exec (cfg : Config) (e : Engine) : Part → Ran
  | .flag symbol => ⟨e.flag symbol, true, []⟩
  | .entry sig d => e.handleEntry cfg sig d
  | .exit symbol bar forced d => e.checkExit cfg symbol bar (if forced then some .endOfSession else none) d

/-- The parts one after the other, until one raises. -/
def runParts (cfg : Config) : Engine → List Part → Ran
  | e, [] => ⟨e, true, []⟩
  | e, part :: parts =>
    let r := e.exec cfg part
    if r.goesOn then
      let r' := runParts cfg r.engine parts
      ⟨r'.engine, r'.goesOn, r.calls ++ r'.calls⟩
    else r

/-- `on_bars`. -/
def onBars (cfg : Config) (e : Engine) (t : Tick) : Ran := e.runParts cfg t.parts

/-- `flatten_all`: the end of the session, for the symbols that have a bar. -/
def flattenAll (cfg : Config) (e : Engine) (bars : List (Symbol × Bar × Dealing)) : Ran :=
  e.runParts cfg ((bars.filter fun b => (e.plans b.1).isSome).map fun b => .exit b.1 b.2.1 true b.2.2)

end Engine

end TalonX.Piv
