import TalonX.Transact.Table
import TalonX.V2.Calendar
import Mathlib.Algebra.Order.Ring.Rat

/-!
# The persisted state of the PAPER lifecycle

- the identities: `stable_id` is the tuple of the parts that it hashes;
- what the broker reports: `BrokerStatus`, `RawNumber`, `OrderRow`;
- the records `Intent`, `Order`, `Position` and `LifecycleState`, which every operation writes back as a whole, so that a
  restart reads the state that the last operation left;
- the derived quantities: what is pending, what is still held.

Quantities are exact rationals: the product trades whole shares.
-/

set_option autoImplicit false

namespace TalonX.Piv

open Transact V2

abbrev Symbol := String

abbrev BrokerOrderId := String

inductive Side
  | buy
  | sell
  deriving DecidableEq, Repr

/-! ## What the broker reports -/

/-- `_ALPACA_ORDER_STATUSES`. -/
inductive BrokerStatus
  | new
  | partiallyFilled
  | filled
  | doneForDay
  | canceled
  | expired
  | replaced
  | pendingCancel
  | pendingReplace
  | accepted
  | pendingNew
  | acceptedForBidding
  | stopped
  | rejected
  | suspended
  | calculated
  | held
  deriving DecidableEq, Repr

namespace BrokerStatus

/-- `_TERMINAL_ORDER_STATUSES`. -/
def terminal : BrokerStatus → Bool
  | filled | rejected | canceled | expired => true
  | _ => false

/-- `status in {"partially_filled", "filled"}`. -/
def isFill : BrokerStatus → Bool
  | partiallyFilled | filled => true
  | _ => false

end BrokerStatus

/-- A field of a response that should be a number: a number or its text, or something that `float` refuses. -/
inductive RawNumber
  | finite (q : ℚ)
  | boolean (b : Bool)
  | nonFinite (negative : Bool)
  | other (text : String)
  deriving DecidableEq, Repr

namespace RawNumber

/-- `_coerce_broker_qty`. -/
def coerce : RawNumber → Option ℚ
  | finite q => some q
  | _ => none

/-- `float(value)`; `none` raises. -/
def float : RawNumber → Option RawNumber
  | boolean b => some (finite (if b then 1 else 0))
  | other _ => none
  | r => some r

/-- `_safe_float(value) < 0`. -/
def isNegative : RawNumber → Bool
  | finite q => q < 0
  | nonFinite negative => negative
  | _ => false

end RawNumber

/-- The text of a status field. -/
inductive StatusText
  | missing
  | known (s : BrokerStatus)
  | unrecognised (text : String)
  deriving DecidableEq, Repr

/-- A timestamp of the broker as `_parse_iso_datetime` reads it. -/
inductive RawTime
  | zoned (t : Instant)
  | unparsable
  deriving DecidableEq, Repr

/-! ## Identities -/

/-- `stable_id("intent", …)`; `order_intent` has checked the quantity before. -/
structure IntentId where
  signalId : String
  symbol : Symbol
  side : Side
  quantity : ℚ
  positive : 0 < quantity
  deriving DecidableEq

/-- `stable_id("position", intent_id, symbol)`, of the intent of the entry. -/
structure PositionId where
  entry : IntentId
  deriving DecidableEq

/-- The `client_order_id` of a response: an intent submits under its own id. -/
inductive ClientOrderId
  | missing
  | ofIntent (i : IntentId)
  | foreign (text : String)
  deriving DecidableEq

/-- An Order object of the broker. -/
structure OrderRow where
  id : BrokerOrderId
  clientOrderId : ClientOrderId
  symbol : Symbol
  side : Option Side
  qty : RawNumber
  status : StatusText
  filledQty : Option RawNumber
  filledAvgPrice : Option RawNumber
  filledAt : Option RawTime
  deriving DecidableEq

/-! ## Records -/

inductive OrderSource
  | strategy
  | pivLifecycleProbe
  | experimental
  | unlisted (name : String)
  deriving DecidableEq, Repr

inductive IntentStatus
  | orderIntent
  | submitFailedUncertain
  | rejected
  | submitted
  | confirmedNotSubmitted
  deriving DecidableEq, Repr

/-- The payload repeats the parts of the id, and its `client_order_id` is the id. -/
structure Intent where
  id : IntentId
  status : IntentStatus
  source : Option OrderSource := none
  referencePrice : Option ℚ := none
  stopPrice : Option ℚ := none
  targetPrice : Option ℚ := none
  experimentalId : Option String := none
  notFoundConfirmations : ℕ := 0
  lastUncertainCheckAt : Option Instant := none
  promotedFromOrphan : Bool := false
  deriving DecidableEq

/-- The status of an order on file: one of the broker, or one of the two sentinels. -/
inductive OrderStatus
  | submitted
  | unconfirmedTimeout
  | broker (s : BrokerStatus)
  deriving DecidableEq, Repr

def OrderStatus.terminal : OrderStatus → Bool
  | broker s => s.terminal
  | _ => false

structure Order where
  id : BrokerOrderId
  intentId : IntentId
  symbol : Symbol
  status : OrderStatus
  filledQty : ℚ
  fillPrice : Option ℚ := none
  deriving DecidableEq

inductive PositionStatus
  | opened
  | closed
  deriving DecidableEq, Repr

inductive ExitReason
  | stop
  | target
  | endOfSession
  deriving DecidableEq, Repr

structure Position where
  id : PositionId
  symbol : Symbol
  quantity : ℚ
  price : Option ℚ
  status : PositionStatus
  stopPrice : Option ℚ
  targetPrice : Option ℚ
  experimentalId : Option String
  exitQuantity : ℚ
  remainingQuantity : ℚ
  exitPrice : Option ℚ := none
  grossPnl : Option ℚ := none
  firstFillObservedAt : Option RawTime
  triggeredExitReason : Option ExitReason := none
  deriving DecidableEq

inductive ReconcileStatus
  | matched
  | incompleteReconciliation
  | mismatched
  | reconciliationError
  deriving DecidableEq, Repr

structure ReconciliationFlags where
  unexpectedShortDetected : Bool := false
  unexpectedShortSymbols : List Symbol := []
  entryAdmissionBlocked : Bool := false
  matched : Bool := false
  status : Option ReconcileStatus := none
  deriving DecidableEq, Repr

structure BudgetRecord where
  entriesUsed : ℕ
  notionalUsed : ℚ
  deriving DecidableEq, Repr

/-- Per experiment id. -/
abbrev Budgets := String → Option BudgetRecord

structure LifecycleState where
  sessionEnabled : Bool := false
  killSwitch : Bool := false
  intents : Table Intent.id := Table.empty
  orders : Table Order.id := Table.empty
  positions : Table Position.id := Table.empty
  openPositionBySymbol : Symbol → Option PositionId := fun _ => none
  reconciliationFlags : ReconciliationFlags := {}
  experimentalBudgets : Budgets := fun _ => none

/-! ## What is held and what is pending -/

namespace LifecycleState

variable (s : LifecycleState)

/-- `_open_position_for`. -/
def openPositionFor (symbol : Symbol) : Option Position :=
  match (s.openPositionBySymbol symbol).bind s.positions.get with
  | some position => if position.status = .opened then some position else none
  | none => none

/-- The order belongs to a recorded intent of that side. -/
def sideIs (side : Side) (o : Order) : Bool := (s.intents.get o.intentId).any fun i => i.id.side = side

/-- `_non_terminal_orders_for`. -/
def nonTerminalOrdersFor (symbol : Symbol) (side : Side) : List Order :=
  s.orders.rows.filter fun o => o.symbol = symbol && !o.status.terminal && s.sideIs side o

/-- The intents of a symbol and a side with one of the statuses. -/
def intentsFor (symbol : Symbol) (side : Side) (status : IntentStatus) : List Intent :=
  s.intents.rows.filter fun i => i.status = status && i.id.symbol = symbol && i.id.side = side

/-- `_orphaned_uncertain_intents_for`. -/
def orphanedUncertainIntentsFor (symbol : Symbol) (side : Side) : List Intent :=
  s.intentsFor symbol side .submitFailedUncertain

/-- `_pending_quantity`. -/
def pendingQuantity (symbol : Symbol) (side : Side) : ℚ :=
  ((s.nonTerminalOrdersFor symbol side).map fun o => max 0 (o.intentId.quantity - o.filledQty)).sum +
    ((s.orphanedUncertainIntentsFor symbol side).map fun i => i.id.quantity).sum

/-- `entry_still_pending_or_uncertain`. -/
def entryStillPendingOrUncertain (symbol : Symbol) : Bool :=
  !(s.nonTerminalOrdersFor symbol .buy).isEmpty || !(s.orphanedUncertainIntentsFor symbol .buy).isEmpty ||
    !(s.intentsFor symbol .buy .orderIntent).isEmpty

/-- `remaining_holdings`. -/
def remainingHoldings (symbol : Symbol) : ℚ :=
  match s.openPositionFor symbol with
  | none => 0
  | some position => max 0 (position.remainingQuantity - s.pendingQuantity symbol .sell)

end LifecycleState

end TalonX.Piv
