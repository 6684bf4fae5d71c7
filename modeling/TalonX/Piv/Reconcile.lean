import TalonX.Piv.World
import Mathlib.Data.List.Sort

/-!
# Reconcile

One pass of `reconcile` over the answers that the broker gives to its reads:

- the stages that change the state: orders left `UNCONFIRMED_TIMEOUT` are read again, orphan intents are promoted, uncertain
  submissions are looked up, every outstanding order is refreshed;
- the comparison of the state that they leave with the broker's list of open orders and its positions;
- the verdict, which is written into `reconciliation_flags`.

`record_reconciliation_failure` is what a caller does when a pass raises.

The lists of a report keep the order of the rows that they are about; `reconcile` sorts them for display.
-/

set_option autoImplicit false

namespace TalonX.Piv

open Transact V2

/-! ## The answers of the broker -/

/-- The answer to a request for a list; a body that is not a list of objects is malformed. -/
inductive ListRead (α : Type)
  | raised
  | malformed
  | rows (xs : List α)

def ListRead.isOk {α : Type} : ListRead α → Bool
  | rows _ => true
  | _ => false

/-- The rows that the comparison goes through. -/
def ListRead.list {α : Type} : ListRead α → List α
  | rows xs => xs
  | _ => []

/-- The side of a Position object, in lower case. -/
inductive PositionSide
  | missing
  | long
  | short
  | other (text : String)
  deriving DecidableEq, Repr

/-- A Position object of the broker; a missing symbol is empty. -/
structure PositionRow where
  symbol : Symbol
  qty : RawNumber
  side : PositionSide
  deriving DecidableEq, Repr

/-- What the reads of one pass return. An order is read at most once in each of the two refreshes; `none` is a read that
raises, or a body that is not an object. -/
structure Reads where
  unconfirmed : BrokerOrderId → Option OrderRow
  lookup : IntentId → LookupAnswer
  refresh : BrokerOrderId → Option OrderRow
  openOrders : ListRead OrderRow
  positions : ListRead PositionRow

/-! ## The stages that change the state -/

namespace LifecycleState

variable (s : LifecycleState)

def unconfirmedIds : List BrokerOrderId := (s.orders.rows.filter (·.status = .unconfirmedTimeout)).map (·.id)

def uncertainIds : List IntentId := (s.intents.rows.filter (·.status = .submitFailedUncertain)).map (·.id)

/-- An order that is neither terminal nor left unconfirmed. -/
def outstanding (o : Order) : Bool := !o.status.terminal && o.status ≠ .unconfirmedTimeout

def outstandingIds : List BrokerOrderId := (s.orders.rows.filter outstanding).map (·.id)

end LifecycleState

/-- One `get_order` after the other. -/
def refreshAll (read : BrokerOrderId → Option OrderRow) (s : LifecycleState) (ids : List BrokerOrderId) : LifecycleState :=
  ids.foldl (fun t id => refreshOrder t id (read id)) s

/-- `_resolve_unconfirmed_orders`. -/
def resolveUnconfirmedOrders (s : LifecycleState) (read : BrokerOrderId → Option OrderRow) : LifecycleState :=
  refreshAll read s s.unconfirmedIds

/-- One uncertain submission, unless its next lookup is not due yet. -/
def lookupIfDue (lookup : IntentId → LookupAnswer) (now : Instant) (s : LifecycleState) (i : IntentId) : LifecycleState :=
  if (s.intents.get i).any (·.dueForCheck now) then resolveUncertainSubmission s i now (lookup i) else s

/-- `_resolve_uncertain_submissions`. -/
def resolveUncertainSubmissions (s : LifecycleState) (now : Instant) (lookup : IntentId → LookupAnswer) : LifecycleState :=
  s.uncertainIds.foldl (lookupIfDue lookup now) s

/-- The orders whose refresh could not be completed. -/
def unresolvedIds (s : LifecycleState) (read : BrokerOrderId → Option OrderRow) : List BrokerOrderId :=
  s.outstandingIds.filter fun id => ((read id).bind extractOrderUpdateFields).isNone

/-- `_refresh_non_terminal_orders`. -/
def refreshNonTerminalOrders (s : LifecycleState) (read : BrokerOrderId → Option OrderRow) : LifecycleState :=
  refreshAll read s s.outstandingIds

/-! ## Rows of the open orders -/

inductive RowError
  | missingId
  | missingClientOrderId
  | missingSymbol
  | missingOrInvalidSide
  | unrecognisedStatus (text : String)
  | malformedQty
  | malformedFilledQty
  deriving DecidableEq, Repr

structure ParsedOrder where
  id : BrokerOrderId
  clientOrderId : ClientOrderId
  symbol : Symbol
  side : Side
  qty : ℚ
  filledQty : ℚ
  status : StatusText
  deriving DecidableEq

/-- A quantity that is a finite number and not negative. -/
def RawNumber.quantity (r : RawNumber) : Option ℚ := r.coerce.filter (0 ≤ ·)

/-- `_parse_broker_order_response`. -/
def parseBrokerOrderResponse (row : OrderRow) : Except RowError ParsedOrder :=
  if row.id = "" then .error .missingId
  else if row.clientOrderId = .missing then .error .missingClientOrderId
  else if row.symbol = "" then .error .missingSymbol
  else
    match row.side, row.status, row.qty.quantity, (row.filledQty.getD (.finite 0)).quantity with
    | none, _, _, _ => .error .missingOrInvalidSide
    | some _, .unrecognised text, _, _ => .error (.unrecognisedStatus text)
    | some _, _, none, _ => .error .malformedQty
    | some _, _, some _, none => .error .malformedFilledQty
    | some side, status, some qty, some filledQty =>
      .ok { id := row.id, clientOrderId := row.clientOrderId, symbol := row.symbol, side, qty, filledQty, status }

inductive Contradiction
  | conflictingIds
  | noDurablePayloadForIntent
  | clientOrderIdMismatch
  | internalOrderTerminal
  | intentTerminal
  | symbol
  | side
  | requestedQty
  | impossibleCumulativeFill
  | filledQtyRegressed
  deriving DecidableEq, Repr

inductive Verdict
  | ok
  | untracked
  | contradiction (c : Contradiction)
  | malformed (e : RowError)
  deriving DecidableEq, Repr

/-- The intent on file whose client order id the row carries. -/
def LifecycleState.intentOfClientId (s : LifecycleState) : ClientOrderId → Option IntentId
  | .ofIntent i => (s.intents.get i).map (·.id)
  | _ => none

/-- The checks of a row that has been resolved to the intent `q`, with the order on file for it. -/
def verifyAgainst (q : Intent) (recorded : Option Order) (p : ParsedOrder) : Verdict :=
  if p.clientOrderId ≠ .ofIntent q.id then .contradiction .clientOrderIdMismatch
  else if recorded.any (·.status.terminal) then .contradiction .internalOrderTerminal
  else if q.status = .rejected ∨ q.status = .confirmedNotSubmitted then .contradiction .intentTerminal
  else if p.symbol ≠ q.id.symbol then .contradiction .symbol
  else if p.side ≠ q.id.side then .contradiction .side
  else if reconcileQuantityTolerance < |p.qty - q.id.quantity| then .contradiction .requestedQty
  else if q.id.quantity + reconcileQuantityTolerance < p.filledQty then .contradiction .impossibleCumulativeFill
  else if recorded.any (fun o => p.filledQty < o.filledQty - reconcileQuantityTolerance) then
    .contradiction .filledQtyRegressed
  else .ok

/-- The order on file for a row: the one under its id, else one of the intent. -/
def LifecycleState.recordedFor (s : LifecycleState) (id : BrokerOrderId) (i : IntentId) : Option Order :=
  (s.orders.get id).or (s.orders.rows.find? (·.intentId = i))

/-- `_verify_broker_order_row`. -/
def verifyBrokerOrderRow (s : LifecycleState) (row : OrderRow) : Verdict :=
  match parseBrokerOrderResponse row with
  | .error e => .malformed e
  | .ok p =>
    match (s.orders.get p.id).map (·.intentId), s.intentOfClientId p.clientOrderId with
    | none, none => .untracked
    | none, some i => resolved p i
    | some i, none => resolved p i
    | some i, some j => if i ≠ j then .contradiction .conflictingIds else resolved p i
where
  resolved (p : ParsedOrder) (i : IntentId) : Verdict :=
    match s.intents.get i with
    | none => .contradiction .noDurablePayloadForIntent
    | some q => verifyAgainst q (s.recordedFor p.id i) p

/-! ## Positions -/

namespace LifecycleState

variable (s : LifecycleState)

def openSymbols : List Symbol := (s.positions.rows.filter (·.status = .opened)).map (·.symbol)

def openQuantity (symbol : Symbol) : ℚ :=
  sumWhere (fun p : Position => p.status = .opened && p.symbol = symbol) (·.remainingQuantity) s.positions.rows

end LifecycleState

/-- The symbol and the quantity of a row that can be read. -/
def PositionRow.entry (row : PositionRow) : Option (Symbol × ℚ) :=
  if row.symbol = "" then none else row.qty.coerce.map (row.symbol, ·)

def brokerEntries (rows : List PositionRow) : List (Symbol × ℚ) := rows.filterMap (·.entry)

def brokerQuantity (rows : List PositionRow) (symbol : Symbol) : ℚ :=
  sumWhere (fun e : Symbol × ℚ => e.1 = symbol) (·.2) (brokerEntries rows)

/-- A side is given, and it is not `long`. -/
def PositionRow.sideMismatch (row : PositionRow) : Bool := row.side ≠ .missing && row.side ≠ .long

def PositionRow.unexpectedShort (row : PositionRow) : Bool := row.side = .short || row.qty.isNegative

/-! ## The verdict -/

inductive ReadFailure
  | orderRefresh (id : BrokerOrderId)
  | openOrdersReadFailed
  | positionsReadFailed
  | openOrdersResponseMalformed
  | positionsResponseMalformed
  | positionRowMissingSymbol
  | positionQtyUnparseable (symbol : Symbol)
  | openOrderRowMalformed (e : RowError)
  deriving DecidableEq, Repr

/-- A read that raised leaves no list either. -/
def ListRead.failures {α : Type} (read : ListRead α) (failed malformed : ReadFailure) : List ReadFailure :=
  match read with
  | raised => [failed, malformed]
  | .malformed => [malformed]
  | rows _ => []

def PositionRow.failure (row : PositionRow) : Option ReadFailure :=
  if row.symbol = "" then some .positionRowMissingSymbol
  else if row.qty.coerce.isNone then some (.positionQtyUnparseable row.symbol)
  else none

/-- What `reconcile` has found. -/
structure Reconciliation where
  readFailures : List ReadFailure
  unresolvedSubmissions : List IntentId
  unconfirmedTimeoutOrders : List BrokerOrderId
  orphanIntents : List IntentId
  symbolSetsMatch : Bool
  quantityMismatches : List Symbol
  sideMismatches : List Symbol
  untrackedBrokerOrders : List BrokerOrderId
  contradictoryBrokerOrders : List BrokerOrderId
  ordersMissingFromBrokerList : List BrokerOrderId
  unexpectedShortSymbols : List Symbol

namespace Reconciliation

variable (r : Reconciliation)

def complete : Bool :=
  r.readFailures.isEmpty && r.unresolvedSubmissions.isEmpty && r.unconfirmedTimeoutOrders.isEmpty &&
    r.orphanIntents.isEmpty

def consistent : Bool :=
  r.symbolSetsMatch && r.quantityMismatches.isEmpty && r.sideMismatches.isEmpty && r.untrackedBrokerOrders.isEmpty &&
    r.contradictoryBrokerOrders.isEmpty && r.ordersMissingFromBrokerList.isEmpty && r.unexpectedShortSymbols.isEmpty

def matched : Bool := r.complete && r.consistent

def status : ReconcileStatus :=
  if r.matched then .matched else if r.complete then .mismatched else .incompleteReconciliation

def flags : ReconciliationFlags :=
  { unexpectedShortDetected := !r.unexpectedShortSymbols.isEmpty
    unexpectedShortSymbols := r.unexpectedShortSymbols
    entryAdmissionBlocked := !r.matched || !r.unexpectedShortSymbols.isEmpty
    matched := r.matched
    status := some r.status }

end Reconciliation

/-- The intents that stand for a submission nobody has followed up, or that were promoted from one. -/
def LifecycleState.orphaned (s : LifecycleState) (i : Intent) : Bool :=
  (i.status = .orderIntent && !(s.orders.rows.any fun o => o.intentId = i.id)) ||
    (i.promotedFromOrphan && (i.status = .submitFailedUncertain || i.status = .orderIntent))

/-- The comparison, after the stages that change the state; `unresolved` are the orders whose refresh failed. -/
def compareWithBroker (s : LifecycleState) (unresolved : List BrokerOrderId) (openOrders : ListRead OrderRow)
    (positions : ListRead PositionRow) : Reconciliation :=
  let verdicts := openOrders.list.map fun row => (row.id, verifyBrokerOrderRow s row)
  let brokerSymbols := (brokerEntries positions.list).map (·.1)
  { readFailures :=
      unresolved.map .orderRefresh ++
        openOrders.failures .openOrdersReadFailed .openOrdersResponseMalformed ++
        positions.failures .positionsReadFailed .positionsResponseMalformed ++
        positions.list.filterMap (·.failure) ++
        verdicts.filterMap fun v => match v.2 with
          | .malformed e => some (.openOrderRowMalformed e)
          | _ => none
    unresolvedSubmissions := s.uncertainIds
    unconfirmedTimeoutOrders := s.unconfirmedIds
    orphanIntents := (s.intents.rows.filter s.orphaned).map (·.id)
    symbolSetsMatch := s.openSymbols.all (brokerSymbols.contains ·) && brokerSymbols.all (s.openSymbols.contains ·)
    quantityMismatches := (s.openSymbols ++ brokerSymbols).filter fun symbol =>
      reconcileQuantityTolerance < |s.openQuantity symbol - brokerQuantity positions.list symbol|
    sideMismatches := (positions.list.filter fun row => row.entry.isSome && row.sideMismatch).map (·.symbol)
    untrackedBrokerOrders := (verdicts.filter (·.2 = .untracked)).map (·.1)
    contradictoryBrokerOrders := (verdicts.filter fun v => match v.2 with
      | .contradiction _ => true
      | _ => false).map (·.1)
    ordersMissingFromBrokerList :=
      if openOrders.isOk then
        s.outstandingIds.filter fun id => !(openOrders.list.any (·.id = id)) && !(unresolved.contains id)
      else []
    unexpectedShortSymbols := ((positions.list.filter (·.unexpectedShort)).map (·.symbol)).insertionSort (· ≤ ·) }

/-- The state that the stages leave, up to the two list reads. -/
def beforeRefresh (s : LifecycleState) (now : Instant) (reads : Reads) : LifecycleState :=
  resolveUncertainSubmissions (promoteOrphanOrderIntents (resolveUnconfirmedOrders s reads.unconfirmed)) now reads.lookup

/-- `reconcile`. -/
def reconcile (s : LifecycleState) (now : Instant) (reads : Reads) : LifecycleState × Reconciliation :=
  let s₁ := beforeRefresh s now reads
  let s₂ := refreshNonTerminalOrders s₁ reads.refresh
  let result := compareWithBroker s₂ (unresolvedIds s₁ reads.refresh) reads.openOrders reads.positions
  ({ s₂ with reconciliationFlags := result.flags }, result)

/-- `record_reconciliation_failure`. -/
def recordReconciliationFailure (s : LifecycleState) : LifecycleState :=
  { s with
    reconciliationFlags :=
      { s.reconciliationFlags with
        entryAdmissionBlocked := true, matched := false, status := some .reconciliationError } }

end TalonX.Piv
