import TalonX.Piv.Schemas

/-!
# The order lifecycle

Each operation ends with `_save`, so its result is what a restart reads.

- `order_intent` in its two halves: `admitIntent` ends with the intent on file and nothing sent, `recordSubmission` follows the
  answer to `submit_order`; a crash in between leaves an `ORDER_INTENT` without an order;
- `applyBrokerUpdate`, with the accounting of a SELL fill and of a BUY fill;
- `pollOrderUntilTerminal`;
- the resolution of submissions whose outcome is unknown.
-/

set_option autoImplicit false

namespace TalonX.Piv

open Transact V2

/-! ## Admission -/

/-- The arguments of `order_intent`; the symbol is upper-cased already. A side other than the two, and a quantity that is
not a finite number, are `none`. -/
structure OrderRequest where
  signalId : String
  symbol : Symbol
  side : Option Side
  quantity : Option ℚ
  source : Option OrderSource := none
  referencePrice : Option ℚ := none
  stopPrice : Option ℚ := none
  targetPrice : Option ℚ := none
  experimentalId : Option String := none
  deriving DecidableEq

inductive Rejection
  | unsupportedActionIntent
  | invalidQuantity
  | unauthorizedSource
  | duplicateOrderIntent
  | newPaperOrdersDisabled
  | unexpectedShortBlocksNewEntries
  | alreadyHoldingNoPyramiding
  | pendingEntryExists
  | reconciliationBlocksNewEntries
  | paperEntryDisabledForTicker
  | experimentalGuard (reason : String)
  | sellWhileFlat
  | oversizedOrDuplicateSell
  deriving DecidableEq, Repr

/-- The reason that the `PaperGuardError` carries. -/
def Rejection.text : Rejection → String
  | unsupportedActionIntent => "UNSUPPORTED_ACTION_INTENT"
  | invalidQuantity => "INVALID_QUANTITY"
  | unauthorizedSource => "UNAUTHORIZED_SOURCE"
  | duplicateOrderIntent => "duplicate order intent"
  | newPaperOrdersDisabled => "new paper orders are disabled"
  | unexpectedShortBlocksNewEntries => "UNEXPECTED_SHORT_BLOCKS_NEW_ENTRIES"
  | alreadyHoldingNoPyramiding => "ALREADY_HOLDING_NO_PYRAMIDING"
  | pendingEntryExists => "PENDING_ENTRY_EXISTS"
  | reconciliationBlocksNewEntries => "RECONCILIATION_BLOCKS_NEW_ENTRIES"
  | paperEntryDisabledForTicker => "PAPER_ENTRY_DISABLED_FOR_TICKER"
  | experimentalGuard reason => reason
  | sellWhileFlat => "SELL_WHILE_FLAT"
  | oversizedOrDuplicateSell => "OVERSIZED_OR_DUPLICATE_SELL"

/-- `paper_entry_settings`, and `_enforce_experimental_paper_guards`: it refuses with a reason, or it returns the budgets
with its reservation. -/
structure Config where
  enabledFor : Symbol → Bool
  experimentalGuards : LifecycleState → OrderRequest → Except String Budgets

/-- The absolute slack of the quantity guards. -/
def shareTolerance : ℚ := 1 / 10 ^ 9

def OrderSource.allowed : OrderSource → Bool
  | unlisted _ => false
  | _ => true

/-- The checks before anything stateful. -/
def wellFormed (r : OrderRequest) : Except Rejection IntentId :=
  match r.side, r.quantity with
  | none, _ => .error .unsupportedActionIntent
  | some _, none => .error .invalidQuantity
  | some side, some quantity =>
    if h : 0 < quantity then
      if r.source.all OrderSource.allowed then .ok ⟨r.signalId, r.symbol, side, quantity, h⟩
      else .error .unauthorizedSource
    else .error .invalidQuantity

/-- The guards of a BUY_TO_OPEN, in their order. -/
def buyGuards (cfg : Config) (s : LifecycleState) (r : OrderRequest) : Except Rejection Budgets :=
  if s.reconciliationFlags.unexpectedShortDetected then .error .unexpectedShortBlocksNewEntries
  else if (s.openPositionFor r.symbol).isSome then .error .alreadyHoldingNoPyramiding
  else if s.entryStillPendingOrUncertain r.symbol then .error .pendingEntryExists
  else if s.reconciliationFlags.entryAdmissionBlocked then .error .reconciliationBlocksNewEntries
  else if !cfg.enabledFor r.symbol then .error .paperEntryDisabledForTicker
  else if r.source = some .experimental then
    match cfg.experimentalGuards s r with
    | .error reason => .error (.experimentalGuard reason)
    | .ok budgets => .ok budgets
  else .ok s.experimentalBudgets

/-- The guards of a SELL_TO_CLOSE. -/
def sellGuards (s : LifecycleState) (symbol : Symbol) (quantity : ℚ) : Except Rejection Budgets :=
  match s.openPositionFor symbol with
  | none => .error .sellWhileFlat
  | some position =>
    if position.remainingQuantity - s.pendingQuantity symbol .sell + shareTolerance < quantity then
      .error .oversizedOrDuplicateSell
    else .ok s.experimentalBudgets

def guards (cfg : Config) (s : LifecycleState) (r : OrderRequest) (i : IntentId) : Except Rejection Budgets :=
  match i.side with
  | .buy => buyGuards cfg s r
  | .sell => sellGuards s i.symbol i.quantity

def OrderRequest.intent (r : OrderRequest) (i : IntentId) : Intent :=
  { id := i, status := .orderIntent, source := r.source, referencePrice := r.referencePrice, stopPrice := r.stopPrice
    targetPrice := r.targetPrice, experimentalId := r.experimentalId }

/-- `order_intent` up to its first `_save`: the intent is on file, nothing was sent. -/
def admitIntent (cfg : Config) (s : LifecycleState) (r : OrderRequest) : Except Rejection (IntentId × LifecycleState) :=
  match wellFormed r with
  | .error e => .error e
  | .ok i =>
    if (s.intents.get i).isSome then .error .duplicateOrderIntent
    else if !s.sessionEnabled || s.killSwitch then .error .newPaperOrdersDisabled
    else
      match guards cfg s r i with
      | .error e => .error e
      | .ok budgets =>
        .ok (i, { s with intents := s.intents.insertOrIgnore (r.intent i), experimentalBudgets := budgets })

/-! ## Submission -/

/-- `submit_order` raises, or returns a body with an id that may be missing or empty. -/
inductive SubmitAnswer
  | raised
  | answered (id : BrokerOrderId)
  deriving DecidableEq, Repr

namespace LifecycleState

def setIntentStatus (s : LifecycleState) (i : IntentId) (status : IntentStatus) : LifecycleState :=
  { s with intents := s.intents.update (·.id = i) (fun q => { q with status }) fun _ => rfl }

/-- `orders[broker_id] = {…}`. -/
def putOrder (s : LifecycleState) (o : Order) : LifecycleState :=
  { s with orders := s.orders.upsert o (fun q => { o with id := q.id }) fun _ => rfl }

/-- A record for an order that the broker has acknowledged. -/
def recordOrder (s : LifecycleState) (i : IntentId) (id : BrokerOrderId) : LifecycleState :=
  (s.setIntentStatus i .submitted).putOrder
    { id, intentId := i, symbol := i.symbol, status := .submitted, filledQty := 0 }

end LifecycleState

/-- `order_intent` after `submit_order`. -/
def recordSubmission (s : LifecycleState) (i : IntentId) : SubmitAnswer → LifecycleState
  | .raised => s.setIntentStatus i .submitFailedUncertain
  | .answered id => if id = "" then s.setIntentStatus i .rejected else s.recordOrder i id

/-! ## Broker updates -/

structure BrokerReport where
  status : StatusText
  filledQty : RawNumber
  fillPrice : Option RawNumber
  filledAt : Option RawTime
  deriving DecidableEq

/-- A report that passed the validation. -/
structure Update where
  status : BrokerStatus
  filledQty : ℚ
  fillPrice : Option ℚ
  filledAt : Option RawTime
  deriving DecidableEq

def reconcileQuantityTolerance : ℚ := 1 / 10 ^ 6

/-- The price of a report: absent, or a positive number. -/
def validPrice : Option RawNumber → Option (Option ℚ)
  | none => some none
  | some (.finite p) => if 0 < p then some (some p) else none
  | some _ => none

/-- `_validate_broker_update`: `none` is a refusal. -/
def validateBrokerUpdate (order : Order) (r : BrokerReport) : Option Update :=
  match r.status, r.filledQty.coerce, validPrice r.fillPrice with
  | .known status, some filledQty, some fillPrice =>
    if filledQty < 0 then none
    else if order.intentId.quantity + reconcileQuantityTolerance < filledQty then none
    else some { status, filledQty, fillPrice, filledAt := r.filledAt }
  | _, _, _ => none

/-- `(fill_price - price) * quantity`, when both prices are known. -/
def realisedPnl (fillPrice price : Option ℚ) (quantity : ℚ) : Option ℚ :=
  match fillPrice, price with
  | some fp, some ep => some ((fp - ep) * quantity)
  | _, _ => none

/-- The position after a SELL fill of `incremental` new shares. -/
def Position.exit (p : Position) (filledQty incremental : ℚ) (fillPrice : Option ℚ) : Position :=
  let entryQuantity := if p.quantity = 0 then filledQty else p.quantity
  let exitQuantity := p.exitQuantity + incremental
  let remaining := max 0 (entryQuantity - exitQuantity)
  { p with
    exitPrice := fillPrice
    exitQuantity
    remainingQuantity := remaining
    grossPnl := ((realisedPnl fillPrice p.price incremental).map (p.grossPnl.getD 0 + ·)).or p.grossPnl
    status := if remaining ≤ shareTolerance then .closed else p.status }

/-- A SELL fill reduces the position that is tracked for the symbol; with none tracked it changes nothing. -/
def applySellFill (s : LifecycleState) (symbol : Symbol) (filledQty incremental : ℚ) (fillPrice : Option ℚ) :
    LifecycleState :=
  match (s.openPositionBySymbol symbol).bind s.positions.get with
  | none => s
  | some position =>
    let position' := position.exit filledQty incremental fillPrice
    { s with
      positions := s.positions.update (·.id = position.id) (fun q => { position' with id := q.id }) fun _ => rfl
      openPositionBySymbol :=
        if position'.remainingQuantity ≤ shareTolerance then Function.update s.openPositionBySymbol symbol none
        else s.openPositionBySymbol }

/-- The position that the first BUY fill opens. -/
def Intent.openPosition (i : Intent) (symbol : Symbol) (u : Update) (filledQty : ℚ) : Position :=
  { id := ⟨i.id⟩, symbol, quantity := filledQty, price := u.fillPrice, status := .opened, stopPrice := i.stopPrice
    targetPrice := i.targetPrice, experimentalId := i.experimentalId, exitQuantity := 0, remainingQuantity := filledQty
    firstFillObservedAt := u.filledAt }

/-- A later BUY fill: only the new shares are merged, and a closed position that gets some opens again. -/
def Position.merge (p : Position) (u : Update) (filledQty incremental : ℚ) : Position :=
  { p with
    quantity := max p.quantity filledQty
    remainingQuantity := p.remainingQuantity + incremental
    status := if shareTolerance < incremental then .opened else p.status
    price := if shareTolerance < incremental then u.fillPrice.or p.price else p.price
    firstFillObservedAt := p.firstFillObservedAt.or u.filledAt }

/-- `positions[position_id] = position`, tracked for the symbol while it is open. -/
def LifecycleState.putPosition (s : LifecycleState) (symbol : Symbol) (p : Position) : LifecycleState :=
  { s with
    positions := s.positions.upsert p (fun q => { p with id := q.id }) fun _ => rfl
    openPositionBySymbol :=
      if p.status = .opened then Function.update s.openPositionBySymbol symbol (some p.id)
      else s.openPositionBySymbol }

def applyBuyFill (s : LifecycleState) (i : Intent) (symbol : Symbol) (u : Update) (filledQty incremental : ℚ) :
    LifecycleState :=
  match s.positions.get ⟨i.id⟩ with
  | none => s.putPosition symbol (i.openPosition symbol u filledQty)
  | some position =>
    if i.id.quantity + shareTolerance < filledQty then s
    else if position.status = .closed ∧ incremental ≤ shareTolerance then s
    else s.putPosition symbol (position.merge u filledQty incremental)

/-- The order takes over the status, and the quantity unless it is older. -/
def Order.report (o : Order) (u : Update) : Order :=
  { o with status := .broker u.status, filledQty := max o.filledQty u.filledQty, fillPrice := u.fillPrice }

def LifecycleState.updateOrder (s : LifecycleState) (id : BrokerOrderId) (u : Update) : LifecycleState :=
  { s with orders := s.orders.update (·.id = id) (·.report u) fun _ => rfl }

/-- The accounting of a fill of the order `o`, whose report is on file in `s`. -/
def applyFill (s : LifecycleState) (o : Order) (u : Update) : LifecycleState :=
  let filledQty := max o.filledQty u.filledQty
  let incremental := max 0 (filledQty - o.filledQty)
  match s.intents.get o.intentId with
  | none => s
  | some i =>
    match i.id.side with
    | .sell => applySellFill s o.symbol filledQty incremental u.fillPrice
    | .buy => applyBuyFill s i o.symbol u filledQty incremental

/-- An update that passed the validation: a terminal order is final, and only the two fill statuses reach the positions. -/
def acceptUpdate (s : LifecycleState) (o : Order) (u : Update) : LifecycleState :=
  if o.status.terminal then s
  else if u.status.isFill ∧ 0 < max o.filledQty u.filledQty then applyFill (s.updateOrder o.id u) o u
  else s.updateOrder o.id u

/-- `apply_broker_update`; an id that is not on file is a `KeyError`. -/
def applyBrokerUpdate (s : LifecycleState) (id : BrokerOrderId) (r : BrokerReport) : LifecycleState :=
  match s.orders.get id with
  | none => s
  | some order =>
    match validateBrokerUpdate order r with
    | none => s
    | some u => acceptUpdate s order u

/-! ## Reading orders from the broker -/

/-- The price of a row: absent, or a positive number. -/
def rowPrice : Option RawNumber → Option (Option ℚ)
  | none | some (.other "") | some (.other "None") => some none
  | r => validPrice r

/-- `_extract_order_update_fields`: `none` is an error. -/
def extractOrderUpdateFields (row : OrderRow) : Option Update :=
  match row.status, (row.filledQty.getD (.finite 0)).coerce, rowPrice row.filledAvgPrice with
  | .known status, some filledQty, some fillPrice =>
    if filledQty < 0 then none else some { status, filledQty, fillPrice, filledAt := row.filledAt }
  | _, _, _ => none

def Update.report (u : Update) : BrokerReport :=
  ⟨.known u.status, .finite u.filledQty, u.fillPrice.map .finite, u.filledAt⟩

/-- What both refreshes of `reconcile` do with one response to `get_order`; `none` is a read that raised. -/
def refreshOrder (s : LifecycleState) (id : BrokerOrderId) (row : Option OrderRow) : LifecycleState :=
  match row.bind extractOrderUpdateFields with
  | none => s
  | some u => applyBrokerUpdate s id u.report

/-- `float(last.get("filled_qty") or 0.0)`; `none` raises. -/
def pollQty : Option RawNumber → Option RawNumber
  | none | some (.other "") => some (.finite 0)
  | some r => r.float

/-- `float(last["filled_avg_price"]) if last.get("filled_avg_price") else None`; the outer `none` raises. -/
def pollPrice : Option RawNumber → Option (Option RawNumber)
  | none | some (.other "") => some none
  | some r => r.float.map some

/-- The report that a poll makes of a row. -/
def OrderRow.pollReport (row : OrderRow) : Option BrokerReport :=
  match pollQty row.filledQty, pollPrice row.filledAvgPrice with
  | some qty, some price => some ⟨row.status, qty, price, row.filledAt⟩
  | _, _ => none

def StatusText.terminal : StatusText → Bool
  | known s => s.terminal
  | _ => false

/-- One round of a poll: the report counts only when its status is not the one seen last. -/
def pollRead (s : LifecycleState) (id : BrokerOrderId) (seen : StatusText) (r : BrokerReport) : LifecycleState :=
  if r.status ≠ .missing ∧ r.status ≠ seen then applyBrokerUpdate s id r else s

/-- The status seen last, after a report. -/
def seenAfter (seen : StatusText) (r : BrokerReport) : StatusText :=
  if r.status = .missing then seen else r.status

def LifecycleState.markUnconfirmed (s : LifecycleState) (id : BrokerOrderId) : LifecycleState :=
  { s with orders := s.orders.update (·.id = id) (fun o => { o with status := .unconfirmedTimeout }) fun _ => rfl }

/-- How the rounds of a poll end, when no row was terminal: the time is up, or a read raises, or the process dies. -/
inductive PollEnd
  | timedOut
  | interrupted
  deriving DecidableEq, Repr

/-- `poll_order_until_terminal`, given the rows that it reads and the status seen last. -/
def pollRounds (s : LifecycleState) (id : BrokerOrderId) (seen : StatusText) (atEnd : PollEnd) :
    List OrderRow → LifecycleState
  | [] => if atEnd = .timedOut then s.markUnconfirmed id else s
  | row :: rows =>
    match row.pollReport with
    | none => s
    | some r =>
      if r.status.terminal then pollRead s id seen r
      else pollRounds (pollRead s id seen r) id (seenAfter seen r) atEnd rows

def pollOrderUntilTerminal (s : LifecycleState) (id : BrokerOrderId) (rows : List OrderRow) (atEnd : PollEnd) :
    LifecycleState := pollRounds s id .missing atEnd rows

/-! ## Submissions whose outcome is unknown -/

/-- `_promote_orphan_order_intents`. -/
def promoteOrphanOrderIntents (s : LifecycleState) : LifecycleState :=
  { s with
    intents := s.intents.update
      (fun i => i.status = .orderIntent && !(s.orders.rows.any fun o => o.intentId = i.id))
      (fun i => { i with status := .submitFailedUncertain, promotedFromOrphan := true }) fun _ => rfl }

/-- `UNCERTAIN_SUBMISSION_BACKOFF_SCHEDULE_SECONDS`. -/
def uncertainSubmissionBackoff (attempts : ℕ) : ℤ :=
  match min attempts 5 with
  | 0 => 0
  | 1 => 30
  | 2 => 60
  | 3 => 300
  | 4 => 900
  | _ => 3600

/-- `_uncertain_submission_due_for_check`. -/
def Intent.dueForCheck (i : Intent) (now : Instant) : Bool :=
  i.lastUncertainCheckAt.all fun last => uncertainSubmissionBackoff i.notFoundConfirmations ≤ now - last

/-- `_order_response_matches_intent`. -/
def orderResponseMatchesIntent (found : OrderRow) (i : IntentId) : Bool :=
  found.clientOrderId = .ofIntent i && found.symbol = i.symbol && found.side = some i.side &&
    found.qty.coerce.any fun q => |q - i.quantity| ≤ reconcileQuantityTolerance

/-- The answers to `find_order_by_client_id`. -/
inductive LookupAnswer
  | raised
  | notFound
  | found (row : OrderRow)
  deriving DecidableEq

def LifecycleState.updateIntent (s : LifecycleState) (i : IntentId) (f : Intent → Intent)
    (hf : ∀ q, (f q).id = q.id) : LifecycleState :=
  { s with intents := s.intents.update (·.id = i) f hf }

/-- What `_resolve_uncertain_submissions` does with one answer, up to the adoption of the order. -/
def lookupSubmission (s : LifecycleState) (i : IntentId) (now : Instant) : LookupAnswer → LifecycleState
  | .raised => s.updateIntent i (fun q => { q with lastUncertainCheckAt := some now }) fun _ => rfl
  | .notFound =>
    s.updateIntent i (fun q =>
      { q with lastUncertainCheckAt := some now, notFoundConfirmations := q.notFoundConfirmations + 1 }) fun _ => rfl
  | .found row =>
    if orderResponseMatchesIntent row i ∧ row.id ≠ "" then
      (s.updateIntent i (fun q => { q with notFoundConfirmations := 0, lastUncertainCheckAt := none })
        fun _ => rfl).recordOrder i row.id
    else s.updateIntent i (fun q => { q with lastUncertainCheckAt := some now }) fun _ => rfl

/-- One uncertain submission that is due: the lookup, then the status of an adopted order. -/
def resolveUncertainSubmission (s : LifecycleState) (i : IntentId) (now : Instant) (answer : LookupAnswer) :
    LifecycleState :=
  match answer with
  | .found row =>
    if orderResponseMatchesIntent row i ∧ row.id ≠ "" then
      refreshOrder (lookupSubmission s i now answer) row.id (some row)
    else lookupSubmission s i now answer
  | _ => lookupSubmission s i now answer

/-- `operator_resolve_uncertain_submission`, confirmed. -/
def operatorResolveUncertainSubmission (s : LifecycleState) (i : IntentId) : LifecycleState :=
  match s.intents.get i with
  | some q => if q.status = .submitFailedUncertain then s.setIntentStatus i .confirmedNotSubmitted else s
  | none => s

/-! ## Exits -/

/-- `mark_exit_triggered`: the first reason stays. -/
def markExitTriggered (s : LifecycleState) (symbol : Symbol) (reason : ExitReason) : LifecycleState :=
  match s.openPositionFor symbol with
  | none => s
  | some position =>
    if position.triggeredExitReason.isSome then s
    else
      { s with
        positions := s.positions.update (·.id = position.id)
          (fun q => { q with triggeredExitReason := some reason }) fun _ => rfl }

end TalonX.Piv
