import TalonX.Clock.IsoFormat
import TalonX.Notify.Outbox

/-!
# Deliveries from the V2 alert outbox

`deliver_outbox` with any router and any transport over `v2_alert_outbox`, whose times are texts that SQLite and Python
compare as texts.

- `AlertRow`, `AlertBox`: the rows, and the history of what the transport was handed;
- `Drain.visit`: what the worker does with a row that is due; `Drain.record`: the branches after the transport;
- `AlertBox.deliverOutbox`: the loop over the rows that were due at its start, while others enqueue;
- `AlertBox.run`: any sequence of enqueues and runs of the worker.
-/

set_option autoImplicit false

namespace TalonX.Notify

open Transact Clock

/-! ## The rows -/

/-- What `enqueue_alert` is given, with the time at which it inserts. -/
structure Alert where
  eventId : EventId
  episodeId : String
  kind : String
  action : String
  symbol : String
  strategyVersion : String
  horizonTradingDays : Option ℤ
  dedupKey : String
  payloadText : String
  provenance : String
  deliverBy : Option String
  createdAt : String
  deriving DecidableEq, Repr

structure AlertRow where
  alert : Alert
  state : DeliveryState
  attempts : ℕ
  nextAttempt : Option String
  lastError : Option String
  transportRef : Option String
  deriving DecidableEq, Repr

def AlertRow.eventId (r : AlertRow) : EventId := r.alert.eventId

/-- The row that `enqueue_alert` inserts. -/
def Alert.pending (a : Alert) : AlertRow :=
  ⟨{ a with symbol := a.symbol.toUpper }, .pending, 0, none, none, none⟩

/-- The arguments of `update_outbox`. -/
structure RowUpdate where
  state : DeliveryState
  attempts : Option ℕ := none
  nextAttempt : Option String := none
  lastError : Option String := none
  transportRef : Option String := none

/-- `COALESCE` for the attempts and the reference; the next attempt and the error are overwritten. -/
def AlertRow.update (r : AlertRow) (u : RowUpdate) : AlertRow :=
  { r with
    state := u.state
    attempts := u.attempts.getD r.attempts
    nextAttempt := u.nextAttempt
    lastError := u.lastError
    transportRef := u.transportRef.or r.transportRef }

/-- `state IN ('PENDING','RETRY') AND (next_attempt_utc IS NULL OR next_attempt_utc <= ?)`. -/
def AlertRow.due (nowIso : String) (r : AlertRow) : Bool :=
  (r.state = .pending || r.state = .retry) && r.nextAttempt.all (· ≤ nowIso)

/-! ## One run of the worker -/

/-- The dictionary that a transport returns. -/
structure SendResult where
  ok : Bool := false
  ambiguous : Bool := false
  held : Bool := false
  permanent : Bool := false
  ref : Option String := none
  detail : Option String := none
  deriving DecidableEq, Repr

/-- A transport that raises is caught; the text is the `repr` of the exception. -/
def caught : Except String SendResult → SendResult
  | .ok res => res
  | .error exc => { detail := some ("transport raised: " ++ exc) }

def backoffSeconds (attempts : ℕ) : ℕ := (backoff attempts).toNat

theorem backoffSeconds_eq (attempts : ℕ) : backoffSeconds attempts = min 300 (5 * 2 ^ (attempts - 1)) := by
  unfold backoffSeconds backoff backoffCap backoffBase
  have hcast : ((5 * 2 ^ (attempts - 1) : ℕ) : ℤ) = 5 * 2 ^ (attempts - 1) := by push_cast; rfl
  omega

theorem backoffSeconds_le (attempts : ℕ) : backoffSeconds attempts ≤ 300 := by
  rw [backoffSeconds_eq]
  exact min_le_left _ _

/-- A run of `deliver_outbox`. A row is considered once in a run, so the answers of the router and of the transport are
given by the row. `arrivals` are the alerts that others enqueue before the loop comes to it. The clock leaves room for
the longest wait: beyond the year 9999 there is no time to add it to. -/
structure Drain where
  now : Utc
  room : now.micros + 300 * 1000000 < horizon
  router : AlertRow → Origin → RoutingDecision
  transport : AlertRow → Except String SendResult
  broadDiscoverySymbols : List String
  arrivals : AlertRow → List Alert

namespace Drain

variable (d : Drain)

def nowIso : String := d.now.isoformat

def origin (r : AlertRow) : Origin :=
  if r.alert.symbol ∈ d.broadDiscoverySymbols then .broadDiscovery else .productWatchlist

/-- `now + timedelta(seconds=_backoff_s(attempts))`. -/
def nextAttempt (attempts : ℕ) : Utc :=
  d.now.plusSeconds (backoffSeconds attempts)
    (lt_of_le_of_lt (Nat.add_le_add_left (Nat.mul_le_mul_right _ (backoffSeconds_le attempts)) _) d.room)

/-- What is recorded about an attempt. -/
def record (maxAttempts : ℤ) (attempts : ℕ) (res : SendResult) : RowUpdate :=
  if res.ok then { state := .sent, attempts := some attempts, transportRef := some (res.ref.getD "") }
  else if res.ambiguous then
    { state := .ambiguous, attempts := some attempts
      lastError := some (res.detail.getD "ambiguous transport outcome") }
  else if res.held then
    { state := .held, attempts := some attempts, lastError := some (res.detail.getD "held") }
  else
    let detail := res.detail.getD "transport returned not-ok"
    if res.permanent || maxAttempts ≤ attempts then
      let why := if res.permanent then "permanent transport failure" else "max attempts (" ++ toString maxAttempts ++ ")"
      { state := .failed, attempts := some attempts, lastError := some (why ++ ": " ++ detail) }
    else
      { state := .retry, attempts := some attempts, lastError := some detail
        nextAttempt := some (d.nextAttempt attempts).isoformat }

/-- A row that is due: it is past its deadline, not routed, delivered already, or handed to the transport. -/
def visit (maxAttempts : ℤ) (r : AlertRow) : RowUpdate × Option SendResult :=
  match r.alert.deliverBy.filter fun deadline => deadline ≠ "" && deadline ≤ d.nowIso with
  | some deadline =>
    ({ state := .expired
       lastError := some ("actionable-instruction deadline " ++ deadline ++
         " passed -- not delivered as fresh; the planned open is no longer actionable") }, none)
  | none =>
    let route := d.router r (d.origin r)
    if !route.eligible then ({ state := .held, lastError := some ("router: " ++ route.reason) }, none)
    else if route.alreadyDelivered then ({ state := .sent, transportRef := some "dedup:already_delivered" }, none)
    else
      let res := caught (d.transport r)
      (d.record maxAttempts (r.attempts + 1) res, some res)

end Drain

/-- The transport was handed an event. -/
structure HandOver where
  eventId : EventId
  time : Utc
  result : SendResult

/-- `handed` is history. -/
structure AlertBox where
  outbox : Table AlertRow.eventId
  handed : List HandOver

namespace AlertBox

def empty : AlertBox := ⟨Table.empty, []⟩

/-- `enqueue_alert`: a known event is left alone. -/
def enqueueAlert (box : AlertBox) (a : Alert) : AlertBox :=
  { box with outbox := box.outbox.insertOrIgnore a.pending }

def updateOutbox (box : AlertBox) (eventId : EventId) (u : RowUpdate) : AlertBox :=
  { box with outbox := box.outbox.update (·.eventId = eventId) (·.update u) fun _ => rfl }

def outboxDue (box : AlertBox) (nowIso : String) : List AlertRow :=
  (box.outbox.rows.filter (·.due nowIso)).insertionSort fun r q => r.alert.createdAt ≤ q.alert.createdAt

/-- One turn of the loop. -/
def deliver (d : Drain) (maxAttempts : ℤ) (box : AlertBox) (r : AlertRow) : AlertBox :=
  let box := (d.arrivals r).foldl enqueueAlert box
  let visit := d.visit maxAttempts r
  { box.updateOutbox r.eventId visit.1 with
    handed := box.handed ++ (visit.2.map fun res => ⟨r.eventId, d.now, res⟩).toList }

def deliverOutbox (d : Drain) (maxAttempts : ℤ) (box : AlertBox) : AlertBox :=
  (box.outboxDue d.nowIso).foldl (deliver d maxAttempts) box

end AlertBox

/-- What happens to the outbox. -/
inductive OutboxStep
  | enqueue (a : Alert)
  | drain (d : Drain)

namespace AlertBox

def step (maxAttempts : ℤ) (box : AlertBox) : OutboxStep → AlertBox
  | .enqueue a => box.enqueueAlert a
  | .drain d => box.deliverOutbox d maxAttempts

def run (maxAttempts : ℤ) (box : AlertBox) (steps : List OutboxStep) : AlertBox := steps.foldl (step maxAttempts) box

/-- How often an event was handed to the transport. -/
def handOvers (box : AlertBox) (e : EventId) : ℕ := box.handed.countP (·.eventId = e)

end AlertBox

end TalonX.Notify
