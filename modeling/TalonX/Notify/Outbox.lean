import TalonX.Notify.Telegram
import TalonX.Transact.Table
import TalonX.V2.Calendar
import Mathlib.Data.List.Sort

/-!
# The two notification outboxes

`v2_alert_outbox` and `ops_notification_outbox` have rows of the same shape, apart from what a row is about: a symbol, or
a destination.

- `OutboxRow`, `Mailbox`: the rows, and the answers that the Bot gave for each event;
- `Mailbox.drainWith`: the loop that both workers share; `Plan` is what they decide for a row;
- `deliverOutbox` with `OfficialTelegramTransport`, and `drain` with `_send_sync`.
-/

set_option autoImplicit false

namespace TalonX.Notify

open Transact V2

abbrev EventId := String

inductive DeliveryState
  | pending
  | sent
  | held
  | retry
  | failed
  | expired
  | ambiguous
  deriving DecidableEq, Repr

/-- `κ` is what the row is about. -/
structure OutboxRow (κ : Type) where
  eventId : EventId
  about : κ
  dedupKey : String
  state : DeliveryState
  attempts : ℕ
  nextAttempt : Option Instant
  deliverBy : Option Instant
  lastError : Option String
  transportRef : Option String
  createdAt : Instant
  deriving DecidableEq, Repr

/-- What `update_outbox` sets; the attempts and the reference stay when nothing is given for them. -/
structure Update where
  state : DeliveryState
  attempts : Option ℕ := none
  nextAttempt : Option Instant := none
  lastError : Option String := none
  transportRef : Option String := none

variable {κ : Type}

def OutboxRow.update (r : OutboxRow κ) (u : Update) : OutboxRow κ :=
  { r with
    state := u.state
    attempts := u.attempts.getD r.attempts
    nextAttempt := u.nextAttempt
    lastError := u.lastError
    transportRef := u.transportRef.or r.transportRef }

/-- `handed` is history: the answers of the Bot, with the event that it was handed. -/
structure Mailbox (κ : Type) where
  outbox : Table (@OutboxRow.eventId κ)
  handed : List (EventId × BotAnswer)

namespace Mailbox

def empty : Mailbox κ := ⟨Table.empty, []⟩

/-- `enqueue_alert`, `enqueue`: a known event is left alone, a new one is pending. -/
def enqueue (m : Mailbox κ) (r : OutboxRow κ) : Mailbox κ :=
  { m with outbox := m.outbox.insertOrIgnore { r with state := .pending, attempts := 0, nextAttempt := none } }

def updateOutbox (m : Mailbox κ) (eventId : EventId) (u : Update) : Mailbox κ :=
  { m with outbox := m.outbox.update (·.eventId = eventId) (·.update u) fun _ => rfl }

/-- `outbox_due`. -/
def outboxDue (m : Mailbox κ) (now : Instant) : List (OutboxRow κ) :=
  (m.outbox.rows.filter fun r => (r.state = .pending || r.state = .retry) && r.nextAttempt.all (· ≤ now)).insertionSort
    fun r q => r.createdAt ≤ q.createdAt

end Mailbox

/-! ## What becomes of an attempt -/

inductive TransportResult
  | ok (ref : String)
  | ambiguous (detail : String)
  | held (detail : String)
  | notOk (permanent : Bool) (detail : String)
  deriving DecidableEq, Repr

def backoffBase : ℤ := 5

def backoffCap : ℤ := 300

/-- `_backoff_s`. -/
def backoff (attempts : ℕ) : ℤ := min backoffCap (backoffBase * 2 ^ (attempts - 1))

/-- The branches of both workers after an attempt. -/
def settle (now : Instant) (maxAttempts attempts : ℕ) : TransportResult → Update
  | .ok ref => { state := .sent, attempts := some attempts, transportRef := some ref }
  | .ambiguous detail => { state := .ambiguous, attempts := some attempts, lastError := some detail }
  | .held detail => { state := .held, attempts := some attempts, lastError := some detail }
  | .notOk permanent detail =>
    if permanent || maxAttempts ≤ attempts then
      let why := if permanent then "permanent transport failure" else "max attempts (" ++ toString maxAttempts ++ ")"
      { state := .failed, attempts := some attempts, lastError := some (why ++ ": " ++ detail) }
    else
      { state := .retry, attempts := some attempts, lastError := some detail
        nextAttempt := some (now + backoff attempts) }

/-- `"non-retryable" in text`. -/
def nonRetryable (text : String) : Bool := 1 < (text.splitOn "non-retryable").length

/-! ## Draining -/

/-- What a worker does with a row that is due: an update without a send, or a send with the default arguments of the
client, after which an exception is permanent or not. -/
inductive Plan
  | skip (u : Update)
  | send (client : TelegramClient) (permanent : TelegramSendError → Bool)

/-- What a transport makes of the end of `TelegramClient.send`. -/
def transportResult (permanent : TelegramSendError → Bool) (dedupKey : String) :
    Except TelegramSendError Unit → TransportResult
  | .ok () => .ok ("telegram:sent:" ++ dedupKey)
  | .error e => .notOk (permanent e) ("telegram: " ++ e.text)

namespace Mailbox

/-- One row of a drain at `now`; the Bot has answered as often as `handed` says. -/
def deliver (bot : ℕ → BotAnswer) (now : Instant) (maxAttempts : ℕ) (plan : OutboxRow κ → Plan) (m : Mailbox κ)
    (r : OutboxRow κ) : Mailbox κ :=
  match plan r with
  | .skip u => m.updateOutbox r.eventId u
  | .send client permanent =>
    let sending := client.send true bot m.handed.length
    let result := transportResult permanent r.dedupKey sending.result
    { m.updateOutbox r.eventId (settle now maxAttempts (r.attempts + 1) result) with
      handed := m.handed ++ sending.answers.map (r.eventId, ·) }

def drainWith (bot : ℕ → BotAnswer) (now : Instant) (maxAttempts : ℕ) (plan : OutboxRow κ → Plan)
    (rows : List (OutboxRow κ)) (m : Mailbox κ) : Mailbox κ :=
  rows.foldl (deliver bot now maxAttempts plan) m

end Mailbox

/-! ### The V2 outbox -/

inductive Origin
  | productWatchlist
  | broadDiscovery
  deriving DecidableEq, Repr

structure RoutingDecision where
  eligible : Bool
  alreadyDelivered : Bool
  reason : String
  deriving DecidableEq, Repr

/-- The arguments of a run of `deliver_outbox`. -/
structure V2Drain where
  now : Instant
  maxAttempts : ℕ
  router : String → Origin → RoutingDecision
  client : TelegramClient
  broadDiscoverySymbols : List String

def originOf (d : V2Drain) (symbol : String) : Origin :=
  if symbol ∈ d.broadDiscoverySymbols then .broadDiscovery else .productWatchlist

/-- The row expires, is held, was delivered already, or is handed to `OfficialTelegramTransport`. -/
def V2Drain.plan (d : V2Drain) (r : OutboxRow String) : Plan :=
  let route := d.router r.dedupKey (originOf d r.about)
  match r.deliverBy.filter (· ≤ d.now) with
  | some deadline =>
    .skip
      { state := .expired
        lastError := some ("actionable-instruction deadline " ++ toString deadline ++
          " passed -- not delivered as fresh; the planned open is no longer actionable") }
  | none =>
    if !route.eligible then .skip { state := .held, lastError := some ("router: " ++ route.reason) }
    else if route.alreadyDelivered then .skip { state := .sent, transportRef := some "dedup:already_delivered" }
    else if !d.client.isConfigured then
      .skip (settle d.now d.maxAttempts (r.attempts + 1)
        (.held "TELEGRAM_BOT_TOKEN / TELEGRAM_CHAT_ID not configured -- HOLD"))
    else .send d.client fun e => nonRetryable e.text

def deliverOutbox (bot : ℕ → BotAnswer) (d : V2Drain) (m : Mailbox String) : Mailbox String :=
  m.drainWith bot d.now d.maxAttempts d.plan (m.outboxDue d.now)

/-! ### The operations outbox -/

inductive Destination
  | tradeEvent
  | operations
  | research
  | other (name : String)
  deriving DecidableEq, Repr

/-- The arguments of a run of `drain`, and what `resolve_destination_config` says; `client` is `none` when no transport is
resolved. -/
structure OpsDrain where
  now : Instant
  maxAttempts : ℕ
  destination : Destination
  enabled : Bool
  client : Option TelegramClient

/-- The row expires, is held, or is handed to `_send_sync`. -/
def OpsDrain.plan (d : OpsDrain) (r : OutboxRow Destination) : Plan :=
  match r.deliverBy.filter (· ≤ d.now) with
  | some deadline =>
    .skip
      { state := .expired
        lastError := some ("deadline " ++ toString deadline ++ " passed -- not delivered as fresh") }
  | none =>
    match d.client with
    | none =>
      .skip (settle d.now d.maxAttempts (r.attempts + 1)
        (.held "destination enabled but no transport resolved -- HOLD"))
    | some client =>
      if !client.isConfigured then
        .skip (settle d.now d.maxAttempts (r.attempts + 1)
          (.held "destination enabled but Telegram credentials invalid/unconfigured -- HOLD (never silently discarded)"))
      else .send client fun e => !e.ambiguous && nonRetryable e.text

/-- A disabled destination keeps its rows. -/
def drain (bot : ℕ → BotAnswer) (d : OpsDrain) (m : Mailbox Destination) : Mailbox Destination :=
  if d.enabled then
    m.drainWith bot d.now d.maxAttempts d.plan ((m.outboxDue d.now).filter (·.about = d.destination))
  else m

end TalonX.Notify
