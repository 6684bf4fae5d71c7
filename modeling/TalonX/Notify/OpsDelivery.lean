import TalonX.Notify.AlertDelivery

/-!
# Deliveries from the operations outbox

`drain` with any client over `ops_notification_outbox`, with all columns of the rows.

- `OpsRow`, `OpsUpdate`: the rows, and the arguments of `update_outbox`;
- `OpsClient`, `sendSync`: the clients that `_send_sync` knows how to call, and what it returns for each;
- `OpsRun.visit`: what the worker does with a row that is due; `OpsRun.record`: the branches after the transport;
- `OpsBox.drain`: the loop over the rows of one destination that were due at its start.
-/

set_option autoImplicit false

namespace TalonX.Notify

open Transact Clock

/-! ## The rows -/

/-- What `enqueue` is given, with the time at which it inserts. -/
structure OpsNote where
  eventId : EventId
  destination : Destination
  eventType : String
  producer : String
  dedupKey : String
  payloadText : String
  provenance : String
  deliverBy : Option String
  createdAt : String
  deriving DecidableEq, Repr

structure OpsRow where
  note : OpsNote
  state : DeliveryState
  attempts : ℕ
  nextAttempt : Option String
  lastError : Option String
  transportRef : Option String
  updatedAt : String
  sentAt : Option String
  deriving DecidableEq, Repr

def OpsRow.eventId (q : OpsRow) : EventId := q.note.eventId

/-- The row that `enqueue` inserts. -/
def OpsNote.pending (n : OpsNote) : OpsRow := ⟨n, .pending, 0, none, none, none, n.createdAt, none⟩

/-- The arguments of `update_outbox`. -/
structure OpsUpdate extends RowUpdate where
  sent : Bool := false

/-- `clock` is `_utcnow()`. `COALESCE` keeps the attempts and the reference when nothing is given for them. -/
def OpsRow.update (clock : String) (q : OpsRow) (u : OpsUpdate) : OpsRow :=
  { q with
    state := u.state
    attempts := u.attempts.getD q.attempts
    nextAttempt := u.nextAttempt
    lastError := u.lastError
    transportRef := u.transportRef.or q.transportRef
    updatedAt := clock
    sentAt := if u.sent then some clock else q.sentAt }

/-- `state IN ('PENDING','RETRY') AND (next_attempt_utc IS NULL OR next_attempt_utc <= ?)`. -/
def OpsRow.due (nowIso : String) (q : OpsRow) : Bool :=
  (q.state = .pending || q.state = .retry) && q.nextAttempt.all (· ≤ nowIso)

/-! ## The transport -/

/-- What `send` of a client raises: an exception of `TelegramClient`, or any other, of which only the `repr` is used. -/
inductive SendFailure
  | telegram (exc : TelegramSendError)
  | other (exc : String)
  deriving DecidableEq, Repr

/-- `getattr(exc, "ambiguous", False) is False and "non-retryable" in str(exc)` for a `TelegramSendError`. -/
def SendFailure.definite : SendFailure → Bool
  | .telegram exc => !exc.ambiguous && decide ("non-retryable".toList <:+: exc.text.toList)
  | .other _ => false

def SendFailure.detail : SendFailure → String
  | .telegram exc => "telegram: " ++ exc.text
  | .other exc => "telegram transport error: " ++ exc

/-- A client: none was resolved, its credentials are missing, it has no `send`, or its `send` is a coroutine function or
a plain function. -/
inductive OpsClient
  | unresolved
  | unconfigured
  | withoutSend
  | async (send : OpsRow → Except SendFailure Unit)
  | sync (send : OpsRow → Except SendFailure SendResult)

/-- `_send_sync`, which does not raise. -/
def sendSync : OpsClient → OpsRow → SendResult
  | .unresolved, _ => { held := true, detail := some "destination enabled but no transport resolved -- HOLD" }
  | .unconfigured, _ =>
    { held := true
      detail := some
        "destination enabled but Telegram credentials invalid/unconfigured -- HOLD (never silently discarded)" }
  | .withoutSend, _ => { detail := some "transport has no .send()" }
  | .async send, q =>
    match send q with
    | .ok () => { ok := true, ref := some ("telegram:sent:" ++ q.note.dedupKey) }
    | .error e => { permanent := e.definite, detail := some e.detail }
  | .sync send, q =>
    match send q with
    | .ok res => res
    | .error e => { permanent := e.definite, detail := some e.detail }

/-! ## One run of the worker -/

/-- A run of `drain`, and what `resolve_destination_config` says of its destination. `clock` is `_utcnow()` when the row
of an event is written. -/
structure OpsRun where
  now : Utc
  room : now.micros + 300 * 1000000 < horizon
  destination : Destination
  enabled : Bool
  client : OpsClient
  clock : EventId → String

namespace OpsRun

variable (o : OpsRun)

def nowIso : String := o.now.isoformat

/-- `now + timedelta(seconds=_backoff_s(attempts))`. -/
def nextAttempt (attempts : ℕ) : Utc :=
  o.now.plusSeconds (backoffSeconds attempts)
    (lt_of_le_of_lt (Nat.add_le_add_left (Nat.mul_le_mul_right _ (backoffSeconds_le attempts)) _) o.room)

/-- What is recorded about an attempt. -/
def record (maxAttempts : ℤ) (attempts : ℕ) (res : SendResult) : OpsUpdate :=
  if res.ok then { state := .sent, attempts := some attempts, transportRef := some (res.ref.getD ""), sent := true }
  else if res.ambiguous then
    { state := .ambiguous, attempts := some attempts
      lastError := some (res.detail.getD "ambiguous transport outcome") }
  else if res.held then
    { state := .held, attempts := some attempts, lastError := some (res.detail.getD "held") }
  else
    let detail := res.detail.getD "transport returned not-ok"
    if res.permanent || maxAttempts ≤ attempts then
      let why := if res.permanent then "permanent transport failure" else "max attempts (" ++ toString maxAttempts ++ ")"
      { state := .failed, attempts := some attempts, lastError := some (why ++ ": " ++ detail) }
    else
      { state := .retry, attempts := some attempts, lastError := some detail
        nextAttempt := some (o.nextAttempt attempts).isoformat }

/-- `deadline and now_iso >= deadline`. -/
def deadlinePassed (q : OpsRow) : Option String :=
  q.note.deliverBy.filter fun deadline => deadline ≠ "" && deadline ≤ o.nowIso

/-- A row that is due: it is past its deadline, or handed to the client. -/
def visit (maxAttempts : ℤ) (q : OpsRow) : OpsUpdate :=
  match o.deadlinePassed q with
  | some deadline =>
    { state := .expired, lastError := some ("deadline " ++ deadline ++ " passed -- not delivered as fresh") }
  | none => o.record maxAttempts (q.attempts + 1) (sendSync o.client q)

end OpsRun

/-- `NotifyStore`. -/
structure OpsBox where
  outbox : Table OpsRow.eventId

namespace OpsBox

/-- `enqueue`: a known event is left alone. -/
def enqueue (box : OpsBox) (n : OpsNote) : OpsBox := ⟨box.outbox.insertOrIgnore n.pending⟩

def updateOutbox (box : OpsBox) (clock : String) (eventId : EventId) (u : OpsUpdate) : OpsBox :=
  ⟨box.outbox.update (·.eventId = eventId) (·.update clock u) fun _ => rfl⟩

/-- `outbox_due` for a destination. -/
def outboxDue (box : OpsBox) (nowIso : String) (destination : Destination) : List OpsRow :=
  ((box.outbox.rows.filter (·.note.destination = destination)).filter (·.due nowIso)).insertionSort fun p q =>
    p.note.createdAt ≤ q.note.createdAt

/-- One turn of the loop. -/
def deliver (o : OpsRun) (maxAttempts : ℤ) (box : OpsBox) (q : OpsRow) : OpsBox :=
  box.updateOutbox (o.clock q.eventId) q.eventId (o.visit maxAttempts q)

/-- A disabled destination keeps its rows as they are. -/
def drain (maxAttempts : ℤ) (box : OpsBox) (o : OpsRun) : OpsBox :=
  if o.enabled then (box.outboxDue o.nowIso o.destination).foldl (deliver o maxAttempts) box else box

/-- The rows that a run hands to the client, in order. -/
def calls (box : OpsBox) (o : OpsRun) : List OpsRow :=
  (box.outboxDue o.nowIso o.destination).filter fun q => (o.deadlinePassed q).isNone

end OpsBox

end TalonX.Notify
