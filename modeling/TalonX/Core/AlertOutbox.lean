import TalonX.Core.World

/-!
# The alert outbox

`AlertOutbox` on its state file, and the part of `DecisionEngine` that publishes through it. Between two calls of its
methods the records in memory are those in the file: every method ends with `_save`.

- `enqueue`, `markPublished`: one record; `deliverAlert`: enqueue, publish, mark;
- `flush`: a pass over the records that are due.
-/

set_option autoImplicit false

namespace TalonX.Core

open Transact V2

/-- The call sites of the engine and of Dispatch. -/
inductive Label
  | clock
  | backoff
  | look
  | memory (ticker : String) (horizon : Horizon)
  | mark (alert : Alert)
  | saveRow (ticker : String) (horizon : Horizon)
  | saveAlert (alert : Alert)
  | recordSuppressed
  | boot
  | loadOutbox
  | enqueue (alert : Alert)
  | publish (payload : Payload)
  | markPublished (id : OutboxId)
  | saveOutbox (records : Table OutboxRecord.outboxId)
  | subscribe
  | drop
  | getMessage
  | isProcessed (id : Option OutboxId)
  | record (alert : Payload)
  | markProcessed (id : Option OutboxId)
  | push (id : Option OutboxId)
  | settlePush

abbrev Job (α : Type) := Prog Label World α

def readClock : Job Instant := .call .clock World.consult (fun s => .ret (s.env.clock s.consulted)) .raise

/-- `jittered_backoff_seconds`. -/
def readBackoff : Job ℤ := .call .backoff World.consult (fun s => .ret (s.env.backoff s.consulted)) .raise

/-! ## Records -/

namespace OutboxRecord

def new (id : OutboxId) (payload : Payload) (h : payload.outboxId = some id) (now : Instant) : OutboxRecord where
  outboxId := id
  payload := payload
  status := .pending
  attempts := 0
  maxAttempts := 6
  lastAttemptAt := none
  nextAttemptAt := some now
  sentAt := none
  lastError := none
  labelled := h
  exhausted := nofun

/-- A record that is still pending gets the newer payload. -/
def renew (id : OutboxId) (payload : Payload) (h : payload.outboxId = some id) (r : OutboxRecord) : OutboxRecord :=
  if hr : r.outboxId = id ∧ r.status.isPending = true then { r with payload := payload, labelled := hr.1 ▸ h } else r

def markSent (now : Instant) (r : OutboxRecord) : OutboxRecord :=
  { r with status := .sent, sentAt := some now, lastError := none, exhausted := nofun }

/-- The status is that of another try: `RETRY`, or `UNCERTAIN`. -/
structure Again where
  status : OutboxStatus
  pending : status ≠ .failed

/-- `_schedule_retry`, and the branch of `flush` for a publish that raises, which has a status of its own. -/
def scheduleRetry (again : Again) (error : String) (now : Instant) (wait : ℤ) (r : OutboxRecord) : OutboxRecord :=
  if h : r.maxAttempts ≤ r.attempts + 1 then
    { r with
      attempts := r.attempts + 1, lastAttemptAt := some now, lastError := some error, status := .failed
      exhausted := fun _ => h }
  else
    { r with
      attempts := r.attempts + 1, lastAttemptAt := some now, lastError := some error, status := again.status
      nextAttemptAt := some (now + wait), exhausted := fun hf => absurd hf again.pending }

def isDue (now : Instant) (r : OutboxRecord) : Bool := r.nextAttemptAt.all (· ≤ now)

theorem outboxId_scheduleRetry (again : Again) (error : String) (now : Instant) (wait : ℤ) (r : OutboxRecord) :
    (r.scheduleRetry again error now wait).outboxId = r.outboxId := by
  unfold scheduleRetry
  split <;> rfl

theorem outboxId_renew (id : OutboxId) (payload : Payload) (h : payload.outboxId = some id) (r : OutboxRecord) :
    (r.renew id payload h).outboxId = r.outboxId := by
  unfold renew
  split <;> rfl

end OutboxRecord

/-! ## One alert -/

namespace World

/-- `AlertOutbox.enqueue`: a pending record gets the newer payload, a settled one is left alone. -/
def enqueue (id : OutboxId) (payload : Payload) (h : payload.outboxId = some id) (now : Instant) (s : World) : World :=
  { s with
    alertOutbox := s.alertOutbox.upsert (.new id payload h now) (.renew id payload h)
      (OutboxRecord.outboxId_renew id payload h) }

/-- `AlertOutbox.mark_published`. -/
def markPublished (id : OutboxId) (now : Instant) (s : World) : World :=
  { s with
    alertOutbox := s.alertOutbox.update (fun r => r.outboxId = id && r.status.isPending) (·.markSent now) fun _ => rfl }

/-- Redis hands the message to the subscribers. -/
def handOver (payload : Payload) (s : World) : World :=
  { s with inbox := s.inbox ++ [payload], received := s.received ++ payload.outboxId.toList }

/-- `client.publish`. Its result, the number of subscribers, is not used. -/
def publish (payload : Payload) (s : World) : World :=
  let t := if s.env.publish s.consulted ≠ .lost ∧ s.subscribed then s.handOver payload else s
  { t.consult with
    accepted := s.accepted ++ if s.env.publish s.consulted = .accepted then payload.outboxId.toList else [] }

end World

/-- `_raw_publish`. -/
def rawPublish (payload : Payload) : Job Bool :=
  .call (.publish payload) (World.publish payload) (fun s => .ret (s.env.publish s.consulted = .accepted)) .raise

def markPublished (id : OutboxId) : Job Unit := do
  let now ← readClock
  Prog.write (.markPublished id) (World.markPublished id now)

theorem outboxId_payload (a : Alert) (id : OutboxId) : (Alert.dump (a.withOutboxId id)).outboxId = some id := by
  rw [Alert.outboxId_dump, AlertOf.outboxId_withOutboxId]

/-- `_deliver_alert`. -/
def deliverAlert (a : Alert) : Job Bool := do
  let id := makeOutboxId a
  let payload := Alert.dump (a.withOutboxId id)
  let now ← readClock
  Prog.write (.enqueue a) fun s =>
    { s.enqueue id payload (outboxId_payload a id) now with dispatched := s.dispatched ++ [a] }
  let ok ← rawPublish payload
  if ok then markPublished id else .ret ()
  .ret ok

/-! ## `flush` -/

/-- What an attempt makes of a record; no answer: the publish callable raised. -/
def settleAttempt (now : Instant) (wait : ℤ) : Option Bool → OutboxRecord → OutboxRecord
  | some true, r => r.markSent now
  | some false, r => r.scheduleRetry ⟨.retry, nofun⟩ "publish callable returned falsey" now wait
  | none, r => r.scheduleRetry ⟨.uncertain, nofun⟩ "publish raised" now wait

theorem outboxId_settleAttempt (now : Instant) (wait : ℤ) (ok : Option Bool) (r : OutboxRecord) :
    (settleAttempt now wait ok r).outboxId = r.outboxId := by
  unfold settleAttempt
  split
  · rfl
  · exact OutboxRecord.outboxId_scheduleRetry _ _ _ _ _
  · exact OutboxRecord.outboxId_scheduleRetry _ _ _ _ _

/-- `_raw_publish` never raises. -/
def attempt (now : Instant) (records : Table OutboxRecord.outboxId) (r : OutboxRecord) :
    Job (Table OutboxRecord.outboxId) :=
  if r.status.isPending && r.isDue now then do
    let ok ← rawPublish r.payload
    let wait ← readBackoff
    .ret (records.update (·.outboxId = r.outboxId) (settleAttempt now wait (some ok))
      (outboxId_settleAttempt now wait (some ok)))
  else .ret records

def flush : Job Unit := do
  let now ← readClock
  let records ← Prog.read .loadOutbox (·.alertOutbox)
  let records' ← Prog.foldEach records.rows records (attempt now)
  Prog.write (.saveOutbox records') fun s => { s with alertOutbox := records' }

end TalonX.Core
