import TalonX.Delivery.Outbox

/-!
# Enqueue and drain

The programs of the delivery pipeline, one call for each committed statement and for each look at the outside world.

- `enqueue`: a `SELECT`, a decision on what it found, and one statement;
- `expireRowIfStale`: the freshness gate, with or without a claim of its own;
- `processPending`: recovery, the age sweep, the selection, and for each row gate, claim, send and settlement;
- `processDigest`: the same for one batch, whose rows are judged again after the claim.
-/

set_option autoImplicit false

namespace TalonX.Delivery

open Transact V2 Outbox

variable {ι : Type}

/-- The call sites. A statement of a claim names it; `retire` and `defer` are those of the gate. -/
inductive Label (ι : Type)
  | read
  | select
  | clock
  | uuid
  | lookup (eventId : EventId) (reading : Instant)
  | setMeta
  | recover (ids : List DeliveryId)
  | defer (deliveryId : DeliveryId)
  | retire (claim : Option (AttemptId ι)) (deliveryId : DeliveryId)
  | insert (deliveryId : DeliveryId) (m : Message)
  | refresh (deliveryId : DeliveryId) (m : Message)
  | approveUpdate (deliveryId : DeliveryId) (m : Message)
  | reopen (deliveryId : DeliveryId) (m : Message)
  | claim (row : DeliveryRow ι) (a : AttemptId ι) (now : Instant)
  | claimBatch (rows : List (DeliveryRow ι)) (a : AttemptId ι)
  | release (deliveryId : DeliveryId) (a : AttemptId ι)
  | request (rows : List (DeliveryRow ι)) (shown : ℕ) (a : AttemptId ι)
  | response (a : AttemptId ι)
  | markSent (deliveryId : DeliveryId) (a : AttemptId ι)
  | markDigestSent (ids : List DeliveryId) (a : AttemptId ι)
  | markAmbiguous (deliveryId : DeliveryId) (a : AttemptId ι)
  | markFailed (deliveryId : DeliveryId) (a : AttemptId ι)
  deriving DecidableEq

abbrev Job (ι α : Type) := Prog (Label ι) (Outbox ι) α

/-! ## The outside world -/

def readClock : Job ι Instant := .call .clock consult (fun s => .ret (s.env.clock s.consulted)) .raise

/-- `now` is an argument or the time of the call. -/
def resolveNow : Option Instant → Job ι Instant
  | some now => .ret now
  | none => readClock

/-- `_clock()`. -/
def gateClock (cfg : DrainConfig) (now : Instant) : Job ι Instant := if cfg.freshClock then readClock else .ret now

/-- `uuid4()`. -/
def newAttempt (me : ι) : Job ι (AttemptId ι) := .call .uuid consult (fun s => .ret ⟨me, s.consulted⟩) .raise

/-! ## `enqueue` -/

/-- What `enqueue` does with the row that its `SELECT` found. -/
inductive EnqueueDecision
  | insert
  | identicalPending
  | refresh
  | alreadySent
  | notUpdate
  | approveUpdate (prevHash : String)
  | reopen
  | unhandled
  deriving DecidableEq, Repr

def enqueueDecision (m : Message) (disposition : Disposition) : Option (DeliveryRow ι) → EnqueueDecision
  | none => .insert
  | some existing =>
    match existing.state with
    | .pending => if existing.contentHash = m.contentHash then .identicalPending else .refresh
    | .sent =>
      if existing.contentHash = m.contentHash then .alreadySent
      else if disposition = .update then .approveUpdate existing.contentHash
      else .notUpdate
    | .failed | .suppressed => .reopen
    | _ => .unhandled

def carryOut (deliveryId : DeliveryId) (m : Message) (disposition : Disposition) (now : Instant) :
    EnqueueDecision → Job ι Unit
  | .insert => Prog.txn (.insert deliveryId m) fun s => (Outbox.insert deliveryId m disposition now s).map ((), ·)
  | .refresh => Prog.write (.refresh deliveryId m) (Outbox.refresh deliveryId m)
  | .approveUpdate prevHash => Prog.write (.approveUpdate deliveryId m) (Outbox.approveUpdate deliveryId m prevHash)
  | .reopen => Prog.write (.reopen deliveryId m) (Outbox.reopen deliveryId m)
  | .identicalPending | .alreadySent | .notUpdate | .unhandled => .ret ()

def enqueue (deliveryId : DeliveryId) (m : Message) (disposition : Disposition) (now : Option Instant) : Job ι Unit := do
  let now ← resolveNow now
  let existing ← Prog.read .read fun s => s.get deliveryId
  carryOut deliveryId m disposition now (enqueueDecision m disposition existing)

/-! ## Recovery and freshness -/

def recoverInFlight (staleAfterSeconds : ℤ) (now : Option Instant) : Job ι Unit := do
  let now ← resolveNow now
  let ids ← Prog.read .read (staleInFlight (now - max 0 staleAfterSeconds))
  Prog.write (.recover ids) (recover ids)

def freshness (cfg : DrainConfig) (row : DeliveryRow ι) (now : Instant) : Job ι Freshness :=
  if cfg.eventTimeLookup then
    .call (.lookup row.eventId now) (lookup row now)
      (fun s => .ret (judgeWith cfg.maxAgeSeconds row now (s.env.evidence s.consulted row.eventId))) .raise
  else .ret (judgeWithout cfg.maxAgeSeconds row now)

/-- The statements that a verdict leads to. -/
def applyFreshness (claim : Option (AttemptId ι)) (row : DeliveryRow ι) (now : Instant) : Freshness → Job ι Freshness
  | .ok => .ret .ok
  | .expired reason => do
    Prog.write (.retire claim row.deliveryId) (retire row.deliveryId .expired reason)
    .ret (.expired reason)
  | .unqualified reason => do
    Prog.write (.retire claim row.deliveryId) (retire row.deliveryId .suppressed reason)
    .ret (.unqualified reason)
  | .defer => do
    let priorDefers ← Prog.read .read fun s => (s.get row.deliveryId).elim 0 (·.deferCount)
    Prog.write (.defer row.deliveryId)
      (defer row.deliveryId (now + deferBackoffSeconds (priorDefers + 1)) (priorDefers + 1))
    .ret .defer

def expireRowIfStale (cfg : DrainConfig) (claim : Option (AttemptId ι)) (row : DeliveryRow ι) (now : Instant) :
    Job ι Freshness := do
  let verdict ← freshness cfg row now
  applyFreshness claim row now verdict

/-- The sweep over pending rows, oldest first. -/
def expireStale (cfg : DrainConfig) (now : Instant) : Job ι Unit :=
  if cfg.enforceAgeCutoff then do
    let rows ← Prog.read .read (staleCandidates cfg.expireScanLimit)
    Prog.forEach rows fun row => (expireRowIfStale cfg none row now).bind fun _ => .ret ()
  else .ret ()

/-- `expire_one_if_stale` in front of a send. -/
def passesGate (cfg : DrainConfig) (now : Instant) (row : DeliveryRow ι) : Job ι Bool :=
  if cfg.enforceAgeCutoff then do
    let reading ← gateClock cfg now
    let verdict ← expireRowIfStale cfg none row reading
    .ret (verdict = .ok)
  else .ret true

/-! ## Settlement -/

/-- `res.error or default`. -/
def errorOr (default : String) (error : Option String) : String := (error.filter (· ≠ "")).getD default

/-- `mark_failed`: it reads the attempts, then writes. -/
def recordFailure (a : AttemptId ι) (deliveryId : DeliveryId) (error : String) (retryAfter : Option ℤ)
    (permanent : Bool) (now : Instant) : Job ι Unit := do
  let attempts ← Prog.read .read fun s => (s.get deliveryId).map (·.attempts)
  match attempts with
  | none => .ret ()
  | some attempts =>
    Prog.write (.markFailed deliveryId a) (markFailed deliveryId attempts error retryAfter permanent now)

def recordAmbiguous (a : AttemptId ι) (deliveryId : DeliveryId) (detail : String) : Job ι Unit :=
  Prog.write (.markAmbiguous deliveryId a) (markAmbiguous deliveryId detail)

/-- `await sender.send`: the request leaves, the answer arrives. -/
def send [DecidableEq ι] (rows : List (DeliveryRow ι)) (asDigest : Bool) (shown : ℕ) (a : AttemptId ι) :
    Job ι SendOutcome := do
  Prog.write (.request rows shown a) (request rows shown a)
  .call (.response a) (respond rows asDigest a) (fun s => .ret (s.env.answer s.consulted)) .raise

/-! ## `process_pending` -/

/-- The wait before the next attempt on a rejected row. -/
def retryAfter (row : DeliveryRow ι) (res : SenderResult) : Option ℤ :=
  if res.retryAfterSeconds = none ∧ res.permanent = false then some (backoff (row.attempts + 1))
  else res.retryAfterSeconds

def settle (a : AttemptId ι) (row : DeliveryRow ι) (now : Instant) : SendOutcome → Job ι Unit
  | .cancelled => do
    recordAmbiguous a row.deliveryId "send cancelled while possibly in flight"
    .raise
  | .error exc => recordAmbiguous a row.deliveryId ("unexpected sender error: " ++ exc)
  | .result res =>
    if res.ok then Prog.write (.markSent row.deliveryId a) (markSent row.deliveryId res.messageId now)
    else if res.ambiguous then recordAmbiguous a row.deliveryId (errorOr "unconfirmable outcome" res.error)
    else recordFailure a row.deliveryId (errorOr "unknown error" res.error) (retryAfter row res) res.permanent now

variable [DecidableEq ι]

def transmit (a : AttemptId ι) (row : DeliveryRow ι) (now : Instant) : Job ι Unit := do
  let res ← send [row] false 1 a
  settle a row now res

def claimAndSend (me : ι) (row : DeliveryRow ι) (now : Instant) : Job ι Unit := do
  let a ← newAttempt me
  let won ← .call (.claim row a now) (claimForSend row.deliveryId a now)
    (fun s => .ret (winsClaim row.deliveryId now s)) .raise
  if won then transmit a row now else .ret ()

def deliverRow (me : ι) (cfg : DrainConfig) (now : Instant) (row : DeliveryRow ι) : Job ι Unit := do
  let sendNow ← readClock
  let fresh ← passesGate cfg now row
  if fresh then claimAndSend me row sendNow else .ret ()

def processPending (me : ι) (cfg : DrainConfig) (now : Option Instant) : Job ι Unit := do
  let now ← resolveNow now
  recoverInFlight cfg.staleInFlightSeconds (some now)
  expireStale cfg now
  let rows ← Prog.read .select (pending cfg.route now cfg.limit)
  if cfg.mode = .enabled ∧ cfg.configured then Prog.forEach rows (deliverRow me cfg now) else .ret ()

/-! ## `process_digest` -/

/-- `digest_display_order`: by band, symbol and event. -/
def digestDisplayOrder (rows : List (DeliveryRow ι)) : List (DeliveryRow ι) :=
  rows.insertionSort (lexBy (fun r => bandRank r.band) (lexBy (·.symbol) fun a b => a.eventId ≤ b.eventId))

def recordDigestAmbiguous (a : AttemptId ι) (rows : List (DeliveryRow ι)) (detail : String) : Job ι Unit :=
  Prog.forEach rows fun row => recordAmbiguous a row.deliveryId detail

def settleDigest (a : AttemptId ι) (bucket : ℤ) (now : Instant) (claimed ordered : List (DeliveryRow ι)) :
    SendOutcome → Job ι Unit
  | .cancelled => do
    recordDigestAmbiguous a claimed "digest cancelled in flight"
    .raise
  | .error exc => recordDigestAmbiguous a claimed ("digest unexpected error: " ++ exc)
  | .result res =>
    if res.ok then do
      let ids := ordered.map (·.deliveryId)
      Prog.write (.markDigestSent ids a) (markDigestSent ids a res.messageId now)
      Prog.write .setMeta (setMeta · bucket now)
    else if res.ambiguous then recordDigestAmbiguous a claimed (errorOr "digest unconfirmed" res.error)
    else Prog.forEach claimed fun row =>
      recordFailure a row.deliveryId (errorOr "digest rejected" res.error) (some (backoff 1)) res.permanent now

def transmitDigest (a : AttemptId ι) (bucket : ℤ) (now : Instant) (claimed : List (DeliveryRow ι)) : Job ι Unit := do
  let ordered := digestDisplayOrder claimed
  let res ← send ordered true maxDigestRows a
  settleDigest a bucket now claimed ordered res

/-- A row that is not judged fresh again leaves the batch. -/
def leaveBatch (a : AttemptId ι) (row : DeliveryRow ι) : Freshness → Job ι Bool
  | .ok => .ret true
  | .defer => do
    Prog.write (.release row.deliveryId a) (releaseClaim row.deliveryId a)
    .ret false
  | _ => .ret false

def recheck (cfg : DrainConfig) (a : AttemptId ι) (reading : Instant) (row : DeliveryRow ι) : Job ι Bool := do
  let verdict ← expireRowIfStale cfg (some a) row reading
  leaveBatch a row verdict

def sendBatch (cfg : DrainConfig) (a : AttemptId ι) (bucket : ℤ) (now : Instant) (claimed : List (DeliveryRow ι)) :
    Job ι Unit := do
  let reading ← gateClock cfg now
  let eligible ← Prog.filterEach claimed (recheck cfg a reading)
  if eligible = [] then .ret () else transmitDigest a bucket now eligible

def claimAndSendDigest (me : ι) (cfg : DrainConfig) (bucket : ℤ) (now : Instant) (rows : List (DeliveryRow ι)) :
    Job ι Unit := do
  let a ← newAttempt me
  let claimed ← .call (.claimBatch rows a) (claimDigestBatch (rows.map (·.deliveryId)) a now)
    (fun s => .ret (batchWon rows s)) .raise
  if claimed = [] then .ret () else sendBatch cfg a bucket now claimed

/-- The early filter. -/
def freshRows (cfg : DrainConfig) (now : Instant) (rows : List (DeliveryRow ι)) : Job ι (List (DeliveryRow ι)) :=
  if cfg.enforceAgeCutoff then Prog.filterEach rows (passesGate cfg now) else .ret rows

/-- What becomes of a digest, once it is known whether it is due. -/
def aggregate (me : ι) (cfg : DrainConfig) (bucket : ℤ) (due : Bool) (now : Instant) (rows : List (DeliveryRow ι)) :
    Job ι Unit :=
  if due = false ∨ cfg.mode ≠ .enabled then .ret ()
  else if rows = [] then Prog.write .setMeta (setMeta · bucket now)
  else if cfg.configured then claimAndSendDigest me cfg bucket now rows
  else .ret ()

/-- `interval_seconds` divides time into buckets. -/
def digestBucket (intervalSeconds : ℤ) (now : Instant) : ℤ := now / max 1 intervalSeconds

def processDigest (me : ι) (cfg : DrainConfig) (intervalSeconds : ℤ) (now : Option Instant) : Job ι Unit := do
  let now ← resolveNow now
  recoverInFlight cfg.staleInFlightSeconds (some now)
  let due ← Prog.read .read fun s => s.lastDigestBucket.elim true (· < digestBucket intervalSeconds now)
  expireStale cfg now
  let rows ← Prog.read .select (pending (some .digest) now cfg.limit)
  let fresh ← freshRows cfg now rows
  aggregate me cfg (digestBucket intervalSeconds now) due now fresh

/-- What a process may start. -/
inductive Starts (me : ι) : Job ι Unit → Prop
  | enqueue (deliveryId m disposition now) : Starts me (enqueue deliveryId m disposition now)
  | processPending (cfg now) : Starts me (processPending me cfg now)
  | processDigest (cfg intervalSeconds now) : Starts me (processDigest me cfg intervalSeconds now)
  | recoverInFlight (staleAfterSeconds now) : Starts me (recoverInFlight staleAfterSeconds now)

end TalonX.Delivery
