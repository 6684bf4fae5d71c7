import TalonX.Delivery.Schemas
import TalonX.Transact.Protocol
import TalonX.Transact.Sorting
import TalonX.Transact.Table

/-!
# The delivery outbox

- `Outbox`: the table `intelligence_delivery`, the digest bucket, the readings of the outside world still to come, and the
  history of what crossed to the transport;
- `RowWrite`: the `SET` part of an `UPDATE`, which leaves the identity of a row alone; `Outbox.modify`, `get_modify`;
- the statements of `DeliveryOutbox`, each with the `WHERE` clause that the code gives it;
- `judge`: the freshness of a row, from the publication time that a lookup found.
-/

set_option autoImplicit false

namespace TalonX.Delivery

open Transact V2

variable {ι : Type}

/-! ## The store -/

/-- What the `n`-th consultation of the outside world gives: the clock, a lookup, the transport. -/
structure Environment where
  clock : ℕ → Instant
  evidence : ℕ → EventId → Evidence
  answer : ℕ → SendOutcome

/-- A lookup for the freshness gate: the row, the reading of the clock, and what the lookup gave. -/
structure Judgement where
  deliveryId : DeliveryId
  eventId : EventId
  reading : Instant
  evidence : Evidence
  deriving DecidableEq, Repr

/-- A digest that the transport accepted: its rows, in the order of its lines. -/
structure SentDigest (ι : Type) where
  messageId : ℕ
  rows : List (DeliveryRow ι)
  deriving DecidableEq, Repr

/-- `wire`, `digests`, `acknowledged` and `judgements` are history. -/
structure Outbox (ι : Type) where
  rows : Table fun r : DeliveryRow ι => r.deliveryId
  lastDigestBucket : Option ℤ
  lastDigestSentAt : Option Instant
  env : Environment
  consulted : ℕ
  wire : List (AttemptId ι × DeliveryRow ι)
  digests : List (SentDigest ι)
  acknowledged : List ℕ
  judgements : List Judgement

/-- The `SET` part of an `UPDATE`. -/
structure RowWrite (ι : Type) where
  set : DeliveryRow ι → DeliveryRow ι
  identity : ∀ r, (set r).toIdentity = r.toIdentity

theorem RowWrite.deliveryId (w : RowWrite ι) (r : DeliveryRow ι) : (w.set r).deliveryId = r.deliveryId :=
  congrArg Identity.deliveryId (w.identity r)

namespace Outbox

def empty (env : Environment) : Outbox ι := ⟨Table.empty, none, none, env, 0, [], [], [], []⟩

/-- `SELECT … WHERE delivery_id = ?`. -/
def get (s : Outbox ι) (deliveryId : DeliveryId) : Option (DeliveryRow ι) := s.rows.get deliveryId

/-- `UPDATE … SET w WHERE c`. -/
def modify (s : Outbox ι) (c : DeliveryRow ι → Bool) (w : RowWrite ι) : Outbox ι :=
  { s with rows := s.rows.update c w.set w.deliveryId }

theorem get_modify (s : Outbox ι) (c : DeliveryRow ι → Bool) (w : RowWrite ι) (k : DeliveryId) :
    (s.modify c w).get k = (s.get k).map fun r => if c r then w.set r else r :=
  Table.get_updateRows (s.rows.rows_update c w.set w.deliveryId) w.deliveryId k

theorem modify_of_forall_not {s : Outbox ι} {c : DeliveryRow ι → Bool} {w : RowWrite ι}
    (h : ∀ r ∈ s.rows.rows, c r = false) : s.modify c w = s := by
  rw [modify, Table.update_of_forall_not h]

theorem deliveryId_of_get {s : Outbox ι} {k : DeliveryId} {r : DeliveryRow ι} (h : s.get k = some r) :
    r.deliveryId = k := by
  have hget : s.rows.get k = some r := h
  have hkey := Table.key_of_get hget
  exact hkey

theorem mem_of_get {s : Outbox ι} {k : DeliveryId} {r : DeliveryRow ι} (h : s.get k = some r) : r ∈ s.rows.rows :=
  Table.mem_of_get h

theorem get_of_mem {s : Outbox ι} {r : DeliveryRow ι} (h : r ∈ s.rows.rows) : s.get r.deliveryId = some r :=
  (find?_key_eq_some s.rows.unique).2 ⟨h, rfl⟩

/-- A consultation of the outside world. -/
def consult (s : Outbox ι) : Outbox ι := { s with consulted := s.consulted + 1 }

def setMeta (s : Outbox ι) (bucket : ℤ) (now : Instant) : Outbox ι :=
  { s with lastDigestBucket := some bucket, lastDigestSentAt := some now }

/-! ## Statements -/

/-- `next_retry_at_utc IS NULL OR next_retry_at_utc <= ?`. -/
def isDue (now : Instant) (r : DeliveryRow ι) : Bool := r.nextRetryAt.elim true (· ≤ now)

/-- The order of `pending`: by band, then the time of the enqueue, then the id. -/
def pendingBefore : DeliveryRow ι → DeliveryRow ι → Prop :=
  lexBy (fun r => bandRank r.band) (lexBy (·.enqueuedAt) fun a b => a.deliveryId ≤ b.deliveryId)

instance : DecidableRel (pendingBefore (ι := ι)) :=
  inferInstanceAs (DecidableRel (lexBy (fun r : DeliveryRow ι => bandRank r.band)
    (lexBy (·.enqueuedAt) fun a b => a.deliveryId ≤ b.deliveryId)))

/-- `LIMIT ?`, where there is one. -/
def limited {α : Type} (limit : Option ℕ) (rows : List α) : List α := limit.elim rows rows.take

theorem limited_sublist {α : Type} (limit : Option ℕ) (rows : List α) : (limited limit rows).Sublist rows := by
  cases limit with
  | none => exact List.Sublist.refl rows
  | some n => exact List.take_sublist n rows

/-- `pending`. -/
def pending (route : Option Route) (now : Instant) (limit : Option ℕ) (s : Outbox ι) : List (DeliveryRow ι) :=
  limited limit ((s.rows.rows.filter fun r => r.state = .pending && route.elim true (r.route = ·) && isDue now r).insertionSort
    pendingBefore)

theorem mem_pending {route : Option Route} {now : Instant} {limit : Option ℕ} {s : Outbox ι} {x : DeliveryRow ι}
    (h : x ∈ pending route now limit s) : x ∈ s.rows.rows ∧ x.state = .pending ∧ isDue now x = true := by
  have hsorted := (limited_sublist _ _).subset h
  rw [(List.perm_insertionSort _ _).mem_iff] at hsorted
  obtain ⟨hmem, hcond⟩ := List.mem_filter.1 hsorted
  simp only [Bool.and_eq_true, decide_eq_true_eq] at hcond
  exact ⟨hmem, hcond.1.1, hcond.2⟩

theorem nodup_pending (route : Option Route) (now : Instant) (limit : Option ℕ) (s : Outbox ι) :
    ((pending route now limit s).map (·.deliveryId)).Nodup := by
  refine List.Nodup.sublist ((limited_sublist _ _).map _) ?_
  rw [((List.perm_insertionSort _ _).map _).nodup_iff]
  exact s.rows.unique.sublist (List.Sublist.map _ List.filter_sublist)

/-- The rows that `expire_stale` inspects. -/
def staleCandidates (limit : Option ℕ) (s : Outbox ι) : List (DeliveryRow ι) :=
  limited limit ((s.rows.rows.filter fun r => r.state = .pending).insertionSort fun a b => a.enqueuedAt ≤ b.enqueuedAt)

/-- The rows that `recover_in_flight` finds. -/
def staleInFlight (cutoff : Instant) (s : Outbox ι) : List DeliveryId :=
  (s.rows.rows.filter fun r => r.state = .inFlight && r.inFlightSince.elim true (· ≤ cutoff)).map (·.deliveryId)

def recoverWrite : RowWrite ι where
  set r := { r with
    state := .ambiguous, lastError := some "recovered from a stale IN_FLIGHT claim -- outcome unknown, not retried",
    nextRetryAt := none }
  identity _ := rfl

/-- The updates of `recover_in_flight`. -/
def recover (ids : List DeliveryId) (s : Outbox ι) : Outbox ι :=
  s.modify (fun r => r.deliveryId ∈ ids && r.state = .inFlight) recoverWrite

def deferWrite (nextRetry : Instant) (deferCount : ℕ) : RowWrite ι where
  set r := { r with nextRetryAt := some nextRetry, deferCount := deferCount }
  identity _ := rfl

def defer (deliveryId : DeliveryId) (nextRetry : Instant) (deferCount : ℕ) (s : Outbox ι) : Outbox ι :=
  s.modify (·.deliveryId = deliveryId) (deferWrite nextRetry deferCount)

def retireWrite (state : DeliveryState) (reason : SuppressReason) : RowWrite ι where
  set r := { r with state := state, nextRetryAt := none, suppressReason := some reason, deferCount := 0 }
  identity _ := rfl

/-- The updates of `_expire_row_if_stale` and `_terminal_unqualified`. -/
def retire (deliveryId : DeliveryId) (state : DeliveryState) (reason : SuppressReason) (s : Outbox ι) : Outbox ι :=
  s.modify (·.deliveryId = deliveryId) (retireWrite state reason)

def claimWrite (a : AttemptId ι) (now : Instant) : RowWrite ι where
  set r := { r with state := .inFlight, attemptId := some a, inFlightSince := some now }
  identity _ := rfl

/-- What `claim_for_send` asks of the row. -/
def claimable (deliveryId : DeliveryId) (now : Instant) (r : DeliveryRow ι) : Bool :=
  r.deliveryId = deliveryId && r.state = .pending && isDue now r

def claimForSend (deliveryId : DeliveryId) (a : AttemptId ι) (now : Instant) (s : Outbox ι) : Outbox ι :=
  s.modify (claimable deliveryId now) (claimWrite a now)

/-- The row count of `claim_for_send` is `1`. -/
def winsClaim (deliveryId : DeliveryId) (now : Instant) (s : Outbox ι) : Bool :=
  (s.get deliveryId).any (claimable deliveryId now)

theorem claimForSend_of_not_wins {s : Outbox ι} {k : DeliveryId} {a : AttemptId ι} {now : Instant}
    (h : winsClaim k now s = false) : s.claimForSend k a now = s := by
  refine modify_of_forall_not fun r hr => ?_
  by_contra hc
  have hclaim : claimable k now r = true := by simpa using hc
  have hk : r.deliveryId = k := by
    simp only [claimable, Bool.and_eq_true, decide_eq_true_eq] at hclaim
    exact hclaim.1.1
  have hget : s.get k = some r := hk ▸ get_of_mem hr
  rw [winsClaim, hget, Option.any_some, hclaim] at h
  cases h

/-- The rows that `claim_digest_batch` claims. -/
def batchWon (rows : List (DeliveryRow ι)) (s : Outbox ι) : List (DeliveryRow ι) :=
  rows.filter fun x => (s.get x.deliveryId).any (·.state = .pending)

def claimDigestBatch (ids : List DeliveryId) (a : AttemptId ι) (now : Instant) (s : Outbox ι) : Outbox ι :=
  s.modify (fun r => r.deliveryId ∈ ids && r.state = .pending) (claimWrite a now)

def releaseWrite : RowWrite ι where
  set r := { r with state := .pending, attemptId := none, inFlightSince := none }
  identity _ := rfl

def releaseClaim [DecidableEq ι] (deliveryId : DeliveryId) (a : AttemptId ι) (s : Outbox ι) : Outbox ι :=
  s.modify (fun r => r.deliveryId = deliveryId && r.state = .inFlight && r.attemptId = some a) releaseWrite

/-- `state IN (PENDING, IN_FLIGHT)`. -/
def settleable (deliveryId : DeliveryId) (r : DeliveryRow ι) : Bool :=
  r.deliveryId = deliveryId && (r.state = .pending || r.state = .inFlight)

def sentWrite (messageId : Option ℕ) (now : Instant) : RowWrite ι where
  set r := { r with
    state := .sent, sentAt := some now, lastError := none, nextRetryAt := none, inFlightSince := none,
    transportMessageId := (messageId.map .message).or r.transportMessageId }
  identity _ := rfl

def markSent (deliveryId : DeliveryId) (messageId : Option ℕ) (now : Instant) (s : Outbox ι) : Outbox ι :=
  s.modify (settleable deliveryId) (sentWrite messageId now)

def digestSentWrite (ids : List DeliveryId) (a : AttemptId ι) (messageId : Option ℕ) (now : Instant) : RowWrite ι where
  set r := { r with
    state := .sent, sentAt := some now, lastError := none, nextRetryAt := none, inFlightSince := none,
    transportMessageId := some (.digest a messageId), digestItemOrdinal := some (ids.idxOf r.deliveryId + 1) }
  identity _ := rfl

def markDigestSent (ids : List DeliveryId) (a : AttemptId ι) (messageId : Option ℕ) (now : Instant) (s : Outbox ι) :
    Outbox ι :=
  s.modify (fun r => r.deliveryId ∈ ids && r.state = .inFlight) (digestSentWrite ids a messageId now)

def ambiguousWrite (detail : String) : RowWrite ι where
  set r := { r with
    state := .ambiguous, lastError := some (detail.take 500).toString, nextRetryAt := none, inFlightSince := none }
  identity _ := rfl

def markAmbiguous (deliveryId : DeliveryId) (detail : String) (s : Outbox ι) : Outbox ι :=
  s.modify (settleable deliveryId) (ambiguousWrite detail)

def failedWrite (attempts : ℕ) (error : String) (retryAt : Option Instant) (state : DeliveryState) : RowWrite ι where
  set r := { r with
    state := state, attempts := attempts, lastError := some (error.take 500).toString, nextRetryAt := retryAt,
    attemptId := none, inFlightSince := none }
  identity _ := rfl

/-- The update of `mark_failed`, from the `attempts` that it has read. -/
def markFailed (deliveryId : DeliveryId) (attempts : ℕ) (error : String) (retryAfter : Option ℤ) (permanent : Bool)
    (now : Instant) (s : Outbox ι) : Outbox ι :=
  s.modify (·.deliveryId = deliveryId)
    (if permanent || maxSendAttempts ≤ attempts + 1 then failedWrite (attempts + 1) error none .failed
      else failedWrite (attempts + 1) error (retryAfter.map fun t => now + max 0 t) .pending)

/-! ## `enqueue` -/

def newRow (deliveryId : DeliveryId) (m : Message) (disposition : Disposition) (now : Instant) : DeliveryRow ι where
  deliveryId := deliveryId
  eventId := m.eventId
  symbol := m.symbol.toUpper
  enqueuedAt := now
  band := m.band
  route := m.route
  state := .pending
  disposition := disposition
  text := m.text
  contentHash := m.contentHash
  prevContentHash := none
  evidenceUrls := m.evidenceUrls
  attempts := 0
  lastError := none
  sentAt := none
  nextRetryAt := none
  suppressReason := none
  attemptId := none
  inFlightSince := none
  transportMessageId := none
  digestItemOrdinal := none
  deferCount := 0
  calls := []

/-- `INSERT`: an `IntegrityError` when there is a row. -/
def insert (deliveryId : DeliveryId) (m : Message) (disposition : Disposition) (now : Instant) (s : Outbox ι) :
    Option (Outbox ι) :=
  (s.rows.insert? (newRow deliveryId m disposition now)).map fun rows => { s with rows := rows }

theorem get_insert {k : DeliveryId} {m : Message} {d : Disposition} {now : Instant} {s s' : Outbox ι}
    (h : s.insert k m d now = some s') (k' : DeliveryId) :
    s'.get k' = (s.get k').or (if k = k' then some (newRow k m d now) else none) := by
  obtain ⟨rows, hrows, rfl⟩ := Option.map_eq_some_iff.1 h
  exact Table.get_append (Table.insert?_eq_some hrows).1 k'

def refreshWrite (m : Message) : RowWrite ι where
  set r := { r with
    text := m.text, contentHash := m.contentHash, evidenceUrls := m.evidenceUrls, band := m.band, route := m.route }
  identity _ := rfl

/-- A pending text is refreshed in place. -/
def refresh (deliveryId : DeliveryId) (m : Message) (s : Outbox ι) : Outbox ι :=
  s.modify (·.deliveryId = deliveryId) (refreshWrite m)

def updateWrite (m : Message) (prevHash : String) : RowWrite ι where
  set r := { r with
    state := .pending, disposition := .update, text := m.text, contentHash := m.contentHash,
    prevContentHash := some prevHash, evidenceUrls := m.evidenceUrls, band := m.band, route := m.route,
    attempts := 0, lastError := none, nextRetryAt := none, deferCount := 0, calls := [] }
  identity _ := rfl

/-- An approved update opens the row again. -/
def approveUpdate (deliveryId : DeliveryId) (m : Message) (prevHash : String) (s : Outbox ι) : Outbox ι :=
  s.modify (·.deliveryId = deliveryId) (updateWrite m prevHash)

def reopenWrite (m : Message) : RowWrite ι where
  set r := { r with
    state := .pending, text := m.text, contentHash := m.contentHash, evidenceUrls := m.evidenceUrls, band := m.band,
    route := m.route, attempts := 0, lastError := none, nextRetryAt := none, deferCount := 0, suppressReason := none }
  identity _ := rfl

/-- A failed or suppressed row gets a fresh attempt. -/
def reopen (deliveryId : DeliveryId) (m : Message) (s : Outbox ι) : Outbox ι :=
  s.modify (·.deliveryId = deliveryId) (reopenWrite m)

/-! ## The transport -/

def callWrite (a : AttemptId ι) : RowWrite ι where
  set r := { r with calls := r.calls ++ [a] }
  identity _ := rfl

/-- The request leaves the process; the transport receives the text of the first `shown` rows. -/
def request (rows : List (DeliveryRow ι)) (shown : ℕ) (a : AttemptId ι) (s : Outbox ι) : Outbox ι :=
  { s.modify (fun r => r.deliveryId ∈ rows.map (·.deliveryId)) (callWrite a) with
    wire := s.wire ++ (rows.take shown).map fun x => (a, x) }

def rejectWrite [DecidableEq ι] (a : AttemptId ι) : RowWrite ι where
  set r := { r with calls := r.calls.filter (· ≠ a) }
  identity _ := rfl

def settledCalls [DecidableEq ι] (rows : List (DeliveryRow ι)) (a : AttemptId ι) (res : SendOutcome) (s : Outbox ι) :
    Outbox ι :=
  if res.rejected then s.modify (fun r => r.deliveryId ∈ rows.map (·.deliveryId)) (rejectWrite a) else s

/-- The transport answers; `asDigest` when the rows were the lines of one message. -/
def respond [DecidableEq ι] (rows : List (DeliveryRow ι)) (asDigest : Bool) (a : AttemptId ι) (s : Outbox ι) :
    Outbox ι :=
  let res := s.env.answer s.consulted
  let s' := s.settledCalls rows a res
  { s' with
    consulted := s.consulted + 1
    acknowledged := s.acknowledged ++ res.acknowledged.toList
    digests := s.digests ++ if asDigest then res.acknowledged.toList.map (⟨·, rows⟩) else [] }

/-! ## Freshness -/

/-- `_expire_row_if_stale` on a row with the time `basis`. -/
def judgeAge (maxAge : ℤ) (route : Route) (now basis : Instant) (byEventTime : Bool) : Freshness :=
  if now - basis ≤ maxAge then .ok else .expired (.staleCard (now - basis) byEventTime maxAge route)

/-- With a lookup: a time that is missing, without a zone or in the future is no evidence. -/
def judgeWith (maxAge : Route → ℤ) (row : DeliveryRow ι) (now : Instant) : Evidence → Freshness
  | .failed => .defer
  | .missing => .unqualified .noEvidence
  | .found time aware =>
    if !aware then .unqualified .naive
    else if now + 300 < time then .unqualified (.future time)
    else judgeAge (maxAge row.route) row.route now (min row.enqueuedAt time) (time ≤ row.enqueuedAt)

/-- Without a lookup the time of the enqueue is all there is. -/
def judgeWithout (maxAge : Route → ℤ) (row : DeliveryRow ι) (now : Instant) : Freshness :=
  judgeAge (maxAge row.route) row.route now row.enqueuedAt false

/-- A call of `event_time_lookup`. -/
def lookup (row : DeliveryRow ι) (reading : Instant) (s : Outbox ι) : Outbox ι :=
  { s with
    consulted := s.consulted + 1
    judgements := s.judgements ++ [⟨row.deliveryId, row.eventId, reading, s.env.evidence s.consulted row.eventId⟩] }

end Outbox

end TalonX.Delivery
