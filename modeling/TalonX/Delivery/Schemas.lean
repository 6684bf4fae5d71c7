import Mathlib.Algebra.Group.Int.Defs
import TalonX.V2.Calendar

/-!
# Rows of the delivery outbox

- `Message`: a rendered card, as `enqueue` receives it; `DeliveryRow`: a row of `intelligence_delivery`;
- `Identity`: the columns of a row that no statement changes;
- `SenderResult`, `SendOutcome`: what the drain learns from a transport call;
- `Evidence`, `Freshness`: what a publication-time lookup gives, and what the gate makes of it.
-/

set_option autoImplicit false

namespace TalonX.Delivery

open V2

abbrev DeliveryId := String

abbrev EventId := String

inductive DeliveryState
  | pending
  | inFlight
  | sent
  | failed
  | suppressed
  | expired
  | ambiguous
  deriving DecidableEq, Repr

inductive Band
  | critical
  | high
  | medium
  | low
  deriving DecidableEq, Repr

/-- `_DIGEST_BAND_RANK`, and the order of `pending`. -/
def bandRank : Option Band → ℕ
  | some .critical => 0
  | some .high => 1
  | some .medium => 2
  | some .low => 3
  | none => 4

inductive Route
  | immediate
  | digest
  deriving DecidableEq, Repr

inductive Disposition
  | new
  | update
  deriving DecidableEq, Repr

/-- `TelegramIntelligenceMessage`. -/
structure Message where
  eventId : EventId
  symbol : String
  band : Option Band
  route : Route
  text : String
  contentHash : String
  evidenceUrls : List String
  deriving DecidableEq, Repr

/-- The columns that say what is, or was, to be sent. -/
structure Content where
  text : String
  contentHash : String
  band : Option Band
  route : Route
  deriving DecidableEq, Repr

def Message.content (m : Message) : Content := ⟨m.text, m.contentHash, m.band, m.route⟩

variable {ι : Type}

/-- A `uuid4`: no two are equal, whichever process draws them. -/
structure AttemptId (ι : Type) where
  owner : ι
  serial : ℕ
  deriving DecidableEq, Repr

/-- `transport_message_id`: the id of a single card, or `digest:<digest_id>` with the id of the digest message. -/
inductive TransportId (ι : Type)
  | message (mid : ℕ)
  | digest (digestId : AttemptId ι) (mid : Option ℕ)
  deriving DecidableEq, Repr

/-- The column is `<mid>`, or ends in `:<mid>`. -/
def TransportId.refersTo (mid : ℕ) : TransportId ι → Bool
  | .message m => m = mid
  | .digest _ m => m = some mid

structure Identity where
  deliveryId : DeliveryId
  eventId : EventId
  symbol : String
  enqueuedAt : Instant
  deriving DecidableEq, Repr

/-- `suppress_reason`. -/
inductive SuppressReason
  | staleCard (ageSeconds : ℤ) (byEventTime : Bool) (cutoff : ℤ) (route : Route)
  | naive
  | future (time : Instant)
  | noEvidence
  deriving DecidableEq, Repr

/-- `calls` is history: the transport calls made for the row since it was opened, without those that were cleanly rejected. -/
structure DeliveryRow (ι : Type) extends Identity where
  band : Option Band
  route : Route
  state : DeliveryState
  disposition : Disposition
  text : String
  contentHash : String
  prevContentHash : Option String
  evidenceUrls : List String
  attempts : ℕ
  lastError : Option String
  sentAt : Option Instant
  nextRetryAt : Option Instant
  suppressReason : Option SuppressReason
  attemptId : Option (AttemptId ι)
  inFlightSince : Option Instant
  transportMessageId : Option (TransportId ι)
  digestItemOrdinal : Option ℕ
  deferCount : ℕ
  calls : List (AttemptId ι)
  deriving DecidableEq, Repr

def DeliveryRow.content (r : DeliveryRow ι) : Content := ⟨r.text, r.contentHash, r.band, r.route⟩

/-- Claimed once, and neither released nor given up since. -/
def DeliveryState.taken : DeliveryState → Bool
  | .inFlight | .sent | .ambiguous => true
  | _ => false

structure SenderResult where
  ok : Bool
  error : Option String
  retryAfterSeconds : Option ℤ
  permanent : Bool
  ambiguous : Bool
  messageId : Option ℕ
  deriving DecidableEq, Repr

/-- How `await sender.send(row)` ends. -/
inductive SendOutcome
  | cancelled
  | error (exc : String)
  | result (res : SenderResult)
  deriving DecidableEq, Repr

/-- The transport did not take the message. -/
def SendOutcome.rejected : SendOutcome → Bool
  | .result res => !res.ok && !res.ambiguous
  | _ => false

/-- The id that the transport gave the message. -/
def SendOutcome.acknowledged : SendOutcome → Option ℕ
  | .result res => if res.ok then res.messageId else none
  | _ => none

/-- What `event_time_lookup` gives: it raises, finds nothing, or finds a time with or without a zone. -/
inductive Evidence
  | failed
  | missing
  | found (time : Instant) (aware : Bool)
  deriving DecidableEq, Repr

inductive Freshness
  | ok
  | expired (reason : SuppressReason)
  | unqualified (reason : SuppressReason)
  | defer
  deriving DecidableEq, Repr

inductive Mode
  | enabled
  | disabled
  | simulate
  deriving DecidableEq, Repr

/-- The arguments of a drain. `freshClock`: the gate has a clock of its own and does not use the `now` of the drain. -/
structure DrainConfig where
  mode : Mode
  configured : Bool
  route : Option Route
  limit : Option ℕ
  enforceAgeCutoff : Bool
  maxAgeSeconds : Route → ℤ
  eventTimeLookup : Bool
  staleInFlightSeconds : ℤ
  expireScanLimit : Option ℕ
  freshClock : Bool

/-- `CARD_MAX_AGE_SECONDS`. -/
def cardMaxAgeSeconds : Route → ℤ
  | .immediate => 6 * 3600
  | .digest => 24 * 3600

def maxDigestRows : ℕ := 30

def maxSendAttempts : ℕ := 5

/-- `_backoff`. -/
def backoff (attempts : ℕ) : ℤ := min 300 (2 * 2 ^ attempts)

/-- `_defer_backoff_seconds`. -/
def deferBackoffSeconds (deferCount : ℕ) : ℤ := min 3600 (30 * 2 ^ (deferCount - 1))

end TalonX.Delivery
