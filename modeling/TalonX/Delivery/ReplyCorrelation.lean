import TalonX.Delivery.AtMostOnce

/-!
# Replies to a digest

- `DigestLine`: what a digest says of one row; `SentDigest.lines`: the lines of a digest;
- `carriers`: the rows that a message id leads to; `orderRows`: the order in which a reply numbers them;
- `detailsResponse`: the answer to "details", with or without a number.
-/

set_option autoImplicit false

namespace TalonX.Delivery

open Transact V2 Outbox

variable {ι : Type}

/-- `_digest_row_summary`, behind the symbol. -/
structure DigestLine where
  symbol : String
  eventId : EventId
  enqueuedAt : Instant
  link : Option String
  deriving DecidableEq, Repr

def digestLine (r : DeliveryRow ι) : DigestLine := ⟨r.symbol, r.eventId, r.enqueuedAt, r.evidenceUrls.head?⟩

/-- The lines that `_digest_text_from_rows` renders. -/
def SentDigest.lines (d : SentDigest ι) : List DigestLine := (d.rows.take maxDigestRows).map digestLine

/-- Line `n` of the digest, counted from `1`. -/
def SentDigest.line (d : SentDigest ι) : ℕ → Option DigestLine
  | 0 => none
  | n + 1 => d.lines[n]?

/-- The row names the message. -/
def DeliveryRow.carries (mid : ℕ) (r : DeliveryRow ι) : Bool := r.transportMessageId.any (·.refersTo mid)

/-- `find_delivery_rows_for_message`. -/
def carriers (s : Outbox ι) (mid : ℕ) : List (DeliveryRow ι) :=
  (s.rows.rows.filter (·.carries mid)).insertionSort fun a b => a.enqueuedAt ≤ b.enqueuedAt

/-- `_order_rows`: by the stored ordinals where all rows have one. -/
def orderRows (rows : List (DeliveryRow ι)) : List (DeliveryRow ι) :=
  if rows.length ≤ 1 then rows
  else if rows.all (·.digestItemOrdinal.isSome) then
    rows.insertionSort fun a b => a.digestItemOrdinal.getD 0 ≤ b.digestItemOrdinal.getD 0
  else digestDisplayOrder rows

/-- What the operator reads. -/
inductive DetailsResponse (ι : Type)
  | unrecognized
  | outOfRange (count : ℕ)
  | item (row : DeliveryRow ι)
  | index (rows : List (DeliveryRow ι))

/-- `build_details_response`; the number `0` counts as none. -/
def buildDetailsResponse (contexts : List (DeliveryRow ι)) (requestedIndex : Option ℕ) : DetailsResponse ι :=
  if contexts = [] then .unrecognized
  else if contexts.length = 1 ∨ requestedIndex.isSome then
    match contexts[requestedIndex.getD 0 - 1]? with
    | some row => .item row
    | none => .outOfRange contexts.length
  else .index contexts

/-- The answer to "details" on the message `mid`. -/
def detailsResponse (s : Outbox ι) (mid : ℕ) (requestedIndex : Option ℕ) : DetailsResponse ι :=
  buildDetailsResponse (orderRows (carriers s mid)) requestedIndex

end TalonX.Delivery
