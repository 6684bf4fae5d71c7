import TalonX.Insider.Domain

/-!
# Storing a transaction

`InsiderStore.upsert_transaction`: a new row, or the merge of the stored row with the incoming one.

- `Cell`, `BackfillField`: the fields that a merge fills from the other row;
- `merge`: `_merge`;
- `upsertTransaction`: the store; `get_upsertAll` for the row of one transaction after several calls.
-/

set_option autoImplicit false

namespace TalonX.Insider

open Clock
open TalonX.Core (PyFloat)

/-! ## Fields -/

/-- A value of a field. -/
inductive Cell
  | absent
  | stamp (t : Utc)
  | day (d : Date)
  | text (s : String)
  | number (x : PyFloat)

namespace Cell

def ofStamp (t : Option Utc) : Cell := t.elim absent stamp

def ofDay (d : Option Date) : Cell := d.elim absent day

def ofText (s : Option String) : Cell := s.elim absent text

def ofNumber (x : Option PyFloat) : Cell := x.elim absent number

/-- `value in (None, "", 0.0)`. -/
def unfilled : Cell → Bool
  | absent => true
  | text s => s == ""
  | number x => x == 0
  | _ => false

/-- `value not in (None, "")`. -/
def given : Cell → Bool
  | absent => false
  | text s => s != ""
  | _ => true

end Cell

/-- `_BACKFILL_FIELDS`. -/
inductive BackfillField
  | acceptedAtUtc | eventId | filingDate | periodOfReport | companyName | ownerCik | ownerName | officerTitle
  | securityTitle | transactionShares | pricePerShare | transactionValue | sharesOwnedAfter | natureOfOwnershipText
  | sourceRowSk | signedOpenMarketShares | signedOpenMarketValue
  deriving DecidableEq

namespace InsiderTransaction

/-- `getattr(t, fld)`. -/
def cell (t : InsiderTransaction) : BackfillField → Cell
  | .acceptedAtUtc => .ofStamp t.acceptedAtUtc
  | .eventId => .ofText t.eventId
  | .filingDate => .ofDay t.filingDate
  | .periodOfReport => .ofDay t.periodOfReport
  | .companyName => .text t.companyName
  | .ownerCik => .ofText t.ownerCik
  | .ownerName => .text t.ownerName
  | .officerTitle => .ofText t.officerTitle
  | .securityTitle => .ofText t.securityTitle
  | .transactionShares => .ofNumber t.transactionShares
  | .pricePerShare => .ofNumber t.pricePerShare
  | .transactionValue => .ofNumber t.transactionValue
  | .sharesOwnedAfter => .ofNumber t.sharesOwnedAfter
  | .natureOfOwnershipText => .ofText t.natureOfOwnershipText
  | .sourceRowSk => .ofText t.sourceRowSk
  | .signedOpenMarketShares => .ofNumber t.signedOpenMarketShares
  | .signedOpenMarketValue => .ofNumber t.signedOpenMarketValue

end InsiderTransaction

/-! ## Merging -/

/-- One turn of the loop over the fields. -/
def fill {α : Type} (cell : α → Cell) (base other : α) : α :=
  if (cell base).unfilled && (cell other).given then other else base

/-- `base.model_copy(update=updates)`. -/
def backfilled (base other : InsiderTransaction) : InsiderTransaction :=
  { base with
    acceptedAtUtc := fill .ofStamp base.acceptedAtUtc other.acceptedAtUtc
    eventId := fill .ofText base.eventId other.eventId
    filingDate := fill .ofDay base.filingDate other.filingDate
    periodOfReport := fill .ofDay base.periodOfReport other.periodOfReport
    companyName := fill .text base.companyName other.companyName
    ownerCik := fill .ofText base.ownerCik other.ownerCik
    ownerName := fill .text base.ownerName other.ownerName
    officerTitle := fill .ofText base.officerTitle other.officerTitle
    securityTitle := fill .ofText base.securityTitle other.securityTitle
    transactionShares := fill .ofNumber base.transactionShares other.transactionShares
    pricePerShare := fill .ofNumber base.pricePerShare other.pricePerShare
    transactionValue := fill .ofNumber base.transactionValue other.transactionValue
    sharesOwnedAfter := fill .ofNumber base.sharesOwnedAfter other.sharesOwnedAfter
    natureOfOwnershipText := fill .ofText base.natureOfOwnershipText other.natureOfOwnershipText
    sourceRowSk := fill .ofText base.sourceRowSk other.sourceRowSk
    signedOpenMarketShares := fill .ofNumber base.signedOpenMarketShares other.signedOpenMarketShares
    signedOpenMarketValue := fill .ofNumber base.signedOpenMarketValue other.signedOpenMarketValue }

/-- `_COMPLETENESS_FLAGS`. -/
def completenessFlags : List String :=
  ["missing_acceptance_timestamp", "filing_date_used_as_acceptance", "owner_cik_missing", "missing_price",
    "missing_shares", "role_unresolved", "missing_transaction_date", "symbol_unresolved"]

namespace InsiderTransaction

/-- `len(set(t.data_quality_flags) & _COMPLETENESS_FLAGS)`. -/
def incomplete (t : InsiderTransaction) : ℕ := completenessFlags.countP t.dataQualityFlags.contains

/-- The flags that a merge discards. -/
def discards (t : InsiderTransaction) (flag : String) : Bool :=
  if flag = "missing_acceptance_timestamp" ∨ flag = "filing_date_used_as_acceptance" then t.acceptedAtUtc.isSome
  else if flag = "owner_cik_missing" then t.ownerCik.any (· != "")
  else if flag = "missing_price" then t.pricePerShare.any (· != 0)
  else if flag = "missing_shares" then t.transactionShares.isSome
  else false

/-- `source_reference.startswith("SEC_EDGAR_ARCHIVES")`. -/
def fromArchives (t : InsiderTransaction) : Bool :=
  "SEC_EDGAR_ARCHIVES".toList.isPrefixOf t.sourceReference.toList

end InsiderTransaction

/-- Whether the incoming row is the base of the merge. -/
def incomingIsBase (prior incoming : InsiderTransaction) : Bool :=
  if incoming.incomplete < prior.incomplete then true
  else if prior.incomplete < incoming.incomplete then false
  else incoming.fromArchives

/-- `_merge`, when the base is known. -/
def mergeFrom (base other prior incoming : InsiderTransaction) : InsiderTransaction :=
  let merged := backfilled base other
  let flags := merged.dataQualityFlags.filter fun f => !merged.discards f
  { merged with
    dataQualityFlags := (prior.dataQualityFlags ++ incoming.dataQualityFlags).filter fun f => flags.contains f }

/-- `_merge`. -/
def merge (prior incoming : InsiderTransaction) : InsiderTransaction :=
  if incomingIsBase prior incoming then mergeFrom incoming prior prior incoming
  else mergeFrom prior incoming prior incoming

/-! ## The store -/

/-- A `REAL` column: `nan` is stored as `NULL`. -/
def realColumn (x : Option PyFloat) : Option PyFloat := x.filter (· != .nan)

/-- The row that is written, and read back. -/
def InsiderTransaction.asRow (t : InsiderTransaction) : InsiderTransaction :=
  { t with
    symbol := t.symbol.toUpper
    transactionShares := realColumn t.transactionShares
    pricePerShare := realColumn t.pricePerShare
    transactionValue := realColumn t.transactionValue
    sharesOwnedAfter := realColumn t.sharesOwnedAfter
    signedOpenMarketShares := realColumn t.signedOpenMarketShares
    signedOpenMarketValue := realColumn t.signedOpenMarketValue }

namespace InsiderStore

/-- `INSERT OR REPLACE`. -/
def writeTransaction (S : InsiderStore) (t : InsiderTransaction) : InsiderStore :=
  { S with transactions := (S.transactions.delete (·.transactionId = t.transactionId)).insertOrIgnore t.asRow }

/-- `upsert_transaction`; whether the row is new. -/
def upsertTransaction (S : InsiderStore) (t : InsiderTransaction) : InsiderStore × Bool :=
  match S.transactions.get t.transactionId with
  | none => (S.writeTransaction t, true)
  | some prior => (S.writeTransaction (merge prior t), false)

def upsertAll (S : InsiderStore) (ts : List InsiderTransaction) : InsiderStore :=
  ts.foldl (fun S t => (S.upsertTransaction t).1) S

end InsiderStore

/-- The stored row after one more observation. -/
def observe (row : Option InsiderTransaction) (t : InsiderTransaction) : InsiderTransaction :=
  (row.elim t (merge · t)).asRow

theorem merge_transactionId {prior incoming : InsiderTransaction} (h : prior.transactionId = incoming.transactionId) :
    (merge prior incoming).transactionId = incoming.transactionId := by
  unfold merge
  split
  · rfl
  · exact h

namespace InsiderStore

theorem get_writeTransaction (S : InsiderStore) (t : InsiderTransaction) :
    (S.writeTransaction t).transactions.get t.transactionId = some t.asRow := by
  refine Transact.Table.get_eq_some.2 ⟨?_, rfl⟩
  have hnone : (S.transactions.delete (·.transactionId = t.transactionId)).get t.asRow.transactionId = none := by
    refine Transact.Table.get_eq_none.2 fun r hr => ?_
    rw [Transact.Table.rows_delete, List.mem_filter] at hr
    have hne : ¬ r.transactionId = t.transactionId := by simpa using hr.2
    exact hne
  have hrows := Transact.Table.rows_insertOrIgnore (S.transactions.delete (·.transactionId = t.transactionId)) t.asRow
  rw [if_pos hnone] at hrows
  unfold writeTransaction
  rw [hrows]
  exact List.mem_append_right _ List.mem_cons_self

theorem get_upsertTransaction (S : InsiderStore) (t : InsiderTransaction) :
    (S.upsertTransaction t).1.transactions.get t.transactionId =
      some (observe (S.transactions.get t.transactionId) t) := by
  unfold upsertTransaction observe
  cases h : S.transactions.get t.transactionId with
  | none => exact get_writeTransaction S t
  | some prior =>
    have hid : (merge prior t).transactionId = t.transactionId :=
      merge_transactionId (Transact.Table.key_of_get h)
    have hget := get_writeTransaction S (merge prior t)
    rw [hid] at hget
    exact hget

/-- The row of one transaction after several calls. -/
theorem get_upsertAll (S : InsiderStore) {ts : List InsiderTransaction} {id : String}
    (h : ∀ t ∈ ts, t.transactionId = id) :
    (S.upsertAll ts).transactions.get id =
      ts.foldl (fun row t => some (observe row t)) (S.transactions.get id) := by
  induction ts generalizing S with
  | nil => rfl
  | cons t ts ih =>
    have hid : t.transactionId = id := h t List.mem_cons_self
    rw [List.foldl_cons, ← hid, ← get_upsertTransaction, hid]
    exact ih _ fun u hu => h u (List.mem_cons_of_mem _ hu)

end InsiderStore

end TalonX.Insider
