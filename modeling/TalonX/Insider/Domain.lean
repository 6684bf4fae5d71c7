import TalonX.Clock.Date
import TalonX.Core.PyFloat
import TalonX.Transact.Sorting
import TalonX.Transact.Table

/-!
# Insider filings and transactions

The records of `domain.py` and the tables of `InsiderStore`. The tables hold times and dates as ISO texts, and the
queries compare and order these texts.

- `InsiderTransaction`, `InsiderFiling`: the rows, which are written from the records and read back as them;
- `queryTransactions`: the transactions of a symbol up to a cutoff, oldest first;
- `latestFilings`: the newest filings of a symbol.
-/

set_option autoImplicit false

namespace TalonX.Insider

open Clock
open TalonX.Core (PyFloat)

/-! ## Records -/

inductive OwnershipFormType
  | form3 | form4 | form5 | form3A | form4A | form5A | unknown
  deriving DecidableEq

inductive TransactionClass
  | openMarketPurchase | openMarketSale | grantOrAward | exerciseOrConversion | gift | taxWithholding
  | saleOrDispositionToIssuer | inheritance | smallAcquisition | planDiscretionary | equitySwap | tenderOfShares
  | otherAcqDisp | initialHolding | unclassified
  deriving DecidableEq

inductive AcquiredDisposed
  | acquired | disposed | unknown
  deriving DecidableEq

inductive OwnershipNature
  | direct | indirect | unknown
  deriving DecidableEq

inductive InsiderRole
  | ceo | cfo | coo | president | chair | generalCounsel | chiefAccountingOfficer | officer | director
  | tenPercentOwner | other
  deriving DecidableEq

structure InsiderTransaction where
  transactionId : String
  schemaVersion : String := "insider_transaction@v1"
  eventId : Option String := none
  accession : String
  issuerCik : String
  symbol : String
  companyName : String := ""
  acceptedAtUtc : Option Utc := none
  filingDate : Option Date := none
  transactionDate : Option Date := none
  periodOfReport : Option Date := none
  ownerCik : Option String := none
  ownerName : String := ""
  ownerRole : InsiderRole := .other
  ownerRoles : List InsiderRole := []
  isDirector : Bool := false
  isOfficer : Bool := false
  isTenPercentOwner : Bool := false
  isOther : Bool := false
  officerTitle : Option String := none
  formType : OwnershipFormType := .form4
  isAmendment : Bool := false
  amendsAccession : Option String := none
  table : String := "NONDERIVATIVE"
  isDerivative : Bool := false
  transactionCode : Option String := none
  classification : TransactionClass := .unclassified
  securityTitle : Option String := none
  transactionShares : Option PyFloat := none
  pricePerShare : Option PyFloat := none
  transactionValue : Option PyFloat := none
  acquiredDisposed : AcquiredDisposed := .unknown
  ownershipNature : OwnershipNature := .unknown
  natureOfOwnershipText : Option String := none
  sharesOwnedAfter : Option PyFloat := none
  signedOpenMarketShares : Option PyFloat := none
  signedOpenMarketValue : Option PyFloat := none
  sourceRowSk : Option String := none
  sourceReference : String := ""
  dataQualityFlags : List String := []

def InsiderTransaction.isOpenMarketDiscretionary (t : InsiderTransaction) : Bool :=
  t.classification == .openMarketPurchase || t.classification == .openMarketSale

structure InsiderFiling where
  insiderFilingId : String
  accession : String
  eventId : Option String := none
  symbol : String
  issuerCik : String
  companyName : String := ""
  formType : OwnershipFormType := .form4
  isAmendment : Bool := false
  amendsAccession : Option String := none
  acceptedAtUtc : Option Utc := none
  filingDate : Option Date := none
  periodOfReport : Option Date := none
  nTransactions : ℕ := 0
  nOwners : ℕ := 0
  ownerCiks : List String := []
  ownerNames : List String := []
  sourceReference : String := ""
  ingestedAtUtc : Utc
  dataQualityFlags : List String := []

/-! ## The store -/

/-- The tables `insider_filings` and `insider_transactions`. -/
structure InsiderStore where
  filings : Transact.Table InsiderFiling.insiderFilingId
  transactions : Transact.Table InsiderTransaction.transactionId

/-- A text column as SQLite orders it: `NULL` is below every text. -/
abbrev Column := WithBot String

def column (text : Option String) : Column := text

/-- `ORDER BY transaction_date ASC, transaction_id ASC`. -/
def OldestFirst : InsiderTransaction → InsiderTransaction → Prop :=
  Transact.lexBy (fun t => column (t.transactionDate.map Date.isoformat)) fun t u => t.transactionId ≤ u.transactionId

instance : DecidableRel OldestFirst := fun t u => by unfold OldestFirst; infer_instance

/-- The text that orders the filings: `COALESCE(accepted_at_utc, filing_date)`. -/
def InsiderFiling.stamp (f : InsiderFiling) : Column :=
  column ((f.acceptedAtUtc.map Utc.isoformat).orElse fun _ => f.filingDate.map Date.isoformat)

/-- `ORDER BY COALESCE(accepted_at_utc, filing_date) DESC, insider_filing_id DESC`. -/
def NewestFirst (f g : InsiderFiling) : Prop :=
  Transact.lexBy InsiderFiling.stamp (fun x y => x.insiderFilingId ≤ y.insiderFilingId) g f

instance : DecidableRel NewestFirst := fun f g => by unfold NewestFirst; infer_instance

theorem oldestFirst_total (t u : InsiderTransaction) : OldestFirst t u ∨ OldestFirst u t :=
  Transact.lexBy_total _ (fun t u => le_total t.transactionId u.transactionId) t u

theorem oldestFirst_trans (t u v : InsiderTransaction) (h : OldestFirst t u) (h' : OldestFirst u v) :
    OldestFirst t v := by
  unfold OldestFirst at h h' ⊢
  refine Transact.lexBy_trans _ (fun t u v htu huv => ?_) h h'
  exact le_trans htu huv

/-- The identifiers tell transactions of one date apart. -/
theorem oldestFirst_antisymm {t u : InsiderTransaction} (h : OldestFirst t u) (h' : OldestFirst u t) :
    t.transactionId = u.transactionId :=
  have both := Transact.lexBy_both h h'
  le_antisymm both.1 both.2

theorem newestFirst_total (f g : InsiderFiling) : NewestFirst f g ∨ NewestFirst g f :=
  Transact.lexBy_total _ (fun f g => le_total f.insiderFilingId g.insiderFilingId) g f

theorem newestFirst_trans (f g k : InsiderFiling) (h : NewestFirst f g) (h' : NewestFirst g k) : NewestFirst f k := by
  unfold NewestFirst at h h' ⊢
  refine Transact.lexBy_trans _ (fun f g k hfg hgk => ?_) h' h
  exact le_trans hfg hgk

theorem newestFirst_antisymm {f g : InsiderFiling} (h : NewestFirst f g) (h' : NewestFirst g f) :
    f.insiderFilingId = g.insiderFilingId :=
  have both := Transact.lexBy_both h' h
  le_antisymm both.1 both.2

/-- `accepted_at_utc IS NULL OR accepted_at_utc <= ?`. -/
def InsiderTransaction.acceptedBy (cutoff : Option Utc) (t : InsiderTransaction) : Bool :=
  match cutoff, t.acceptedAtUtc with
  | some c, some a => a.isoformat ≤ c.isoformat
  | _, _ => true

namespace InsiderStore

variable (S : InsiderStore) (symbol : String)

/-- `query_transactions(symbol=…, causal_cutoff=…, newest_first=False, limit=None)`. The symbol is in upper case. -/
def queryTransactions (cutoff : Option Utc) : List InsiderTransaction :=
  (S.transactions.rows.filter fun t => t.symbol == symbol && t.acceptedBy cutoff).insertionSort OldestFirst

/-- `latest_filings(symbol, limit=…)`. The symbol is in upper case. -/
def latestFilings (limit : ℕ) : List InsiderFiling :=
  ((S.filings.rows.filter (·.symbol == symbol)).insertionSort NewestFirst).take limit

end InsiderStore

end TalonX.Insider
