import TalonX.Insider.Domain

/-!
# Insider activity

The descriptive aggregates of `aggregate.py` over open-market transactions, and `build_insider_activity` of `pipeline.py`,
which reads the store and puts them together.

- `rollingOpenMarket`, `detectClusters`, `roleSubsetAggregates`: one pass each over the rows of a window;
- `buildActivity`: all of them, for all windows;
- `buildInsiderActivity`: the queries, the recent rows, the flags and the evidence.
-/

set_option autoImplicit false

namespace TalonX.Insider

open Clock
open TalonX.Core (PyFloat)

/-- Float addition and rounding, case folding of a symbol, and `source_hash`. -/
structure Lib where
  sum : List PyFloat → PyFloat
  round : PyFloat → ℕ → PyFloat
  upper : String → String
  sourceHash : List String → String

/-! ## Constants -/

def rollingWindowsCalendarDays : List ℕ := [10, 30, 90]

def clusterWindowCalendarDays : ℕ := 30

def clusterMinDistinctOwners : ℕ := 2

def recentTransactionsWindowDays : ℕ := 90

def latestFilingsLimit : ℕ := 20

inductive RoleSubset
  | ceo | cfo | ceoCfo | directors | allOfficers
  deriving DecidableEq

def roleSubsets : List RoleSubset := [.ceo, .cfo, .ceoCfo, .directors, .allOfficers]

/-! ## Aggregates -/

structure RollingOpenMarketAggregate where
  windowCalendarDays : ℕ
  asOfDate : Date
  totalPurchaseValue : PyFloat
  totalSaleValue : PyFloat
  netValue : PyFloat
  netShares : PyFloat
  distinctPurchasers : ℕ
  distinctSellers : ℕ
  transactionCount : ℕ
  largestSingleTransactionValue : Option PyFloat
  largestSingleTransactionId : Option String
  purchaserCiks : List String
  sellerCiks : List String
  valueCoverageNote : Option String

inductive ClusterKind
  | multipleOpenMarketBuyers
  | multipleOpenMarketSellers
  deriving DecidableEq

structure InsiderCluster where
  kind : ClusterKind
  windowCalendarDays : ℕ
  asOfDate : Date
  distinctOwners : ℕ
  ownerCiks : List String
  transactionCount : ℕ
  totalValue : Option PyFloat

structure RoleSubsetAggregate where
  subset : RoleSubset
  windowCalendarDays : ℕ
  asOfDate : Date
  purchaseCount : ℕ
  saleCount : ℕ
  netValue : PyFloat
  netShares : PyFloat
  distinctOwners : ℕ
  ownerCiks : List String

/-- `_in_window`. Where `as_of - days` is no date, `build_insider_activity` has raised before. -/
def inWindow (asOf : Date) (days : ℕ) (t : InsiderTransaction) : Bool :=
  match t.transactionDate, asOf.minusDays days with
  | some d, some start => start ≤ d && d ≤ asOf
  | _, _ => false

/-- The open-market rows of a window. -/
def windowRows (asOf : Date) (days : ℕ) (txns : List InsiderTransaction) : List InsiderTransaction :=
  txns.filter fun t => t.isOpenMarketDiscretionary && inWindow asOf days t

def ofClass (c : TransactionClass) (txns : List InsiderTransaction) : List InsiderTransaction :=
  txns.filter (·.classification == c)

/-- `sorted({t.owner_cik for t in … if t.owner_cik})`. -/
def ownersOf (txns : List InsiderTransaction) : List String :=
  ((txns.filterMap (·.ownerCik)).filter (· != "")).dedup.insertionSort (· ≤ ·)

/-- `max(valued, key=lambda t: abs(t.transaction_value), default=None)`: the first of the largest. -/
def largestOf : List (InsiderTransaction × PyFloat) → Option (InsiderTransaction × PyFloat)
  | [] => none
  | t :: ts => some (ts.foldl (fun best u => if best.2.abs.lt u.2.abs then u else best) t)

def valuedOf (txns : List InsiderTransaction) : List (InsiderTransaction × PyFloat) :=
  txns.filterMap fun t => t.transactionValue.map (t, ·)

variable (lib : Lib)

def valueSum (txns : List InsiderTransaction) : PyFloat := lib.sum (txns.filterMap (·.transactionValue))

def netSharesOf (txns : List InsiderTransaction) : PyFloat := lib.sum (txns.filterMap (·.signedOpenMarketShares))

def rollingOpenMarket (txns : List InsiderTransaction) (asOf : Date) (days : ℕ) : RollingOpenMarketAggregate :=
  let rows := windowRows asOf days txns
  let purchases := ofClass .openMarketPurchase rows
  let sales := ofClass .openMarketSale rows
  let largest := largestOf (valuedOf rows)
  let priced := (valuedOf rows).length
  { windowCalendarDays := days
    asOfDate := asOf
    totalPurchaseValue := lib.round (valueSum lib purchases) 2
    totalSaleValue := lib.round (valueSum lib sales) 2
    netValue := lib.round ((valueSum lib purchases).sub (valueSum lib sales)) 2
    netShares := lib.round (netSharesOf lib rows) 4
    distinctPurchasers := (ownersOf purchases).length
    distinctSellers := (ownersOf sales).length
    transactionCount := rows.length
    largestSingleTransactionValue := largest.map fun t => lib.round t.2 2
    largestSingleTransactionId := largest.map (·.1.transactionId)
    purchaserCiks := ownersOf purchases
    sellerCiks := ownersOf sales
    valueCoverageNote :=
      if priced = rows.length then none
      else some (toString priced ++ " of " ++ toString rows.length ++ " open-market transactions had a usable price") }

def detectClusters (txns : List InsiderTransaction) (asOf : Date) (days : ℕ) : List InsiderCluster :=
  [(TransactionClass.openMarketPurchase, ClusterKind.multipleOpenMarketBuyers),
    (TransactionClass.openMarketSale, ClusterKind.multipleOpenMarketSellers)].filterMap fun side =>
    let rows := ofClass side.1 (windowRows asOf days txns)
    let owners := ownersOf rows
    if clusterMinDistinctOwners ≤ owners.length then
      some
        { kind := side.2
          windowCalendarDays := days
          asOfDate := asOf
          distinctOwners := owners.length
          ownerCiks := owners
          transactionCount := rows.length
          totalValue := if valuedOf rows = [] then none else some (lib.round (valueSum lib rows) 2) }
    else none

/-- `_role_predicate`. -/
def rolePredicate : RoleSubset → InsiderTransaction → Bool
  | .ceo, t => t.ownerRoles.contains .ceo
  | .cfo, t => t.ownerRoles.contains .cfo
  | .ceoCfo, t => t.ownerRoles.contains .ceo || t.ownerRoles.contains .cfo
  | .directors, t => t.ownerRoles.contains .director
  | .allOfficers, t => t.isOfficer

def roleSubsetAggregates (txns : List InsiderTransaction) (asOf : Date) (days : ℕ) : List RoleSubsetAggregate :=
  roleSubsets.map fun subset =>
    let sub := (windowRows asOf days txns).filter (rolePredicate subset)
    let purchases := ofClass .openMarketPurchase sub
    let sales := ofClass .openMarketSale sub
    { subset := subset
      windowCalendarDays := days
      asOfDate := asOf
      purchaseCount := purchases.length
      saleCount := sales.length
      netValue := lib.round ((valueSum lib purchases).sub (valueSum lib sales)) 2
      netShares := lib.round (netSharesOf lib sub) 4
      distinctOwners := (ownersOf sub).length
      ownerCiks := ownersOf sub }

/-! ## The activity -/

structure EvidenceRecord where
  sourceProvider : String := "SEC_FORM345_BULK"
  sourceRecordId : String
  retrievedAt : Utc
  transform : String := "insider_rolling_aggregate@v1"
  inputHash : String
  notes : String

structure InsiderActivity where
  symbol : String
  issuerCik : String
  companyName : String
  asOfDate : Date
  latestFilings : List InsiderFiling
  transactions : List InsiderTransaction
  openMarketAggregates : List RollingOpenMarketAggregate
  clusters : List InsiderCluster
  roleSubsets : List RoleSubsetAggregate
  dataQualityFlags : List String
  evidence : List EvidenceRecord

/-- `aggregate.build_insider_activity`. -/
def buildActivity (symbol issuerCik companyName : String) (filings : List InsiderFiling)
    (txns : List InsiderTransaction) (asOf : Date) (recent : List InsiderTransaction) (evidence : List EvidenceRecord)
    (flags : List String) : InsiderActivity where
  symbol := lib.upper symbol
  issuerCik := issuerCik
  companyName := companyName
  asOfDate := asOf
  latestFilings := filings
  transactions := recent
  openMarketAggregates := rollingWindowsCalendarDays.map (rollingOpenMarket lib txns asOf)
  clusters := detectClusters lib txns asOf clusterWindowCalendarDays
  roleSubsets := rollingWindowsCalendarDays.flatMap (roleSubsetAggregates lib txns asOf)
  dataQualityFlags := flags
  evidence := evidence

/-- `[t for t in all_txns if t.transaction_date and t.transaction_date >= as_of_date - …]`: the difference, which may
raise, is computed for the rows that have a date. -/
def recentTransactions (asOf : Date) (txns : List InsiderTransaction) : Option (List InsiderTransaction) :=
  if txns.any (·.transactionDate.isSome) then
    (asOf.minusDays recentTransactionsWindowDays).map fun start =>
      txns.filter fun t => t.transactionDate.any (start ≤ ·)
  else some []

/-- `tuple(sorted(set(flags)))`. -/
def flagSummary (txns : List InsiderTransaction) : List String :=
  (txns.flatMap (·.dataQualityFlags)).dedup.insertionSort (· ≤ ·)

def activityNote (filings : List InsiderFiling) (txns recent : List InsiderTransaction) : String :=
  let om := recent.filter (·.isOpenMarketDiscretionary)
  toString filings.length ++ " recent filing(s), " ++ toString txns.length ++ " transaction(s); " ++
    "open-market rows in last " ++ toString recentTransactionsWindowDays ++ "d: " ++ toString om.length ++ " (" ++
    toString (valuedOf om).length ++ " priced)"

/-- The latest date that is a transaction's or a filing's. -/
def latestDate (filings : List InsiderFiling) (txns : List InsiderTransaction) : Option Date :=
  (txns.filterMap (·.transactionDate) ++ filings.filterMap (·.filingDate)).foldr
    (fun d best => some (best.elim d (max d))) none

/-- `issuer_cik` and `company`. -/
def issuerOf : List InsiderFiling → List InsiderTransaction → String × String
  | f :: _, _ => (f.issuerCik, f.companyName)
  | [], t :: _ => (t.issuerCik, t.companyName)
  | [], [] => ("", "")

/-- What `build_insider_activity` makes of the rows that it has read; `none` is an `OverflowError`. -/
def activityFrom (symbol : String) (now : Utc) (asOf : Date) (filings : List InsiderFiling)
    (allTxns : List InsiderTransaction) : Option InsiderActivity :=
  let issuer := issuerOf filings allTxns
  (recentTransactions asOf allTxns).map fun recent =>
    let note := activityNote filings allTxns recent
    let evidence : EvidenceRecord :=
      { sourceRecordId := lib.upper symbol
        retrievedAt := now
        inputHash := lib.sourceHash [lib.upper symbol, asOf.isoformat, toString allTxns.length]
        notes := note }
    buildActivity lib symbol issuer.1 issuer.2 filings allTxns asOf recent [evidence] (flagSummary allTxns)

/-- `pipeline.build_insider_activity` with its default windows and limits. -/
def buildInsiderActivity (S : InsiderStore) (symbol : String) (asOfDate : Option Date) (now : Utc) :
    Option InsiderActivity :=
  let allTxns := S.queryTransactions (lib.upper symbol) (asOfDate.map Date.lastSecond)
  let filings := S.latestFilings (lib.upper symbol) latestFilingsLimit
  let asOf := asOfDate.getD ((latestDate filings allTxns).getD now.date)
  activityFrom lib symbol now asOf filings allTxns

end TalonX.Insider
