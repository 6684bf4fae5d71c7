import Mathlib.Data.List.Basic
import TalonX.Transact.Text

/-!
# Filings of a submissions document

`iter_normalized_filings` reads the parallel arrays of `filings.recent` by position: one `NormalizedFiling` for each form
that is wanted and whose accession number is well formed. A column that is too short reads as missing.

- `normalizeAccession`, `normalizeItems`, `parseDate`, `parseAcceptanceDatetimeEx`: the readers of one cell;
- `Recent.rows`: what is read at each position;
- `normalizeRow`, `iterNormalizedFilings`: the filings.
-/

set_option autoImplicit false

namespace TalonX.Ingest

/-! ## Texts -/

/-- White space, of ASCII texts. -/
def isSpace (c : Char) : Bool := c = ' ' || (9 ≤ c.toNat && c.toNat ≤ 13) || (28 ≤ c.toNat && c.toNat ≤ 31)

/-- `str.strip`. -/
def stripChars (l : List Char) : List Char := ((l.dropWhile isSpace).reverse.dropWhile isSpace).reverse

def strip (s : String) : String := String.ofList (stripChars s.toList)

/-- `\d{n}` at the start. -/
def takeDigits (n : ℕ) (l : List Char) : Option (List Char × List Char) :=
  if (l.take n).length = n ∧ (l.take n).all Char.isDigit then some (l.take n, l.drop n) else none

/-- `-?` at the start. -/
def dropDash : List Char → List Char
  | '-' :: l => l
  | l => l

/-- `normalize_accession`: `NNNNNNNNNN-NN-NNNNNN`, from the dashed or the undashed form. -/
def normalizeAccession (raw : Option String) : Option String := do
  let raw ← raw
  let (a, l) ← takeDigits 10 (stripChars raw.toList)
  let (b, l) ← takeDigits 2 (dropDash l)
  let (c, l) ← takeDigits 6 (dropDash l)
  if l = [] then some (String.ofList (a ++ '-' :: b ++ '-' :: c)) else none

/-- `\d{1,2}\.\d{2}` at the start; two digits before the point when there are two. -/
def itemHere : List Char → Option (List Char)
  | a :: b :: '.' :: c :: d :: _ => if [a, b, c, d].all Char.isDigit then some [a, b, '.', c, d] else none
  | a :: '.' :: c :: d :: _ => if [a, c, d].all Char.isDigit then some [a, '.', c, d] else none
  | _ => none

/-- The leftmost item code of a token. -/
def itemSearch : List Char → Option (List Char)
  | [] => none
  | c :: l => itemHere (c :: l) <|> itemSearch l

/-- `normalize_items`: the codes of the tokens between commas, blanks and semicolons, each once. -/
def normalizeItems (items : Option String) : List String :=
  match items with
  | none => []
  | some s =>
    let tokens := s.toList.splitOnP fun c => c = ',' || isSpace c || c = ';'
    (tokens.filterMap itemSearch).foldl (fun out code =>
      if String.ofList code ∈ out then out else out ++ [String.ofList code]) []

/-- `is_amendment`. -/
def isAmendment (form : String) : Bool := ['/', 'A'].isSuffixOf (strip form).toUpper.toList

/-! ## Dates -/

/-- A date, as its ordinal. -/
abbrev Date := ℕ

/-- A UTC instant in microseconds. -/
abbrev Instant := ℤ

/-- A parsed date and time: with an offset, or naive; as `astimezone` converts it, and as it stands. -/
structure ParsedDatetime where
  aware : Bool
  converted : Instant
  asUtc : Instant

/-- The readers of the standard library: `date.fromisoformat` and `datetime.fromisoformat`. -/
structure IsoReader where
  date : String → Option Date
  datetime : String → Option ParsedDatetime

inductive DataQualityFlag where
  | missingAcceptanceTimestamp
  | primaryDocumentUnavailable
  | missingReportPeriodEnd
  | acceptanceOffsetAbsent
  deriving DecidableEq, Repr

variable (rd : IsoReader)

/-- `_parse_date`. -/
def parseDate (raw : Option String) : Option Date :=
  match raw with
  | none => none
  | some s => if s = "" then none else rd.date (strip s)

/-- `[+-]\d{2}:?\d{2}$`. -/
def endsWithOffset (s : List Char) : Bool :=
  match s.reverse with
  | d :: c :: ':' :: b :: a :: sign :: _ => [a, b, c, d].all Char.isDigit && (sign = '+' || sign = '-')
  | d :: c :: b :: a :: sign :: _ => [a, b, c, d].all Char.isDigit && (sign = '+' || sign = '-')
  | _ => false

/-- The `explicit_offset` of a text: a UTC offset other than zero. -/
def explicitOffset (s : List Char) : Bool :=
  endsWithOffset s && !(["+00:00", "-00:00", "+0000", "-0000"].any fun z => z.toList.isSuffixOf s)

/-- Replaces the first blank. -/
def replaceBlank : List Char → List Char
  | [] => []
  | c :: l => if c = ' ' then 'T' :: l else c :: replaceBlank l

/-- The compact form of fourteen digits, and a blank between date and time, are brought into the ISO form. -/
def acceptanceText (s : List Char) : List Char :=
  let s :=
    if s.length = 14 ∧ s.all Char.isDigit then
      s.take 4 ++ '-' :: (s.drop 4).take 2 ++ '-' :: (s.drop 6).take 2 ++ 'T' :: (s.drop 8).take 2 ++
        ':' :: (s.drop 10).take 2 ++ ':' :: (s.drop 12).take 2
    else s
  if 'T' ∉ s ∧ ' ' ∈ s then replaceBlank s else s

/-- `parse_acceptance_datetime_ex` for the `submissions` source. -/
def parseAcceptanceDatetimeEx (raw : Option String) : Option Instant × List DataQualityFlag :=
  match raw with
  | none => (none, [])
  | some raw =>
    if stripChars raw.toList = [] then (none, [])
    else
      let s := acceptanceText (stripChars raw.toList)
      let iso := s.flatMap fun c => if c = 'Z' then "+00:00".toList else [c]
      match rd.datetime (String.ofList iso) with
      | none => (none, [])
      | some dt =>
        if explicitOffset s || dt.aware then (some dt.converted, [])
        else (some dt.asUtc, [.acceptanceOffsetAbsent])

/-! ## Documents -/

/-- The columns that a document may lack. -/
inductive Column where
  | acceptanceDateTime
  | filingDate
  | reportDate
  | primaryDocument
  | items
  deriving DecidableEq, Repr

/-- `filings.recent`: a missing column is empty; a cell may be `null`. -/
structure Recent where
  form : List String
  accessionNumber : List (Option String)
  column : Column → List (Option String)

/-- The part of a submissions document that is not an array. -/
structure Header where
  cik : ℕ
  name : String
  tickers : List String

/-- What is read at one position. -/
structure RawRow where
  form : String
  accession : Option String
  cell : Column → Option String

/-- A missing cell: no text, and for the items the empty one. -/
def missingCell : Column → Option String
  | .items => some ""
  | _ => none

def Recent.row (r : Recent) (i : ℕ) (form : String) : RawRow :=
  ⟨form, r.accessionNumber[i]?.join, fun c => (r.column c)[i]?.getD (missingCell c)⟩

/-- The rows, in the order of the forms. -/
def Recent.rows (r : Recent) : List RawRow := r.form.mapIdx r.row

structure NormalizedFiling where
  cik : String
  symbol : String
  companyName : String
  accession : String
  form : String
  acceptanceDatetime : Option Instant
  filingDate : Option Date
  reportDate : Option Date
  primaryDocument : Option String
  primaryDocumentUrl : Option String
  filingIndexUrl : String
  items : List String
  isAmendment : Bool
  flags : List DataQualityFlag
  deriving DecidableEq, Repr

/-- `_cik_padded`. -/
def cikPadded (cik : ℕ) : String :=
  let digits := (toString cik).toList
  String.ofList (List.replicate (10 - digits.length) '0' ++ digits)

/-- The accession directory, of `build_urls`. -/
def accessionDirectory (cik : ℕ) (accession : String) : String :=
  "https://www.sec.gov/Archives/edgar/data/" ++ toString cik ++ "/" ++
    String.ofList (accession.toList.filter (· ≠ '-'))

/-- `want_forms`: each form and its amendment; no filter without forms. -/
def wantsForm (forms : List String) (form : String) : Bool :=
  forms = [] || forms.any fun f =>
    (strip form).toUpper = (strip f).toUpper || (strip form).toUpper = (strip f).toUpper ++ "/A"

def isPeriodic (form : String) : Bool :=
  let f := (strip form).toUpper.toList
  "10-Q".toList.isPrefixOf f || "10-K".toList.isPrefixOf f

/-- The body of the loop. -/
def normalizeRow (h : Header) (symbol : String) (forms : List String) (r : RawRow) : Option NormalizedFiling :=
  if wantsForm forms r.form then
    (normalizeAccession r.accession).map fun accession =>
      let (acceptance, acceptanceFlags) := parseAcceptanceDatetimeEx rd (r.cell .acceptanceDateTime)
      let document := r.cell .primaryDocument
      let hasDocument := document.any (· ≠ "")
      let reportEnd := parseDate rd (r.cell .reportDate)
      let directory := accessionDirectory h.cik accession
      { cik := cikPadded h.cik
        symbol := symbol
        companyName := h.name
        accession := accession
        form := r.form
        acceptanceDatetime := acceptance
        filingDate := parseDate rd (r.cell .filingDate)
        reportDate := reportEnd
        primaryDocument := document
        primaryDocumentUrl := if hasDocument then document.map (directory ++ "/" ++ ·) else none
        filingIndexUrl := directory ++ "/" ++ accession ++ "-index.htm"
        items := normalizeItems (r.cell .items)
        isAmendment := isAmendment r.form
        flags := acceptanceFlags ++ (if acceptance = none then [.missingAcceptanceTimestamp] else []) ++
          (if hasDocument then [] else [.primaryDocumentUnavailable]) ++
          if reportEnd = none ∧ isPeriodic r.form then [.missingReportPeriodEnd] else [] }
  else none

/-- The symbol of the filings: the given one, or the first ticker of the feed. -/
def filingSymbol (h : Header) (symbol : Option String) : String :=
  (if symbol.getD "" ≠ "" then symbol.getD "" else h.tickers.headD "").toUpper

/-- `iter_normalized_filings`, without a `limit`. -/
def iterNormalizedFilings (h : Header) (symbol : Option String) (forms : List String) (r : Recent) :
    List NormalizedFiling := r.rows.filterMap (normalizeRow rd h (filingSymbol h symbol) forms)

end TalonX.Ingest
