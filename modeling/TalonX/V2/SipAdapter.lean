import Mathlib.Data.NNRat.Defs
import TalonX.Clock.IsoFormat
import TalonX.Core.PyFloat
import TalonX.Transact.Grouping
import TalonX.V2.Schemas

/-!
# The SIP daily-bar adapter

`AlpacaSipBarAdapter` turns the bar objects of a response into one row for each New York session.

- `JsonValue.float`, `finitePos`, `sessionOf`: the readers of one cell, which may raise;
- `candidate`: a bar object as a row, or nothing when it is malformed; `scan`: all of them, in order;
- `settle`: one session, whose candidates have to agree; `rows`: all sessions, in order;
- `collect`, `fetch`: the pages of a response, and the cache.
-/

set_option autoImplicit false

namespace TalonX.V2.Sip

open TalonX.Core (PyFloat)

/-! ## Cells -/

/-- A decoded JSON value. The contents of lists and objects are not read. -/
inductive JsonValue
  | null
  | bool (b : Bool)
  | int (i : ℤ)
  | real (x : PyFloat)
  | str (s : String)
  | list
  | dict
  deriving DecidableEq

inductive PyError
  | typeError
  | valueError
  | overflowError
  deriving DecidableEq

/-- `datetime.fromisoformat`: the reading of the clock, and the UTC offset of an aware time. Both are in microseconds, the
reading from the beginning of year 1. -/
inductive Stamp
  | naive (wall : ℤ)
  | aware (wall offset : ℤ)

/-- The standard library: `datetime.fromisoformat` and `float` of a text, where `none` is a `ValueError`, and the UTC
offset of New York at an instant. -/
structure Reader where
  fromisoformat : String → Option Stamp
  float : String → Option PyFloat
  newYorkOffset : ℤ → ℤ

/-- The nearest integer of 53 significant bits, the even one of two. -/
def roundDouble (n : ℕ) : ℕ :=
  let unit := 2 ^ (n.log2 - 52)
  let q := n / unit
  let r := n % unit
  if 2 * r < unit ∨ (2 * r = unit ∧ q % 2 = 0) then q * unit else (q + 1) * unit

/-- An integer above the largest float. -/
def beyondFloat (i : ℤ) : Bool := 2 ^ 1024 ≤ roundDouble i.natAbs

variable (rd : Reader)

/-- `float(x)`. -/
def JsonValue.float : JsonValue → Except PyError PyFloat
  | .bool b => .ok (.fin (if b then 1 else 0))
  | .int i => if beyondFloat i then .error .overflowError else .ok (.fin (i.sign * roundDouble i.natAbs))
  | .real x => .ok x
  | .str s => match rd.float s with
    | some x => .ok x
    | none => .error .valueError
  | _ => .error .typeError

/-- `_finite_pos`. Only a `TypeError` and a `ValueError` are caught. -/
def finitePos (x : JsonValue) : Except PyError (Option PosRat) :=
  match x.float rd with
  | .ok (.fin q) => .ok (if h : 0 < q then some ⟨q, h⟩ else none)
  | .ok _ => .ok none
  | .error .overflowError => .error .overflowError
  | .error _ => .ok none

/-- The volume of a bar: finite and not negative. -/
def volumeOf (x : JsonValue) : Except PyError (Option NNRat) :=
  match x.float rd with
  | .ok (.fin q) => .ok (if h : 0 ≤ q then some ⟨q, h⟩ else none)
  | .ok _ => .ok none
  | .error .overflowError => .error .overflowError
  | .error _ => .ok none

/-- A time of the years 1 to 9999. -/
def inCalendar (x : ℤ) : Except PyError ℤ :=
  if 0 ≤ x ∧ x < Clock.horizon then .ok x else .error .overflowError

/-- `dt.astimezone(ET)`, by way of UTC. -/
def toNewYork (wall offset : ℤ) : Except PyError ℤ := do
  let utc ← inCalendar (wall - offset)
  inCalendar (utc + rd.newYorkOffset utc)

/-- `t.replace("Z", "+00:00")`. -/
def utcSuffix (s : String) : String :=
  String.ofList (s.toList.flatMap fun c => if c = 'Z' then "+00:00".toList else [c])

/-- `session_of`: the number of the day in New York, from `1`, for a timestamp at midnight there. The text of a value that
is not a string is no aware timestamp. -/
def sessionOf : JsonValue → Except PyError (Option ℕ)
  | .str s => match rd.fromisoformat (utcSuffix s) with
    | some (.aware wall offset) => do
      let et ← toNewYork rd wall offset
      return if et / 1000000 % 86400 = 0 then some (et / 86400000000 + 1).toNat else none
    | _ => .ok none
  | _ => .ok none

/-! ## Rows -/

/-- An element of a response's list: a bar object, where a key that is missing is `null`, or something else. -/
inductive BarObject
  | other
  | bar (t o h l c v : JsonValue)
  deriving DecidableEq

/-- `date` is the number of the day; `_adjustment_state` is always `SPLIT_ADJUSTED`. -/
structure SipRow where
  date : ℕ
  openPrice : PosRat
  high : PosRat
  low : PosRat
  closePrice : PosRat
  volume : NNRat
  sourceTimestamp : String
  basisAsOf : ℕ
  feed : String
  receiptTimestamp : ℤ
  low_le_high : low.1 ≤ high.1
  deriving DecidableEq

/-- What is noted of an object that gives no row. -/
inductive Rejected
  | notAnObject (symbol : String)
  | malformed (symbol : String) (t : JsonValue)
  | conflicting (symbol : String) (date : ℕ)
  deriving DecidableEq

/-- The contract: `max_pages`, `cache_ttl_s` in microseconds, `feed`. -/
structure ReleaseProviderContract where
  maxPages : ℕ := 5
  cacheTtl : ℤ := 300000000
  feed : String := "sip"

variable (c : ReleaseProviderContract) (sym : String) (receipt : ℤ)

/-- `str(t)` of a timestamp that names a session. -/
def JsonValue.text : JsonValue → String
  | .str s => s
  | _ => ""

/-- The row of a bar object, or nothing when it is malformed. -/
def candidate (t o h l cl v : JsonValue) : Except PyError (Option SipRow) := do
  let date ← sessionOf rd t
  let openPrice ← finitePos rd o
  let high ← finitePos rd h
  let low ← finitePos rd l
  let closePrice ← finitePos rd cl
  let volume ← volumeOf rd v
  match date, openPrice, high, low, closePrice, volume with
  | some date, some openPrice, some high, some low, some closePrice, some volume =>
    return if hl : low.1 ≤ high.1 then
      some ⟨date, openPrice, high, low, closePrice, volume, t.text, (receipt / 86400000000 + 1).toNat, c.feed, receipt, hl⟩
    else none
  | _, _, _, _, _, _ => return none

/-- The first loop of `_rows`: the notes and the candidates. -/
def scan : List BarObject → List Rejected × Except PyError (List SipRow)
  | [] => ([], .ok [])
  | .other :: raw => (.notAnObject sym :: (scan raw).1, (scan raw).2)
  | .bar t o h l cl v :: raw =>
    match candidate rd c receipt t o h l cl v with
    | .error e => ([], .error e)
    | .ok none => (.malformed sym t :: (scan raw).1, (scan raw).2)
    | .ok (some r) => ((scan raw).1, (r :: ·) <$> (scan raw).2)

/-- What two rows of one session have to agree on. -/
def SipRow.traded (r : SipRow) : ℕ × PosRat × PosRat × NNRat := (r.date, r.openPrice, r.closePrice, r.volume)

/-- The candidates of one session: the first, unless another differs from it. -/
def settle : List SipRow → Option SipRow
  | [] => none
  | first :: rest =>
    if rest.any fun x => (x.openPrice, x.closePrice, x.volume) != (first.openPrice, first.closePrice, first.volume) then
      none
    else some first

/-- `_rows`. -/
def rows (raw : List BarObject) : List Rejected × Except PyError (List SipRow) :=
  match scan rd c sym receipt raw with
  | (noted, .error e) => (noted, .error e)
  | (noted, .ok cands) =>
    let sessions := Transact.sortedGroups SipRow.date cands
    (noted ++ (sessions.filter fun g => (settle g.2).isNone).map fun g => .conflicting sym g.1,
      .ok (sessions.filterMap fun g => settle g.2))

/-! ## Pages -/

/-- A response: the bars of the symbol and the next page's token, or an unexpected shape. -/
inductive Body
  | malformed
  | page (bars : List BarObject) (nextPageToken : Option String)

/-- What ends a fetch without rows: a `ProviderError` with its reason, or another exception. -/
inductive Failure
  | provider (reason : String)
  | raised (e : PyError)

/-- The pages from one on, after `raw`; `n` more may be asked for. -/
def collect (get : Option String → Except String Body) : ℕ → Option String → List BarObject →
    Except Failure (List BarObject)
  | 0, _, _ => .error (.provider "PROVIDER_MALFORMED_RESPONSE")
  | n + 1, token, raw =>
    match get token with
    | .error reason => .error (.provider reason)
    | .ok .malformed => .error (.provider "PROVIDER_MALFORMED_RESPONSE")
    | .ok (.page bars next) =>
      match next with
      | none => .ok (raw ++ bars)
      | some t => if t = "" then .ok (raw ++ bars) else collect get n (some t) (raw ++ bars)

/-- The adapter: the rows of a symbol with the time they were fetched, and the notes. -/
structure AlpacaSipBarAdapter where
  cache : String → Option (ℤ × List SipRow)
  rejected : List Rejected

/-- `_fetch`, at `now`. -/
def fetch (get : Option String → Except String Body) (symbol : String) (a : AlpacaSipBarAdapter) (now : ℤ) :
    AlpacaSipBarAdapter × Except Failure (List SipRow) :=
  match a.cache symbol.toUpper with
  | some (at_, rs) => if now - at_ < c.cacheTtl then (a, .ok rs) else load
  | none => load
where
  load :=
    match collect get c.maxPages none [] with
    | .error e => (a, .error e)
    | .ok raw =>
      match rows rd c symbol.toUpper now raw with
      | (noted, .error e) => ({ a with rejected := a.rejected ++ noted }, .error (.raised e))
      | (noted, .ok rs) => (⟨Function.update a.cache symbol.toUpper (some (now, rs)), a.rejected ++ noted⟩, .ok rs)

end TalonX.V2.Sip
