import TalonX.Transact.Json

/-!
# The experimental authorization file

`load_experimental_authorization`: bytes, text, JSON, and the strict checks of the fields.

- `AuthorizationFile`: no file, one that cannot be read, or its bytes;
- `isNonemptyStr`, `isFinitePositiveNumber`, `parseAwareDatetime`: the checks of one value;
- `loadPaperPermission`, `loadAuthorization`, `loadExperimentalAuthorization`: the loader; `none` is no permission, an
  error is an exception that leaves it.
-/

set_option autoImplicit false

namespace TalonX.Piv

open Transact TalonX.Core

/-- The exceptions that are caught neither as `OSError` nor as `JSONDecodeError`. -/
inductive LoadError
  | unicodeDecode
  | valueError
  | recursion
  | overflow
  deriving DecidableEq

inductive AuthorizationFile
  | missing
  | unreadable
  | content (bytes : ByteArray)

/-- A `datetime`: its wall clock and its UTC offset, in microseconds. -/
structure Datetime where
  wall : ℤ
  offset : Option ℤ

/-- `datetime.fromisoformat`, where `none` is a `ValueError`, and `str.upper`. -/
structure TextLib where
  fromisoformat : Text → Option Datetime
  upper : Text → Text

/-! ## The checks of one value -/

/-- `str.isspace` of a code point. -/
def isSpacePoint (c : ℕ) : Bool :=
  (9 ≤ c && c ≤ 13) || (28 ≤ c && c ≤ 32) || (0x2000 ≤ c && c ≤ 0x200A) ||
    [0x85, 0xA0, 0x1680, 0x2028, 0x2029, 0x202F, 0x205F, 0x3000].contains c

/-- `bool(value.strip())`. -/
def notBlank (s : Text) : Bool := s.any fun c => !isSpacePoint c

/-- `_is_nonempty_str`. -/
def isNonemptyStr : Json → Bool
  | .str s => notBlank s
  | _ => false

/-- `value is True`, after `_is_strict_bool`. -/
def isBoolTrue : Json → Bool
  | .bool b => b
  | _ => false

/-- `_is_finite_positive_number`: `math.isfinite` converts an integer to a float first. -/
def isFinitePositiveNumber : Json → Except LoadError Bool
  | .int n => if overflowsFloat n then .error .overflow else .ok (0 < n)
  | .float x => .ok (x.finite && PyFloat.lt 0 x)
  | _ => .ok false

/-- `int(value) == value`, of a finite number. -/
def isIntegral : Json → Bool
  | .int _ => true
  | .float (.fin q) => q.den = 1
  | _ => false

/-- The check of a count. -/
def isPositiveCount (value : Json) : Except LoadError Bool :=
  match isFinitePositiveNumber value with
  | .error e => .error e
  | .ok ok => .ok (ok && isIntegral value)

/-- `value.replace("Z", "+00:00")`. -/
def replaceZulu (s : Text) : Text := s.flatMap fun c => if c = 90 then text "+00:00" else [c]

variable (lib : TextLib)

/-- `_parse_aware_datetime`: the instant of a time with an offset. -/
def parseAwareDatetime : Json → Option ℤ
  | .str s => (lib.fromisoformat (replaceZulu s)).bind fun t => t.offset.map (t.wall - ·)
  | _ => none

/-! ## The paper section -/

structure LoadedPaperPermission where
  enabled : Bool
  accountIdBinding : Text
  maxQuantityPerEntry : PyFloat
  maxReferenceNotionalBudget : PyFloat
  maxEntryCount : ℤ
  maxConcurrentExposure : ℤ

/-- `float(value)` of a number. -/
def toFloat : Json → PyFloat
  | .int n => toDouble n
  | .float x => x
  | _ => .nan

/-- `int(value)` of a number. -/
def toInt : Json → ℤ
  | .int n => n
  | .float (.fin q) => q.num / q.den
  | _ => 0

/-- The text of a string. -/
def strText : Json → Text
  | .str s => s
  | _ => []

def limitFields : List String := ["max_quantity_per_entry", "max_reference_notional_budget"]

def countFields : List String := ["max_entry_count", "max_concurrent_exposure"]

/-- The checks of the limits, each with its field, in their order. -/
def limitChecks : List (String × (Json → Except LoadError Bool)) :=
  limitFields.map (·, isFinitePositiveNumber) ++ countFields.map (·, isPositiveCount)

/-- The checks are made in turn; the first one that fails or raises ends them. -/
def checkFields (paper : List (Text × Json)) : List (String × (Json → Except LoadError Bool)) → Except LoadError Bool
  | [] => .ok true
  | (field, check) :: checks =>
    match check (Json.get paper field) with
    | .error e => .error e
    | .ok false => .ok false
    | .ok true => checkFields paper checks

/-- The paper section: `none` refuses the whole file, `some none` is no section. -/
def loadPaperPermission : Json → Except LoadError (Option (Option LoadedPaperPermission))
  | .null => .ok (some none)
  | .dict paper =>
    match Json.get paper "enabled" with
    | .bool true =>
      if !isNonemptyStr (Json.get paper "account_id_binding") then .ok none
      else
        match checkFields paper limitChecks with
        | .error e => .error e
        | .ok false => .ok none
        | .ok true =>
          .ok (some (some
            { enabled := true
              accountIdBinding := strText (Json.get paper "account_id_binding")
              maxQuantityPerEntry := toFloat (Json.get paper "max_quantity_per_entry")
              maxReferenceNotionalBudget := toFloat (Json.get paper "max_reference_notional_budget")
              maxEntryCount := toInt (Json.get paper "max_entry_count")
              maxConcurrentExposure := toInt (Json.get paper "max_concurrent_exposure") }))
    | .bool false =>
      .ok (some (some
        { enabled := false, accountIdBinding := [], maxQuantityPerEntry := 0, maxReferenceNotionalBudget := 0
          maxEntryCount := 0, maxConcurrentExposure := 0 }))
    | _ => .ok none
  | _ => .ok none

/-! ## The whole file -/

structure LoadedAuthorization where
  experimentId : Text
  operatorAcknowledgedUnvalidated : Bool
  strategyId : Text
  strategyVersion : Text
  runtimeSha : Text
  configHash : Text
  allowedSymbols : List Text
  tradingDateEt : Text
  sessionScope : Text
  activatedAt : ℤ
  expiresAt : ℤ
  paper : Option LoadedPaperPermission

def requiredStrFields : List String :=
  ["experiment_id", "strategy_id", "strategy_version", "runtime_sha", "config_hash", "trading_date_et", "session_scope"]

/-- The checks of `allowed_symbols`. -/
def symbolTexts? : Json → Option (List Text)
  | .list symbols => if symbols.isEmpty || !symbols.all isNonemptyStr then none else some (symbols.map strText)
  | _ => none

/-- The two instants, in their order. -/
def window? (raw : List (Text × Json)) : Option (ℤ × ℤ) :=
  match parseAwareDatetime lib (Json.get raw "activated_at"), parseAwareDatetime lib (Json.get raw "expires_at") with
  | some activatedAt, some expiresAt => if expiresAt ≤ activatedAt then none else some (activatedAt, expiresAt)
  | _, _ => none

/-- The loader from the decoded object on. -/
def loadAuthorization (raw : List (Text × Json)) : Except LoadError (Option LoadedAuthorization) :=
  if !isBoolTrue (Json.get raw "enabled") then .ok none
  else if !requiredStrFields.all (fun field => isNonemptyStr (Json.get raw field)) then .ok none
  else if !isBoolTrue (Json.get raw "operator_acknowledged_unvalidated") then .ok none
  else
    match symbolTexts? (Json.get raw "allowed_symbols"), window? lib raw with
    | some symbols, some (activatedAt, expiresAt) =>
      match loadPaperPermission (Json.get raw "paper") with
      | .error e => .error e
      | .ok none => .ok none
      | .ok (some paper) =>
        .ok (some
          { experimentId := strText (Json.get raw "experiment_id")
            operatorAcknowledgedUnvalidated := true
            strategyId := strText (Json.get raw "strategy_id")
            strategyVersion := strText (Json.get raw "strategy_version")
            runtimeSha := strText (Json.get raw "runtime_sha")
            configHash := strText (Json.get raw "config_hash")
            allowedSymbols := (symbols.map lib.upper).dedup
            tradingDateEt := strText (Json.get raw "trading_date_et")
            sessionScope := strText (Json.get raw "session_scope")
            activatedAt := activatedAt
            expiresAt := expiresAt
            paper := paper })
    | _, _ => .ok none

/-- The universal newlines of a text file. -/
def universalNewlines : Text → Text
  | 13 :: 10 :: cs => 10 :: universalNewlines cs
  | 13 :: cs => 10 :: universalNewlines cs
  | c :: cs => c :: universalNewlines cs
  | [] => []

/-- `path.read_text(encoding="utf-8")`: `none` is a `UnicodeDecodeError`. -/
def readText (bytes : ByteArray) : Option Text :=
  bytes.utf8Decode?.map fun cs => universalNewlines (cs.toList.map Char.toNat)

/-- `load_experimental_authorization`, where `limit` containers may be nested in JSON. -/
def loadExperimentalAuthorization (limit : ℕ) : AuthorizationFile → Except LoadError (Option LoadedAuthorization)
  | .missing => .ok none
  | .unreadable => .ok none
  | .content bytes =>
    match readText bytes with
    | none => .error .unicodeDecode
    | some cs =>
      match loads limit cs with
      | .error .decode => .ok none
      | .error .digits => .error .valueError
      | .error .recursion => .error .recursion
      | .ok (.dict raw) => loadAuthorization lib raw
      | .ok _ => .ok none

end TalonX.Piv
