import TalonX.Core.AlertOutbox
import TalonX.Core.Store

/-!
# The message handler

`DecisionEngine._handle_message` with a `TickerStateStore`, and the start of a process. `json.loads` and the validators
of the four payloads are parameters.

- `correlate`, `correlateLongTerm`: evaluation, and what follows from it;
- `handleMessage`: one message of any channel;
- `boot`: `load_into` and `load_into_long_term`;
- `signalMessage`, `reportMessage`: two messages that lead to an alert.
-/

set_option autoImplicit false

namespace TalonX.Core

open Transact V2

/-! ## Messages -/

/-- What `json.loads` makes of the bytes: a value, a `JSONDecodeError`, or another exception (bytes that are not UTF-8, an
integer with too many digits, nesting that is too deep). -/
inductive Loads (P : Type)
  | value (payload : P)
  | decodeError
  | raises
  deriving DecidableEq, Repr

inductive Channel
  | signals
  | reports
  | fundamentalSignals
  | reportsLongTerm
  deriving DecidableEq, Repr

structure Message (P : Type) where
  channel : Channel
  data : Option (Loads P)
  deriving DecidableEq, Repr

/-- `model_validate`, where `none` is a `ValidationError`. -/
structure Validators (P : Type) where
  quantSignal : P → Option (QuantSignal PyFloat)
  researchReport : P → Option (ResearchReport PyFloat)
  fundamentalSignal : P → Option (FundamentalFactorSignal PyFloat)
  longTermReport : P → Option (LongTermResearchReport PyFloat)

namespace World

/-- A change of the state of one ticker in memory. -/
def remember (ticker : String) (f : TickerState → TickerState) (s : World) : World :=
  { s with correlator := s.correlator.update ticker f }

def rememberLongTerm (ticker : String) (f : LongTermTickerState → LongTermTickerState) (s : World) : World :=
  { s with longTermCorrelator := s.longTermCorrelator.update ticker f }

end World

def recordSuppressed (ticker : String) (reason : SuppressionReason) (horizon : Horizon) : Job Unit := do
  let now ← readClock
  Prog.write .recordSuppressed (World.recordSuppressed ticker reason horizon now)

/-! ## Intraday -/

/-- `_publish_alert`, `mark_alerted`, `save_alert`. -/
def dispatchAlert (ticker : String) (a : ActionableAlert PyFloat) : Job Unit := do
  let _ ← deliverAlert (.intraday a)
  Prog.write (.mark (.intraday a))
    (World.remember ticker (·.markAlerted a.action a.triggeringSignal.price a.correlatedAt))
  Prog.write (.saveAlert (.intraday a))
    (World.saveColumns ticker (alertColumns a.action a.triggeringSignal.price a.correlatedAt))

def conclude (ticker : String) : Evaluation (ActionableAlert PyFloat) → Job Unit
  | .alert a => dispatchAlert ticker a
  | .suppressed reason => recordSuppressed ticker reason .intraday
  | .zeroDivision => .raise

/-- The second reading of the clock is that of the alert, if there is one. -/
def correlate (cfg : CoreConfig) (ticker : String) : Job Unit := do
  let now ← readClock
  let correlatedAt ← readClock
  let evaluation ← Prog.read .look fun s => evaluateVerbose cfg (s.correlator.getOrCreate ticker) now correlatedAt
  conclude ticker evaluation

/-- A signal or a report of the ticker: its effect in memory, the columns that save it, the evaluation. -/
def receive (cfg : CoreConfig) (ticker : String) (f : Instant → TickerState → TickerState)
    (w : Instant → ColumnWrite TickerRow TickerRow.ticker) : Job Unit := do
  let now ← readClock
  Prog.write (.memory ticker .intraday) (World.remember ticker (f now))
  Prog.write (.saveRow ticker .intraday) (World.saveColumns ticker (w now))
  correlate cfg ticker

def handleSignal (cfg : CoreConfig) (signal : QuantSignal PyFloat) : Job Unit :=
  receive cfg signal.ticker (TickerState.updateSignal signal) (signalColumns signal)

def handleReport (cfg : CoreConfig) (report : ResearchReport PyFloat) : Job Unit :=
  receive cfg report.ticker (TickerState.updateReport report) (reportColumns report)

/-! ## Long term -/

def dispatchLongTermAlert (ticker : String) (a : LongTermActionableAlert PyFloat) : Job Unit := do
  let _ ← deliverAlert (.longTerm a)
  Prog.write (.mark (.longTerm a)) (World.rememberLongTerm ticker (·.markAlerted a.action a.marketPrice a.correlatedAt))
  Prog.write (.saveAlert (.longTerm a))
    (World.saveLongTermColumns ticker (longTermAlertColumns a.action a.marketPrice a.correlatedAt))

def concludeLongTerm (ticker : String) : Evaluation (LongTermActionableAlert PyFloat) → Job Unit
  | .alert a => dispatchLongTermAlert ticker a
  | .suppressed reason => recordSuppressed ticker reason .longTerm
  | .zeroDivision => .raise

def correlateLongTerm (cfg : CoreConfig) (ticker : String) : Job Unit := do
  let now ← readClock
  let correlatedAt ← readClock
  let evaluation ← Prog.read .look fun s =>
    evaluateLongTermVerbose cfg (s.longTermCorrelator.getOrCreate ticker) now correlatedAt
  concludeLongTerm ticker evaluation

/-- A message is saved by two upserts: its own columns, then the bookkeeping of the fundamental stop. -/
def receiveLongTerm (cfg : CoreConfig) (ticker : String) (f : Instant → LongTermTickerState → LongTermTickerState)
    (w : Instant → ColumnWrite LongTermTickerRow LongTermTickerRow.ticker) : Job Unit := do
  let now ← readClock
  Prog.write (.memory ticker .longTerm) (World.rememberLongTerm ticker (f now))
  Prog.write (.saveRow ticker .longTerm) (World.saveLongTermColumns ticker (w now))
  Prog.txn (.saveRow ticker .longTerm) (World.saveStopState ticker)
  correlateLongTerm cfg ticker

def handleFundamentalSignal (cfg : CoreConfig) (signal : FundamentalFactorSignal PyFloat) : Job Unit :=
  receiveLongTerm cfg signal.ticker (LongTermTickerState.updateSignal signal cfg.assumedWacc)
    (fundamentalSignalColumns signal)

def handleLongTermReport (cfg : CoreConfig) (report : LongTermResearchReport PyFloat) : Job Unit :=
  receiveLongTerm cfg report.ticker (LongTermTickerState.updateReport report) (longTermReportColumns report)

/-! ## One message -/

variable {P : Type}

/-- A payload that does not validate is dropped. -/
def handlePayloadOn (cfg : CoreConfig) (v : Validators P) (payload : P) : Channel → Job Unit
  | .signals => (v.quantSignal payload).elim (.ret ()) (handleSignal cfg)
  | .reports => (v.researchReport payload).elim (.ret ()) (handleReport cfg)
  | .fundamentalSignals => (v.fundamentalSignal payload).elim (.ret ()) (handleFundamentalSignal cfg)
  | .reportsLongTerm => (v.longTermReport payload).elim (.ret ()) (handleLongTermReport cfg)

/-- `_handle_message`, which catches `JSONDecodeError` and `ValidationError`. -/
def handleMessage (cfg : CoreConfig) (v : Validators P) (m : Message P) : Job Unit :=
  match m.data with
  | none => .ret ()
  | some (.value payload) => handlePayloadOn cfg v payload m.channel
  | some .decodeError => .ret ()
  | some .raises => .raise

/-- The start of `run`. -/
def boot : Job Unit := Prog.txn .boot fun s => s.reload.map ((), ·)

/-! ## Samples -/

/-- Documents that validate for one channel. -/
abbrev Document := QuantSignal PyFloat ⊕ ResearchReport PyFloat

def documents : Validators Document := ⟨Sum.getLeft?, Sum.getRight?, fun _ => none, fun _ => none⟩

/-- A window of a day and a cooldown of a minute. -/
def intradayOnly : CoreConfig := ⟨1 / 2, 86400, 60, 1, 6, 0, 0, 0, 3, 86400, 60, 1⟩

/-- A clock that moves on by more than the cooldown between two readings; Redis accepts every publish. -/
def slowly : Environment := ⟨fun n => 100 * n, fun _ => 1, fun _ => .accepted, fun _ => none⟩

def buySignal (price : PyFloat) : QuantSignal PyFloat :=
  ⟨"AAA", .maGoldenCross, .bullish, "cross", price, ⟨none, none, none, none, none, none, none, none, none, none, none⟩,
    none, none, 0, none⟩

/-- A report that confirms the signal. -/
def buyReport (price : PyFloat) : ResearchReport PyFloat :=
  ⟨"AAA", buySignal price, .bullish, .fin (9 / 10), "summary", [], [], "model", false, false, false, 0, 0⟩

def signalMessage (price : PyFloat) : Message Document := ⟨.signals, some (.value (.inl (buySignal price)))⟩

def reportMessage (price : PyFloat) : Message Document := ⟨.reports, some (.value (.inr (buyReport price)))⟩

end TalonX.Core
