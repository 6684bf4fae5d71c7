import TalonX.Core.Life

/-!
# Where the state comes from

What the engine keeps of a ticker, in memory and in the database, arrived in a message.

- `Wire`: one of the four channels; `Wire.Arrived`: a value that arrived on it, as it is or as JSON gives it back;
- `Wire.Held`, `Wire.Kept`: a field in memory and a JSON column;
- `Held`, `Kept`: all fields and all columns arrived, and a restart finds them so (`Kept.reload`).
-/

set_option autoImplicit false

namespace TalonX.Core

open Transact V2

/-! ## Channels -/

/-- A channel: its messages, how they are stored, and what the engine relies on in a message that it keeps for the ticker
`k`. -/
structure Wire (α β : Type) where
  wrap : α → Received
  dump : α → β
  load? : β → Option α
  fits : String → α → Prop
  fits_load : ∀ k x y, fits k x → load? (dump x) = some y → fits k y

namespace Wire

variable {α β : Type} {w : Wire α β} {log log' : Log} {k : String}

/-- `x` arrived at `t`, as it is or with the numbers that JSON gives back. -/
def Arrived (w : Wire α β) (log : Log) (x : α) (t : Instant) : Prop :=
  ∃ y, (t, w.wrap y) ∈ log ∧ (y = x ∨ w.load? (w.dump y) = some x)

/-- A field in memory with its time. -/
def Held (w : Wire α β) (log : Log) (k : String) (x : Option α) (at' : Option Instant) : Prop :=
  ∀ y ∈ x, w.fits k y ∧ ∃ t ∈ at', w.Arrived log y t

/-- A JSON column with its time. -/
def Kept (w : Wire α β) (log : Log) (k : String) (json : Option β) (at' : Option Instant) : Prop :=
  ∀ j ∈ json, ∃ t ∈ at', ∃ y, (t, w.wrap y) ∈ log ∧ w.dump y = j ∧ w.fits k y

theorem Held.mono {x : Option α} {at' : Option Instant} (h : w.Held log k x at') (hl : log ⊆ log') :
    w.Held log' k x at' := by
  intro y hy
  obtain ⟨hfits, t, ht, z, hz, hzy⟩ := h y hy
  exact ⟨hfits, t, ht, z, hl hz, hzy⟩

theorem Kept.mono {json : Option β} {at' : Option Instant} (h : w.Kept log k json at') (hl : log ⊆ log') :
    w.Kept log' k json at' := by
  intro j hj
  obtain ⟨t, ht, y, hy, hrest⟩ := h j hj
  exact ⟨t, ht, y, hl hy, hrest⟩

theorem held_none {at' : Option Instant} : w.Held log k none at' := fun y hy => (Option.not_mem_none y hy).elim

theorem kept_none {at' : Option Instant} : w.Kept log k none at' := fun j hj => (Option.not_mem_none j hj).elim

theorem held_new {x : α} {t : Instant} (h : (t, w.wrap x) ∈ log) (hx : w.fits k x) : w.Held log k (some x) (some t) := by
  rintro y ⟨⟩
  exact ⟨hx, t, rfl, x, h, .inl rfl⟩

theorem kept_new {x : α} {t : Instant} (h : (t, w.wrap x) ∈ log) (hx : w.fits k x) :
    w.Kept log k (some (w.dump x)) (some t) := by
  rintro j ⟨⟩
  exact ⟨t, rfl, x, h, rfl, hx⟩

/-- A column is loaded to a field. -/
theorem Kept.load {json : Option β} {at' : Option Instant} {x : Option α} (h : w.Kept log k json at')
    (hx : loadJson w.load? json = some x) : w.Held log k x (x.bind fun _ => at') := by
  rintro y rfl
  cases json with
  | none => cases hx
  | some j =>
    obtain ⟨y', hload, hy'⟩ := Option.map_eq_some_iff.1 hx
    obtain rfl := Option.some.inj hy'
    obtain ⟨t, ht, z, hz, hdump, hfits⟩ := h j rfl
    rw [← hdump] at hload
    exact ⟨w.fits_load k z y' hfits hload, t, ht, z, hz, .inr hload⟩

end Wire

theorem finite_of_load? {x : QuantSignal (Option ℚ)} {y : QuantSignal PyFloat} (h : x.load? = some y) :
    y.ticker = x.ticker ∧ y.price.finite = true := by
  obtain ⟨price, -, rfl⟩ := Option.map_eq_some_iff.1 h
  exact ⟨rfl, rfl⟩

theorem ticker_of_load? {x : ResearchReport (Option ℚ)} {y : ResearchReport PyFloat} (h : x.load? = some y) :
    y.ticker = x.ticker := by
  obtain ⟨signal, -, hrest⟩ := Option.bind_eq_some_iff.1 h
  obtain ⟨confidence, -, rfl⟩ := Option.map_eq_some_iff.1 hrest
  rfl

theorem finite_of_loadFundamental {x : FundamentalFactorSignal (Option ℚ)} {y : FundamentalFactorSignal PyFloat}
    (h : x.load? = some y) : y.ticker = x.ticker ∧ y.price.finite = true := by
  obtain ⟨price, -, rfl⟩ := Option.map_eq_some_iff.1 h
  exact ⟨rfl, rfl⟩

theorem ticker_of_loadLongTerm {x : LongTermResearchReport (Option ℚ)} {y : LongTermResearchReport PyFloat}
    (h : x.load? = some y) : y.ticker = x.ticker := by
  obtain ⟨signal, -, hrest⟩ := Option.bind_eq_some_iff.1 h
  obtain ⟨fair, -, rfl⟩ := Option.map_eq_some_iff.1 hrest
  rfl

/-- A signal is kept under its ticker and has a price that is a number. -/
def signalWire : Wire (QuantSignal PyFloat) (QuantSignal (Option ℚ)) where
  wrap x := .intraday (.signal x)
  dump := QuantSignal.dump
  load? := QuantSignal.load?
  fits k x := x.ticker.toUpper = k ∧ x.price.finite = true
  fits_load _ _ _ hx hy := by
    obtain ⟨hticker, hprice⟩ := finite_of_load? hy
    exact ⟨hticker ▸ hx.1, hprice⟩

def reportWire : Wire (ResearchReport PyFloat) (ResearchReport (Option ℚ)) where
  wrap x := .intraday (.report x)
  dump := ResearchReport.dump
  load? := ResearchReport.load?
  fits k x := x.ticker.toUpper = k
  fits_load _ _ _ hx hy := ticker_of_load? hy ▸ hx

def fundamentalWire : Wire (FundamentalFactorSignal PyFloat) (FundamentalFactorSignal (Option ℚ)) where
  wrap x := .longTerm (.signal x)
  dump := FundamentalFactorSignal.dump
  load? := FundamentalFactorSignal.load?
  fits k x := x.ticker.toUpper = k ∧ x.price.finite = true
  fits_load _ _ _ hx hy := by
    obtain ⟨hticker, hprice⟩ := finite_of_loadFundamental hy
    exact ⟨hticker ▸ hx.1, hprice⟩

def longTermReportWire : Wire (LongTermResearchReport PyFloat) (LongTermResearchReport (Option ℚ)) where
  wrap x := .longTerm (.report x)
  dump := LongTermResearchReport.dump
  load? := LongTermResearchReport.load?
  fits k x := x.ticker.toUpper = k
  fits_load _ _ _ hx hy := ticker_of_loadLongTerm hy ▸ hx

/-! ## States and rows -/

section States

variable {log log' : Log} {k : String}

structure TickerState.Held (log : Log) (k : String) (state : TickerState) : Prop where
  signal : signalWire.Held log k state.latestSignal state.latestSignalAt
  report : reportWire.Held log k state.latestReport state.latestReportAt

structure LongTermTickerState.Held (log : Log) (k : String) (state : LongTermTickerState) : Prop where
  signal : fundamentalWire.Held log k state.fundamentalSignal state.fundamentalSignalAt
  report : longTermReportWire.Held log k state.longtermReport state.longtermReportAt

structure TickerRow.Kept (log : Log) (r : TickerRow) : Prop where
  upper : r.ticker.toUpper = r.ticker
  signal : signalWire.Kept log r.ticker r.signalJson r.signalAt
  report : reportWire.Kept log r.ticker r.reportJson r.reportAt

structure LongTermTickerRow.Kept (log : Log) (r : LongTermTickerRow) : Prop where
  upper : r.ticker.toUpper = r.ticker
  signal : fundamentalWire.Kept log r.ticker r.signalJson r.signalAt
  report : longTermReportWire.Kept log r.ticker r.reportJson r.reportAt

theorem TickerState.held_new : TickerState.new.Held log k := ⟨Wire.held_none, Wire.held_none⟩

theorem LongTermTickerState.held_new : LongTermTickerState.new.Held log k := ⟨Wire.held_none, Wire.held_none⟩

theorem TickerRow.kept_blank {ticker : String} : (TickerRow.blank ticker.toUpper).Kept log :=
  ⟨toUpper_toUpper ticker, Wire.kept_none, Wire.kept_none⟩

theorem LongTermTickerRow.kept_blank {ticker : String} : (LongTermTickerRow.blank ticker.toUpper).Kept log :=
  ⟨toUpper_toUpper ticker, Wire.kept_none, Wire.kept_none⟩

theorem TickerRow.Kept.load {r : TickerRow} {state : TickerState} (h : r.Kept log) (hr : r.load? = some state) :
    state.Held log r.ticker := by
  obtain ⟨signal, hsignal, hrest⟩ := Option.bind_eq_some_iff.1 hr
  obtain ⟨report, hreport, rfl⟩ := Option.map_eq_some_iff.1 hrest
  exact ⟨h.signal.load hsignal, h.report.load hreport⟩

theorem LongTermTickerRow.Kept.load {r : LongTermTickerRow} {state : LongTermTickerState} (h : r.Kept log)
    (hr : r.load? = some state) : state.Held log r.ticker := by
  obtain ⟨signal, hsignal, hrest⟩ := Option.bind_eq_some_iff.1 hr
  obtain ⟨report, hreport, rfl⟩ := Option.map_eq_some_iff.1 hrest
  exact ⟨h.signal.load hsignal, h.report.load hreport⟩

/-- The prices of the message are numbers. -/
def Received.Priced : Received → Prop
  | .dropped | .unreadable => True
  | .intraday x => ∀ y, x = .signal y → y.price.finite = true
  | .longTerm x => ∀ y, x = .signal y → y.price.finite = true

/-- The state takes in a message of its ticker. -/
theorem TickerState.Held.apply {state : TickerState} {x : Intraday} {now : Instant}
    (h : state.Held log x.ticker.toUpper) (hx : (now, .intraday x) ∈ log) (hp : (Received.intraday x).Priced) :
    (x.apply now state).Held log x.ticker.toUpper := by
  cases x with
  | signal x => exact ⟨Wire.held_new hx ⟨rfl, hp x rfl⟩, h.report⟩
  | report x => exact ⟨h.signal, Wire.held_new hx rfl⟩

theorem LongTermTickerState.Held.apply {state : LongTermTickerState} {cfg : CoreConfig} {x : LongTerm} {now : Instant}
    (h : state.Held log x.ticker.toUpper) (hx : (now, .longTerm x) ∈ log) (hp : (Received.longTerm x).Priced) :
    (x.apply cfg now state).Held log x.ticker.toUpper := by
  cases x with
  | signal x =>
    have hnew : LongTermTickerState.Held log x.ticker.toUpper
        { state with fundamentalSignal := some x, fundamentalSignalAt := some now } :=
      ⟨Wire.held_new hx ⟨rfl, hp x rfl⟩, h.report⟩
    show LongTermTickerState.Held log _ (LongTermTickerState.countStreak x cfg.assumedWacc _)
    unfold LongTermTickerState.countStreak
    split
    · exact hnew
    · exact ⟨hnew.signal, hnew.report⟩
  | report x => exact ⟨h.signal, Wire.held_new hx rfl⟩

/-- The row of the ticker takes in the columns of a message. -/
theorem TickerRow.Kept.columns {r : TickerRow} {x : Intraday} {now : Instant} (h : r.Kept log)
    (hr : r.ticker = x.ticker.toUpper) (hx : (now, .intraday x) ∈ log) (hp : (Received.intraday x).Priced) :
    ((x.columns now).set r).Kept log := by
  cases x with
  | signal x => exact ⟨h.upper, Wire.kept_new hx ⟨hr.symm, hp x rfl⟩, h.report⟩
  | report x => exact ⟨h.upper, h.signal, Wire.kept_new hx hr.symm⟩

theorem LongTermTickerRow.Kept.columns {r : LongTermTickerRow} {x : LongTerm} {now : Instant} (h : r.Kept log)
    (hr : r.ticker = x.ticker.toUpper) (hx : (now, .longTerm x) ∈ log) (hp : (Received.longTerm x).Priced) :
    ((x.columns now).set r).Kept log := by
  cases x with
  | signal x => exact ⟨h.upper, Wire.kept_new hx ⟨hr.symm, hp x rfl⟩, h.report⟩
  | report x => exact ⟨h.upper, h.signal, Wire.kept_new hx hr.symm⟩

end States

/-! ## Memory and database -/

/-- A property of rows that the upsert keeps. -/
theorem forall_upsertColumns {ρ : Type} {key : ρ → String} {t : Table key} {blank : ρ} {w : ColumnWrite ρ key}
    {p : ρ → Prop} (h : ∀ r ∈ t.rows, p r) (hblank : p blank) (hw : ∀ r, p r → key r = key blank → p (w.set r)) :
    ∀ r ∈ (upsertColumns t blank w).rows, p r := by
  intro r hr
  have hget := Table.get_eq_some.2 ⟨hr, rfl⟩
  rw [get_upsertColumns] at hget
  by_cases hk : key r = key blank
  · rw [if_pos hk, Option.some_inj] at hget
    rw [← hget]
    cases hold : t.get (key r) with
    | none => exact hw blank hblank rfl
    | some q =>
      obtain ⟨hq, hqk⟩ := Table.get_eq_some.1 hold
      exact hw q (h q hq) (hqk.trans hk)
  · rw [if_neg hk] at hget
    exact h r (Table.get_eq_some.1 hget).1

/-- The rows of both tables arrived. -/
structure Kept (log : Log) (s : World) : Prop where
  rows : ∀ r ∈ s.tickerState.rows, r.Kept log
  longTermRows : ∀ r ∈ s.tickerStateLongTerm.rows, r.Kept log

/-- The states in memory arrived. -/
structure Held (log : Log) (s : World) : Prop where
  memory : ∀ k : String, (s.correlator.getOrCreate k).Held log k.toUpper
  longTermMemory : ∀ k : String, (s.longTermCorrelator.getOrCreate k).Held log k.toUpper

namespace Kept

variable {log log' : Log} {s : World} {now : Instant}

theorem mono (h : Kept log s) (hl : log ⊆ log') : Kept log' s := by
  constructor
  · intro r hr
    have hold := h.rows r hr
    exact ⟨hold.upper, hold.signal.mono hl, hold.report.mono hl⟩
  · intro r hr
    have hold := h.longTermRows r hr
    exact ⟨hold.upper, hold.signal.mono hl, hold.report.mono hl⟩

theorem saveColumns {ticker : String} {w : ColumnWrite TickerRow TickerRow.ticker} (h : Kept log s)
    (hw : ∀ r, r.Kept log → r.ticker = ticker.toUpper → (w.set r).Kept log) : Kept log (s.saveColumns ticker w) :=
  ⟨forall_upsertColumns h.rows TickerRow.kept_blank hw, h.longTermRows⟩

theorem saveLongTermColumns {ticker : String} {w : ColumnWrite LongTermTickerRow LongTermTickerRow.ticker}
    (h : Kept log s) (hw : ∀ r, r.Kept log → r.ticker = ticker.toUpper → (w.set r).Kept log) :
    Kept log (s.saveLongTermColumns ticker w) :=
  ⟨h.rows, forall_upsertColumns h.longTermRows LongTermTickerRow.kept_blank hw⟩

end Kept

namespace Held

variable {log log' : Log} {s : World} {now : Instant}

theorem mono (h : Held log s) (hl : log ⊆ log') : Held log' s := by
  constructor
  · intro k
    have hold := h.memory k
    exact ⟨hold.signal.mono hl, hold.report.mono hl⟩
  · intro k
    have hold := h.longTermMemory k
    exact ⟨hold.signal.mono hl, hold.report.mono hl⟩

theorem remember {ticker : String} {f : TickerState → TickerState} (h : Held log s)
    (hf : (f (s.correlator.getOrCreate ticker)).Held log ticker.toUpper) : Held log (s.remember ticker f) :=
  ⟨Correlator.forall_update_key (p := TickerState.Held log) h.memory hf, h.longTermMemory⟩

theorem rememberLongTerm {ticker : String} {f : LongTermTickerState → LongTermTickerState} (h : Held log s)
    (hf : (f (s.longTermCorrelator.getOrCreate ticker)).Held log ticker.toUpper) :
    Held log (s.rememberLongTerm ticker f) :=
  ⟨h.memory, Correlator.forall_update_key (p := LongTermTickerState.Held log) h.longTermMemory hf⟩

end Held

/-- What a restart makes of the rows: a state loaded from one, or a new one. -/
theorem forall_loadRows {ρ α : Type} {key : ρ → String} {load? : ρ → Option α} {new : α} {t : Table key}
    {c : Correlator α} {p : String → α → Prop} (h : loadRows key load? ⟨fun _ => new⟩ t.rows = some c)
    (hu : ∀ r ∈ t.rows, (key r).toUpper = key r) (hnew : ∀ k, t.get k = none → p k new)
    (hp : ∀ r ∈ t.rows, ∀ state, load? r = some state → p (key r) state) (k : String) :
    p k.toUpper (c.getOrCreate k) := by
  have hload := loadRows_states t.unique hu h k.toUpper
  show p k.toUpper (c.states k.toUpper)
  cases hrow : t.get k.toUpper with
  | none =>
    have hstate := hnew _ hrow
    rw [Table.get] at hrow
    rw [hrow, Option.elim_none, Option.some_inj] at hload
    exact hload ▸ hstate
  | some r =>
    obtain ⟨hr, hk⟩ := Table.get_eq_some.1 hrow
    rw [Table.get] at hrow
    rw [hrow, Option.elim_some] at hload
    rw [← hk] at hload ⊢
    exact hp r hr _ hload

/-- A restart finds states that arrived. -/
theorem Kept.reload {log : Log} {s t : World} (h : Kept log s) (ht : s.reload = some t) : Held log t := by
  obtain ⟨c, hc, hrest⟩ := Option.bind_eq_some_iff.1 ht
  obtain ⟨c', hc', rfl⟩ := Option.map_eq_some_iff.1 hrest
  constructor
  · exact forall_loadRows (p := TickerState.Held log) hc (fun r hr => (h.rows r hr).upper)
      (fun _ _ => TickerState.held_new) fun r hr _ hload => (h.rows r hr).load hload
  · exact forall_loadRows (p := LongTermTickerState.Held log) hc' (fun r hr => (h.longTermRows r hr).upper)
      (fun _ _ => LongTermTickerState.held_new) fun r hr _ hload => (h.longTermRows r hr).load hload

end TalonX.Core
