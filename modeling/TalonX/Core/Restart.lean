import TalonX.Core.Life

/-!
# Restarts

A process that is started again finds the state that it left.

- `load_signalColumns`, …: an upsert does to the loaded state what the message does to the state in memory;
- `Filed`: the database loads to the memory;
- `Received.Storable`, `Whole`: the message is stored as it is, and no cut falls between two upserts of one message;
- `restart_transparent`: under these conditions a restart finds the state before or after the message;
- `cut_loses_alert`: a cut between the two upserts of a message that led to an alert.
-/

set_option autoImplicit false

namespace TalonX.Core

open Transact V2

/-! ## Columns -/

section Json

variable {α β : Type} {load? : α → Option β}

theorem loadJson_some (json : α) : loadJson load? (some json) = (load? json).map some := rfl

theorem exists_of_loadJson {o : Option α} {x : β} (h : loadJson load? o = some (some x)) :
    ∃ json, load? json = some x := by
  cases o with
  | none => cases h
  | some json =>
    obtain ⟨y, hy, hxy⟩ := Option.map_eq_some_iff.1 h
    exact ⟨json, hy.trans hxy⟩

end Json

section Columns

variable {r : TickerRow} {state : TickerState}

theorem load_blank (k : String) : (TickerRow.blank k).load? = some .new := rfl

theorem load_signalColumns {x : QuantSignal PyFloat} {now : Instant} (hx : ∀ y ∈ x.numbers, y.finite = true)
    (h : r.load? = some state) : ((signalColumns x now).set r).load? = some (state.updateSignal x now) := by
  obtain ⟨signal, -, hrest⟩ := Option.bind_eq_some_iff.1 h
  obtain ⟨report, hreport, rfl⟩ := Option.map_eq_some_iff.1 hrest
  simp [TickerRow.load?, signalColumns, loadJson_some, QuantSignal.load?_dump hx, hreport, TickerState.updateSignal]

theorem load_reportColumns {x : ResearchReport PyFloat} {now : Instant} (hx : ∀ y ∈ x.numbers, y.finite = true)
    (h : r.load? = some state) : ((reportColumns x now).set r).load? = some (state.updateReport x now) := by
  obtain ⟨signal, hsignal, hrest⟩ := Option.bind_eq_some_iff.1 h
  obtain ⟨report, -, rfl⟩ := Option.map_eq_some_iff.1 hrest
  simp [TickerRow.load?, reportColumns, loadJson_some, ResearchReport.load?_dump hx, hsignal, TickerState.updateReport]

theorem load_alertColumns {action : AlertAction} {price : PyFloat} {time : Instant} (hp : price.finite = true)
    (h : r.load? = some state) :
    ((alertColumns action price time).set r).load? = some (state.markAlerted action price time) := by
  obtain ⟨signal, hsignal, hrest⟩ := Option.bind_eq_some_iff.1 h
  obtain ⟨report, hreport, rfl⟩ := Option.map_eq_some_iff.1 hrest
  simp [TickerRow.load?, alertColumns, hsignal, hreport, PyFloat.toReal_of_finite hp, TickerState.markAlerted]

/-- What is loaded from JSON has a finite price. -/
theorem finite_of_load {x : QuantSignal PyFloat} (h : r.load? = some state) (hx : state.latestSignal = some x) :
    x.price.finite = true := by
  obtain ⟨signal, hsignal, hrest⟩ := Option.bind_eq_some_iff.1 h
  obtain ⟨report, -, rfl⟩ := Option.map_eq_some_iff.1 hrest
  obtain rfl : signal = some x := hx
  obtain ⟨json, hjson⟩ := exists_of_loadJson hsignal
  obtain ⟨price, -, rfl⟩ := Option.map_eq_some_iff.1 hjson
  rfl

end Columns

/-- The message itself, without the bookkeeping of the fundamental stop. -/
def LongTerm.note : LongTerm → Instant → LongTermTickerState → LongTermTickerState
  | .signal x, now, state => { state with fundamentalSignal := some x, fundamentalSignalAt := some now }
  | .report x, now, state => { state with longtermReport := some x, longtermReportAt := some now }

/-- The bookkeeping of the fundamental stop, taken from another state. -/
def LongTermTickerState.withStop (stop state : LongTermTickerState) : LongTermTickerState :=
  { state with
    roicBelowWaccStreak := stop.roicBelowWaccStreak
    previousMoatRating := stop.previousMoatRating
    lastStreakFiscalYear := stop.lastStreakFiscalYear
    previousFairValue := stop.previousFairValue }

theorem withStop_countStreak (x : FundamentalFactorSignal PyFloat) (wacc : ℚ) (state : LongTermTickerState) :
    (state.countStreak x wacc).withStop state = state.countStreak x wacc := by
  unfold LongTermTickerState.countStreak
  split <;> rfl

theorem LongTerm.withStop_apply (cfg : CoreConfig) (x : LongTerm) (now : Instant) (state : LongTermTickerState) :
    (x.apply cfg now state).withStop (x.note now state) = x.apply cfg now state := by
  cases x with
  | signal x => exact withStop_countStreak x cfg.assumedWacc _
  | report x => rfl

/-- A fair value that a `REAL` column can hold. -/
def HoldsReal (x : Option PyFloat) : Prop := x.bind PyFloat.toReal = x

theorem holdsReal_of_finite {x : Option PyFloat} (h : ∀ y ∈ x, y.finite = true) : HoldsReal x := by
  cases x with
  | none => rfl
  | some y => exact PyFloat.toReal_of_finite (h y rfl)

section LongTermColumns

variable {r : LongTermTickerRow} {state : LongTermTickerState}

theorem load_longTermBlank (k : String) : (LongTermTickerRow.blank k).load? = some .new := rfl

theorem load_longTermColumns {x : LongTerm} {now : Instant}
    (hx : ∀ y ∈ x.numbers, y.finite = true) (h : r.load? = some state) :
    ((x.columns now).set r).load? = some (x.note now state) := by
  obtain ⟨signal, hsignal, hrest⟩ := Option.bind_eq_some_iff.1 h
  obtain ⟨report, hreport, rfl⟩ := Option.map_eq_some_iff.1 hrest
  cases x with
  | signal x =>
    simp [LongTermTickerRow.load?, LongTerm.columns, fundamentalSignalColumns, loadJson_some,
      FundamentalFactorSignal.load?_dump hx, hreport, LongTerm.note]
  | report x =>
    simp [LongTermTickerRow.load?, LongTerm.columns, longTermReportColumns, loadJson_some,
      LongTermResearchReport.load?_dump hx, hsignal, LongTerm.note]

theorem load_stopStateColumns {stop : LongTermTickerState} (hfair : HoldsReal stop.previousFairValue)
    (h : r.load? = some state) : ((stopStateColumns stop).set r).load? = some (stop.withStop state) := by
  obtain ⟨signal, hsignal, hrest⟩ := Option.bind_eq_some_iff.1 h
  obtain ⟨report, hreport, rfl⟩ := Option.map_eq_some_iff.1 hrest
  have hreal : stop.previousFairValue.bind PyFloat.toReal = stop.previousFairValue := hfair
  simp [LongTermTickerRow.load?, stopStateColumns, hsignal, hreport, hreal, LongTermTickerState.withStop]

theorem load_longTermAlertColumns {action : AlertAction} {price : PyFloat} {time : Instant} (hp : price.finite = true)
    (h : r.load? = some state) :
    ((longTermAlertColumns action price time).set r).load? = some (state.markAlerted action price time) := by
  obtain ⟨signal, hsignal, hrest⟩ := Option.bind_eq_some_iff.1 h
  obtain ⟨report, hreport, rfl⟩ := Option.map_eq_some_iff.1 hrest
  simp [LongTermTickerRow.load?, longTermAlertColumns, hsignal, hreport, PyFloat.toReal_of_finite hp,
    LongTermTickerState.markAlerted]

theorem finite_of_loadLongTerm (h : r.load? = some state) :
    (∀ x ∈ state.fundamentalSignal, x.price.finite = true) ∧
      ∀ x ∈ state.longtermReport, x.dcfFairValuePerShare.finite = true := by
  obtain ⟨signal, hsignal, hrest⟩ := Option.bind_eq_some_iff.1 h
  obtain ⟨report, hreport, rfl⟩ := Option.map_eq_some_iff.1 hrest
  constructor
  · intro x hx
    obtain rfl : signal = some x := hx
    obtain ⟨json, hjson⟩ := exists_of_loadJson hsignal
    obtain ⟨price, -, rfl⟩ := Option.map_eq_some_iff.1 hjson
    rfl
  · intro x hx
    obtain rfl : report = some x := hx
    obtain ⟨json, hjson⟩ := exists_of_loadJson hreport
    obtain ⟨signal', -, hfair⟩ := Option.bind_eq_some_iff.1 hjson
    obtain ⟨fair, -, rfl⟩ := Option.map_eq_some_iff.1 hfair
    rfl

end LongTermColumns

/-! ## The database and the memory -/

/-- The columns of the fundamental stop can hold the state. -/
structure LongTermTickerState.Storable (state : LongTermTickerState) : Prop where
  fair : HoldsReal state.previousFairValue
  year : state.lastStreakFiscalYear.all fitsInteger = true

/-- The database loads to the memory, and the memory can be stored. -/
structure Filed (s : World) : Prop where
  intraday : Holds TickerRow.load? .new s.tickerState s.correlator
  longTerm : Holds LongTermTickerRow.load? .new s.tickerStateLongTerm s.longTermCorrelator
  storable : ∀ k, (s.longTermCorrelator.getOrCreate k).Storable

/-- The numbers of the message are finite, and its fiscal year fits the column. -/
def Received.Storable : Received → Prop
  | .dropped | .unreadable => True
  | .intraday x => ∀ y ∈ x.numbers, y.finite = true
  | .longTerm x => (∀ y ∈ x.numbers, y.finite = true) ∧ ∀ signal, x = .signal signal → fitsInteger signal.fiscalYear = true

namespace Filed

variable {s t : World}

theorem congr (h : Filed s) (hm : t.correlator = s.correlator) (hlm : t.longTermCorrelator = s.longTermCorrelator)
    (hr : t.tickerState = s.tickerState) (hlr : t.tickerStateLongTerm = s.tickerStateLongTerm) : Filed t :=
  ⟨by rw [hm, hr]; exact h.intraday, by rw [hlm, hlr]; exact h.longTerm, by rw [hlm]; exact h.storable⟩

theorem intradayPrice (h : Filed s) {k : String} {x : QuantSignal PyFloat}
    (hx : (s.correlator.getOrCreate k).latestSignal = some x) : x.price.finite = true := by
  have hload := h.intraday.loads k
  cases hget : s.tickerState.get k.toUpper with
  | none =>
    rw [hget, Option.elim_none] at hload
    rw [← Option.some.inj hload] at hx
    cases hx
  | some r =>
    rw [hget, Option.elim_some] at hload
    exact finite_of_load hload hx

theorem longTermNumbers (h : Filed s) (k : String) :
    (∀ x ∈ (s.longTermCorrelator.getOrCreate k).fundamentalSignal, x.price.finite = true) ∧
      ∀ x ∈ (s.longTermCorrelator.getOrCreate k).longtermReport, x.dcfFairValuePerShare.finite = true := by
  have hload := h.longTerm.loads k
  cases hget : s.tickerStateLongTerm.get k.toUpper with
  | none =>
    rw [hget, Option.elim_none] at hload
    rw [← Option.some.inj hload]
    exact ⟨fun x hx => (Option.not_mem_none x hx).elim, fun x hx => (Option.not_mem_none x hx).elim⟩
  | some r =>
    rw [hget, Option.elim_some] at hload
    exact finite_of_loadLongTerm hload

/-- An intraday upsert that follows a change in memory. -/
theorem saveColumns {ticker : String} {f : TickerState → TickerState} {w : ColumnWrite TickerRow TickerRow.ticker}
    (h : Filed s) (hw : ∀ r state, TickerRow.load? r = some state → (w.set r).load? = some (f state)) :
    Filed ((s.remember ticker f).saveColumns ticker w) := by
  have hup : Holds TickerRow.load? .new (upsertColumns s.tickerState (.blank ticker.toUpper) w)
      (s.correlator.update ticker f) := h.intraday.upsert (by rfl) (load_blank _) hw
  exact ⟨hup, h.longTerm, h.storable⟩

theorem receive {x : Intraday} {now : Instant} (h : Filed s) (hx : ∀ y ∈ x.numbers, y.finite = true) :
    Filed ((s.remember x.ticker (x.apply now)).saveColumns x.ticker (x.columns now)) := by
  refine h.saveColumns fun r state hload => ?_
  cases x with
  | signal x => exact load_signalColumns hx hload
  | report x => exact load_reportColumns hx hload

theorem alert {ticker : String} {action : AlertAction} {price : PyFloat} {time : Instant} (h : Filed s)
    (hp : price.finite = true) :
    Filed ((s.remember ticker (·.markAlerted action price time)).saveColumns ticker (alertColumns action price time)) :=
  h.saveColumns fun _ _ hload => load_alertColumns hp hload

/-- What the memory keeps of the fundamental stop can be stored. -/
theorem storable_updated (h : Filed s) {cfg : CoreConfig} {x : LongTerm} {now : Instant}
    (hx : (Received.longTerm x).Storable) (k : String) :
    (x.apply cfg now (s.longTermCorrelator.getOrCreate k)).Storable := by
  cases x with
  | signal x =>
    refine ⟨?_, ?_⟩
    · have hsame := LongTermTickerState.previousFairValue_countStreak x cfg.assumedWacc
        { s.longTermCorrelator.getOrCreate k with fundamentalSignal := some x, fundamentalSignalAt := some now }
      exact hsame ▸ (h.storable k).fair
    · have hyear := LongTermTickerState.lastStreakFiscalYear_countStreak x cfg.assumedWacc
        { s.longTermCorrelator.getOrCreate k with fundamentalSignal := some x, fundamentalSignalAt := some now }
      exact hyear ▸ hx.2 x rfl
  | report x =>
    refine ⟨?_, (h.storable k).year⟩
    show HoldsReal ((Option.map _ (s.longTermCorrelator.getOrCreate k).longtermReport).or _)
    cases hreport : (s.longTermCorrelator.getOrCreate k).longtermReport with
    | none => exact (h.storable k).fair
    | some report =>
      refine holdsReal_of_finite fun y hy => ?_
      obtain rfl := Option.some.inj hy
      exact (h.longTermNumbers k).2 report hreport

theorem receiveLongTerm {cfg : CoreConfig} {x : LongTerm} {now : Instant} (h : Filed s)
    (hx : (Received.longTerm x).Storable) :
    Filed (((s.rememberLongTerm x.ticker (x.apply cfg now)).saveLongTermColumns x.ticker
      (x.columns now)).saveLongTermColumns x.ticker
        (stopStateColumns (x.apply cfg now (s.longTermCorrelator.getOrCreate x.ticker)))) := by
  have hupdated : (x.apply cfg now (s.longTermCorrelator.getOrCreate x.ticker)).Storable := h.storable_updated hx x.ticker
  have hnote : Holds LongTermTickerRow.load? .new
      (upsertColumns s.tickerStateLongTerm (.blank x.ticker.toUpper) (x.columns now))
      (s.longTermCorrelator.update x.ticker (x.note now)) :=
    h.longTerm.upsert (by rfl) (load_longTermBlank _) fun r state hload => load_longTermColumns hx.1 hload
  have hstop := hnote.upsert (by rfl) (load_longTermBlank x.ticker.toUpper)
    fun r state hload => load_stopStateColumns hupdated.fair hload
  rw [Correlator.update_update] at hstop
  have happly : s.longTermCorrelator.update x.ticker (fun state =>
      (x.apply cfg now (s.longTermCorrelator.getOrCreate x.ticker)).withStop (x.note now state)) =
      s.longTermCorrelator.update x.ticker (x.apply cfg now) :=
    Correlator.update_congr (x.withStop_apply cfg now _)
  rw [happly] at hstop
  exact ⟨h.intraday, hstop, Correlator.forall_update h.storable hupdated⟩

theorem longTermAlert {ticker : String} {action : AlertAction} {price : PyFloat} {time : Instant} (h : Filed s)
    (hp : price.finite = true) :
    Filed ((s.rememberLongTerm ticker (·.markAlerted action price time)).saveLongTermColumns ticker
      (longTermAlertColumns action price time)) := by
  have hup : Holds LongTermTickerRow.load? .new
      (upsertColumns s.tickerStateLongTerm (.blank ticker.toUpper) (longTermAlertColumns action price time))
      (s.longTermCorrelator.update ticker (·.markAlerted action price time)) :=
    h.longTerm.upsert (by rfl) (load_longTermBlank _) fun r state hload => load_longTermAlertColumns hp hload
  have hmark : ((s.longTermCorrelator.getOrCreate ticker).markAlerted action price time).Storable :=
    ⟨(h.storable ticker).fair, (h.storable ticker).year⟩
  exact ⟨h.intraday, hup, Correlator.forall_update h.storable hmark⟩

end Filed

/-! ## A whole message -/

/-- The upserts of the state database. -/
def Label.saves : Label → Bool
  | .saveRow .. | .saveAlert .. => true
  | _ => false

def SameTables (s t : World) : Prop := t.tickerState = s.tickerState ∧ t.tickerStateLongTerm = s.tickerStateLongTerm

/-- Only an upsert changes the state database. -/
def SavesOnly (l : Label) (s t : World) : Prop := l.saves = false → SameTables s t

section Rules

variable {s : World}

theorem savesOnly_same (l : Label) : SavesOnly l s s := fun _ => ⟨rfl, rfl⟩

theorem Filed.publish (h : Filed s) (payload : Payload) : Filed (s.publish payload) := by
  simp only [World.publish]
  split
  · exact h.congr rfl rfl rfl rfl
  · exact h.congr rfl rfl rfl rfl

theorem savesOnly_publish (payload : Payload) : SavesOnly (.publish payload) s (s.publish payload) := by
  intro _
  simp only [World.publish]
  split <;> exact ⟨rfl, rfl⟩

theorem wp_filed_deliverAlert (a : Alert) (h : Filed s) :
    wp (.quiet SavesOnly) (deliverAlert a) (fun _ => Filed) Filed s := by
  refine wp_bind (wp_quiet_call (fun _ => ⟨rfl, rfl⟩) (wp_bind (wp_quiet_write (fun _ => ⟨rfl, rfl⟩) (wp_bind
    (wp_quiet_call (savesOnly_publish _) ?_)))))
  have hpublished : Filed (World.publish (Alert.dump (a.withOutboxId (makeOutboxId a)))
      { (s.consult).enqueue (makeOutboxId a) (Alert.dump (a.withOutboxId (makeOutboxId a)))
          (outboxId_payload a (makeOutboxId a)) (s.env.clock s.consulted) with
        dispatched := s.dispatched ++ [a] }) := by
    apply Filed.publish
    exact h.congr rfl rfl rfl rfl
  split
  · exact wp_bind (wp_bind (wp_quiet_call (fun _ => ⟨rfl, rfl⟩) (wp_quiet_write (fun _ => ⟨rfl, rfl⟩)
      (hpublished.congr rfl rfl rfl rfl))))
  · exact hpublished

theorem wp_filed_recordSuppressed {ticker : String} {reason : SuppressionReason} {horizon : Horizon} (h : Filed s) :
    wp (.quiet SavesOnly) (recordSuppressed ticker reason horizon) (fun _ => Filed) Filed s :=
  wp_bind (wp_quiet_call (fun _ => ⟨rfl, rfl⟩) (wp_quiet_write (fun _ => ⟨rfl, rfl⟩) (h.congr rfl rfl rfl rfl)))

theorem wp_filed_conclude {ticker : String} {e : Evaluation (ActionableAlert PyFloat)} (h : Filed s)
    (hprice : ∀ a, e = .alert a → a.triggeringSignal.price.finite = true) :
    wp (.quiet SavesOnly) (conclude ticker e) (fun _ => Filed) Filed s := by
  cases e with
  | alert a =>
    refine wp_then (wp_filed_deliverAlert (.intraday a) h) fun _ t ht => ?_
    refine wp_bind (wp_quiet_write (fun _ => ⟨rfl, rfl⟩) (wp_quiet_write nofun ?_))
    exact ht.alert (hprice a rfl)
  | suppressed reason => exact wp_filed_recordSuppressed h
  | zeroDivision => exact h

theorem wp_filed_concludeLongTerm {ticker : String} {e : Evaluation (LongTermActionableAlert PyFloat)} (h : Filed s)
    (hprice : ∀ a, e = .alert a → a.marketPrice.finite = true) :
    wp (.quiet SavesOnly) (concludeLongTerm ticker e) (fun _ => Filed) Filed s := by
  cases e with
  | alert a =>
    refine wp_then (wp_filed_deliverAlert (.longTerm a) h) fun _ t ht => ?_
    refine wp_bind (wp_quiet_write (fun _ => ⟨rfl, rfl⟩) (wp_quiet_write nofun ?_))
    exact ht.longTermAlert (hprice a rfl)
  | suppressed reason => exact wp_filed_recordSuppressed h
  | zeroDivision => exact h

theorem wp_filed_receive {cfg : CoreConfig} {x : Intraday} (h : Filed s) (hx : ∀ y ∈ x.numbers, y.finite = true) :
    wp (.quiet SavesOnly) (receive cfg x.ticker x.apply x.columns) (fun _ => Filed) Filed s := by
  refine wp_bind (wp_quiet_call (fun _ => ⟨rfl, rfl⟩) (wp_bind (wp_quiet_write (fun _ => ⟨rfl, rfl⟩) (wp_bind
    (wp_quiet_write nofun ?_)))))
  have hsaved : Filed ((s.consult.remember x.ticker (x.apply (s.reading 0))).saveColumns x.ticker
      (x.columns (s.reading 0))) := Filed.receive (h.congr rfl rfl rfl rfl) hx
  refine wp_bind (wp_quiet_call (fun _ => ⟨rfl, rfl⟩) (wp_bind (wp_quiet_call (fun _ => ⟨rfl, rfl⟩) (wp_bind
    (wp_quiet_read (savesOnly_same _) (wp_filed_conclude (hsaved.congr rfl rfl rfl rfl) ?_))))))
  intro a ha
  obtain ⟨signal, report, action, hsignal, -, -, -, -, -, rfl⟩ := evaluate_eq_alert ha
  exact hsaved.intradayPrice hsignal

theorem wp_filed_receiveLongTerm {cfg : CoreConfig} {x : LongTerm} (h : Filed s)
    (hx : (Received.longTerm x).Storable) :
    wp (.quiet SavesOnly) (receiveLongTerm cfg x.ticker (x.apply cfg) x.columns) (fun _ => Filed) Filed s := by
  refine wp_bind (wp_quiet_call (fun _ => ⟨rfl, rfl⟩) (wp_bind (wp_quiet_write (fun _ => ⟨rfl, rfl⟩) (wp_bind
    (wp_quiet_write nofun (wp_bind ?_))))))
  have hstate : (s.consult.longTermCorrelator.update x.ticker (x.apply cfg (s.reading 0))).getOrCreate x.ticker =
      x.updated cfg s := Correlator.getOrCreate_update_self
  have hyear : (x.updated cfg s).lastStreakFiscalYear.all fitsInteger = true := (h.storable_updated hx x.ticker).year
  refine wp_quiet_txn (fun a t ht => ⟨nofun, ?_⟩) fun hnone => ?_
  · rw [saveStopState_eq, if_pos (hstate ▸ hyear)] at ht
    obtain ⟨-, rfl⟩ := Prod.mk.inj (Option.some.inj ht)
    have hsaved : Filed (((s.consult.rememberLongTerm x.ticker (x.apply cfg (s.reading 0))).saveLongTermColumns x.ticker
        (x.columns (s.reading 0))).saveLongTermColumns x.ticker (stopStateColumns (x.updated cfg s))) :=
      Filed.receiveLongTerm (h.congr rfl rfl rfl rfl) hx
    rw [← hstate] at hsaved
    refine wp_bind (wp_quiet_call (fun _ => ⟨rfl, rfl⟩) (wp_bind (wp_quiet_call (fun _ => ⟨rfl, rfl⟩) (wp_bind
      (wp_quiet_read (savesOnly_same _) (wp_filed_concludeLongTerm (hsaved.congr rfl rfl rfl rfl) ?_))))))
    intro a ha
    obtain ⟨signal, report, action, hsignal, -, -, -, -, rfl⟩ := evaluateLongTerm_eq_alert ha
    exact (hsaved.longTermNumbers x.ticker).1 signal hsignal
  · rw [saveStopState_eq, if_pos (hstate ▸ hyear)] at hnone
    cases hnone

theorem wp_filed_job {cfg : CoreConfig} {x : Received} (h : Filed s) (hx : x.Storable) :
    wp (.quiet SavesOnly) (x.job cfg) (fun _ => Filed) Filed s := by
  cases x with
  | dropped => exact h
  | unreadable => exact h
  | intraday x => exact wp_filed_receive h hx
  | longTerm x => exact wp_filed_receiveLongTerm h hx

end Rules

/-! ## Runs -/

variable {P : Type}

/-- How many upserts were committed. -/
def saves (es : List (Event Label World)) : ℕ := (es.filter fun e => e.fault = .none && e.lbl.saves).length

/-- The process goes down before, after or between two calls, no call raises by itself, and none or all of the upserts of
the message are committed. -/
structure Whole (cfg : CoreConfig) (s : World) (x : Received) (es : List (Event Label World)) : Prop where
  storable : x.Storable
  cuts : ∀ e ∈ es, e.fault ≠ .raise
  whole : saves es = 0 ∨ saves es = saves (exec (x.job cfg) [] s).1

theorem sameTables_of_saves {s t : World} {p : Job Unit} {es : List (Event Label World)} {o : Outcome Unit}
    (h : Exec p s es t o) (hkept : ∀ e ∈ es, e.fault = .none → SavesOnly e.lbl e.pre e.post) (hs : saves es = 0) :
    SameTables s t := by
  refine (h.later (fun _ => ⟨rfl, rfl⟩) (fun h h' => ⟨h'.1.trans h.1, h'.2.trans h.2⟩)
    fun e he hf => hkept e he hf ?_).1
  have hnone := List.filter_eq_nil_iff.1 (List.length_eq_zero_iff.1 hs) e he
  simpa [hf] using hnone

theorem saves_append (es fs : List (Event Label World)) : saves (es ++ fs) = saves es + saves fs := by
  simp [saves]

/-- The states that a restart from `t` finds are those in the memory of `s`. -/
def Recovers (t s : World) : Prop :=
  ∃ u, t.reload = some u ∧ (∀ k, u.correlator.getOrCreate k = s.correlator.getOrCreate k) ∧
    ∀ k, u.longTermCorrelator.getOrCreate k = s.longTermCorrelator.getOrCreate k

/-- A restart reads the tables only. -/
theorem Filed.restart {s t : World} (h : Filed s) (ht : SameTables s t) :
    (∃ u, t.reload = some u ∧ Filed u) ∧ Recovers t s := by
  obtain ⟨c, hc, hholds, hsame⟩ := h.intraday.load
  obtain ⟨c', hc', hholds', hsame'⟩ := h.longTerm.load
  have hreload : t.reload = some { t with correlator := c, longTermCorrelator := c' } := by
    rw [World.reload, loadInto, ht.1, hc, Option.bind_some, loadIntoLongTerm, ht.2, hc', Option.map_some]
  refine ⟨⟨_, hreload, ?_, ?_, fun k => ?_⟩, ⟨_, hreload, hsame, hsame'⟩⟩
  · exact ht.1 ▸ hholds
  · exact ht.2 ▸ hholds'
  · exact hsame' k ▸ h.storable k

/-- At every cut of a message a restart finds the states before the message, or after it. -/
theorem Filed.cut {cfg : CoreConfig} {x : Received} {s t : World} {es : List (Event Label World)} {o : Outcome Unit}
    (h : Filed s) (hx : Exec (x.job cfg) s es t o) (hw : Whole cfg s x es) :
    (o ≠ .crashed → Filed t) ∧ (∃ u, t.reload = some u ∧ Filed u) ∧
      (Recovers t s ∨ Recovers t (exec (x.job cfg) [] s).2.1) := by
  obtain ⟨hkept, hend⟩ := wp_quiet (@wp_filed_job s cfg x h hw.storable)
  have hfiled : Filed (exec (x.job cfg) [] s).2.1 := by
    rcases hend with ⟨a, -, hf⟩ | ⟨-, hf⟩
    · exact hf
    · exact hf
  rcases hx.resume hw.cuts with ⟨ho, hrun⟩ | ⟨ho, done, l, q, hes, hrun⟩
  · have ht : t = (exec (x.job cfg) [] s).2.1 := by rw [hrun]
    obtain ⟨hup, hrec⟩ := hfiled.restart ⟨congrArg World.tickerState ht, congrArg World.tickerStateLongTerm ht⟩
    exact ⟨fun _ => ht ▸ hfiled, hup, .inr hrec⟩
  · rw [hrun] at hkept
    rcases hw.whole with hnone | hall
    · have hsame : SameTables s t := by
        refine sameTables_of_saves hx (fun e he hf => hkept e (List.mem_append_left _ ?_)) hnone
        rw [hes] at he
        rcases List.mem_append.1 he with he | he
        · exact he
        · rw [List.mem_singleton.1 he] at hf
          cases hf
      obtain ⟨hup, hrec⟩ := h.restart hsame
      exact ⟨fun hne => absurd ho hne, hup, .inl hrec⟩
    · have hrest : saves (exec q [] t).1 = 0 := by
        rw [hes, hrun, saves_append, saves_append] at hall
        have hcrash : saves [⟨l, t, t, .crash⟩] = 0 := rfl
        omega
      have hsame : SameTables t (exec (x.job cfg) [] s).2.1 := by
        rw [hrun]
        exact sameTables_of_saves (exec_sound q [] t) (fun e he _ => hkept e (List.mem_append_right _ he)) hrest
      obtain ⟨hup, hrec⟩ := hfiled.restart ⟨hsame.1.symm, hsame.2.symm⟩
      exact ⟨fun hne => absurd ho hne, hup, .inr hrec⟩

/-- What holds of the states of a life: up, the database loads to the memory; down, a restart will make it so. -/
theorem Life.filed {cfg : CoreConfig} {v : Validators P} {env : Environment} {log : Log} {up : Bool}
    {s : World} (h : Life cfg v (Whole cfg) env log up s) : (up = true → Filed s) ∧ ∃ u, s.reload = some u ∧ Filed u := by
  induction h with
  | new =>
    have hempty : Filed (World.empty env) :=
      ⟨⟨fun _ hr => (List.not_mem_nil hr).elim, fun _ => rfl⟩, ⟨fun _ hr => (List.not_mem_nil hr).elim, fun _ => rfl⟩,
        fun _ => ⟨rfl, rfl⟩⟩
    exact ⟨nofun, (hempty.restart ⟨rfl, rfl⟩).1⟩
  | boot _ hx ih =>
    obtain ⟨u, hu, hfiled⟩ := ih.2
    obtain rfl := Option.some.inj (hu.symm.trans (reload_of_boot hx))
    exact ⟨fun _ => hfiled, (hfiled.restart ⟨rfl, rfl⟩).1⟩
  | message m _ hx hw ih =>
    obtain ⟨hfiled, hup, -⟩ := (ih.1 rfl).cut (handleMessage_eq cfg v m ▸ hx) hw
    exact ⟨fun ho => hfiled (of_decide_eq_true ho), hup⟩
  | flush _ hx ih =>
    have hbeside := beside_flush hx
    have hfiled := (ih.1 rfl).congr hbeside.correlator hbeside.longTermCorrelator hbeside.tickerState
      hbeside.tickerStateLongTerm
    exact ⟨fun _ => hfiled, (hfiled.restart ⟨rfl, rfl⟩).1⟩
  | stop _ ih => exact ⟨nofun, ih.2⟩

/-- In every life of the process whose messages can be stored and are cut off before their first upsert or after their
last: wherever it goes down while it handles a message, the restart succeeds and finds, for every ticker and both
horizons, the state before the message, or the state after the whole message. -/
theorem restart_transparent {cfg : CoreConfig} {v : Validators P} {env : Environment} {log : Log} {s t : World}
    {m : Message P} {es : List (Event Label World)} {o : Outcome Unit} (h : Life cfg v (Whole cfg) env log true s)
    (hx : Exec (handleMessage cfg v m) s es t o) (hw : Whole cfg s (received v m) es) :
    Recovers t s ∨ Recovers t (exec (handleMessage cfg v m) [] s).2.1 := by
  rw [handleMessage_eq] at hx ⊢
  exact ((h.filed.1 rfl).cut hx hw).2.2

/-! ### Two lives -/

/-- The process goes down in front of the first upsert of a report. -/
theorem restart_transparent_sample :
    let run := exec (handleMessage intradayOnly documents (reportMessage (.fin 100))) [.none, .none, .crash] afterSignal
    run.2.2 = .crashed ∧ (Recovers run.2.1 afterSignal ∨
      Recovers run.2.1 (exec (handleMessage intradayOnly documents (reportMessage (.fin 100))) [] afterSignal).2.1) := by
  intro run
  have hlife : Life intradayOnly documents (Whole intradayOnly) slowly signalLog true afterSignal := by
    refine life_afterSignal ⟨?_, fun e he hf => ?_, .inr ?_⟩
    · show ∀ y ∈ (buySignal (.fin 100)).numbers, y.finite = true
      decide
    · exact nomatch (fault_exec_nil _ _ e he).symm.trans hf
    · rw [handleMessage_eq]
  refine ⟨by decide +kernel, restart_transparent hlife (exec_sound _ _ afterSignal) ⟨?_, ?_, .inl (by decide +kernel)⟩⟩
  · show ∀ y ∈ (buyReport (.fin 100)).numbers, y.finite = true
    decide
  · decide +kernel

/-- The process goes down between the two upserts of a report that led to an alert: the report is there, and the alert is
forgotten. -/
theorem cut_loses_alert : ¬ ∀ (P : Type) (cfg : CoreConfig) (v : Validators P) (env : Environment) (log : Log)
    (s t : World) (m : Message P) (es : List (Event Label World)) (o : Outcome Unit),
    Life cfg v (fun _ _ es => ∀ e ∈ es, e.fault ≠ .raise) env log true s → Exec (handleMessage cfg v m) s es t o →
    (∀ e ∈ es, e.fault ≠ .raise) → Recovers t s ∨ Recovers t (exec (handleMessage cfg v m) [] s).2.1 := by
  intro hall
  have hlife : Life intradayOnly documents (fun _ _ es => ∀ e ∈ es, e.fault ≠ .raise) slowly signalLog true afterSignal :=
    life_afterSignal fun e he hf => nomatch (fault_exec_nil _ _ e he).symm.trans hf
  have hrecovers := hall Document intradayOnly documents slowly _ afterSignal _ (reportMessage (.fin 100)) _ _ hlife
    (exec_sound _ (List.replicate 12 .none ++ [.crash]) afterSignal) (by decide +kernel)
  have hloaded : ((exec (handleMessage intradayOnly documents (reportMessage (.fin 100)))
      (List.replicate 12 .none ++ [.crash]) afterSignal).2.1.reload.map fun u =>
        ((u.correlator.getOrCreate "AAA").latestReport.isSome, (u.correlator.getOrCreate "AAA").lastAlertAt.isSome)) =
      some (true, false) := by decide +kernel
  rcases hrecovers with ⟨u, hu, hsame, -⟩ | ⟨u, hu, hsame, -⟩
  · have hbefore : (afterSignal.correlator.getOrCreate "AAA").latestReport.isSome = false := by decide +kernel
    rw [hu, Option.map_some, hsame, hbefore] at hloaded
    cases hloaded
  · have hafter : ((exec (handleMessage intradayOnly documents (reportMessage (.fin 100))) []
        afterSignal).2.1.correlator.getOrCreate "AAA").lastAlertAt.isSome = true := by decide +kernel
    rw [hu, Option.map_some, hsame, hafter] at hloaded
    have hforgotten : true = false := congrArg Prod.snd (Option.some.inj hloaded)
    cases hforgotten

end TalonX.Core
