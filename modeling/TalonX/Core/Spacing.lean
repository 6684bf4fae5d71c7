import TalonX.Core.Arrival
import Mathlib.Algebra.Order.Field.Rat
import Mathlib.Data.Int.ConditionallyCompleteOrder
import Mathlib.Data.List.Chain

/-!
# The spacing of alerts

The gates of `evaluateVerbose` read the last alert of the ticker, which is written after the publish: first in memory,
then in the database.

- `World.alertsOf`: the alerts of a ticker and horizon; `Spaced`: what the gates ask of two that follow each other;
- `Marked`, `Saved`: the memory and the database carry the last alert;
- `Paired`: the signal and the report of an alert arrived within the correlation window;
- `alerts_spaced`: in every life that is disturbed only where `Saved` holds;
- `unsaved_alert_repeated`: a crash in front of `save_alert`.
-/

set_option autoImplicit false

namespace TalonX.Core

open Transact V2

/-! ## Last alerts -/

/-- The three fields that the gates read. -/
structure LastAlert where
  time : Option Instant
  action : Option AlertAction
  price : Option PyFloat
  deriving DecidableEq

def LastAlert.never : LastAlert := ⟨none, none, none⟩

def AlertOf.last (a : Alert) : LastAlert := ⟨some a.correlatedAt, some a.action, some a.price⟩

def TickerState.last (state : TickerState) : LastAlert :=
  ⟨state.lastAlertAt, state.lastAlertAction, state.lastAlertPrice⟩

def LongTermTickerState.last (state : LongTermTickerState) : LastAlert :=
  ⟨state.lastAlertAt, state.lastAlertAction, state.lastAlertPrice⟩

def TickerRow.last (r : TickerRow) : LastAlert := ⟨r.lastAlertAt, r.lastAlertAction, r.lastAlertPrice⟩

def LongTermTickerRow.last (r : LongTermTickerRow) : LastAlert := ⟨r.lastAlertAt, r.lastAlertAction, r.lastAlertPrice⟩

namespace World

/-- The alerts of a ticker on a horizon, in the order of their dispatch. -/
def alertsOf (s : World) (horizon : Horizon) (ticker : String) : List Alert :=
  s.dispatched.filter fun a => a.kind = horizon && a.ticker.toUpper = ticker.toUpper

def lastDispatched (s : World) (horizon : Horizon) (ticker : String) : LastAlert :=
  (s.alertsOf horizon ticker).getLast?.elim .never AlertOf.last

def lastInMemory (s : World) : Horizon → String → LastAlert
  | .intraday, ticker => (s.correlator.getOrCreate ticker).last
  | .longTerm, ticker => (s.longTermCorrelator.getOrCreate ticker).last

def lastOnDisk (s : World) : Horizon → String → LastAlert
  | .intraday, ticker => (s.tickerState.get ticker.toUpper).elim .never TickerRow.last
  | .longTerm, ticker => (s.tickerStateLongTerm.get ticker.toUpper).elim .never LongTermTickerRow.last

end World

/-- The memory carries the last alert of every ticker. -/
def Marked (s : World) : Prop := s.lastInMemory = s.lastDispatched

/-- The database carries the last alert of every ticker. -/
def Saved (s : World) : Prop := s.lastOnDisk = s.lastDispatched

/-- `l` with another last alert for the ticker of `a`. -/
def amend (a : Alert) (l : Horizon → String → LastAlert) (horizon : Horizon) (ticker : String) : LastAlert :=
  if a.kind = horizon ∧ a.ticker.toUpper = ticker.toUpper then a.last else l horizon ticker

section Last

variable {s : World} {a : Alert} {ticker : String}

theorem alertsOf_dispatch {horizon : Horizon} :
    World.alertsOf { s with dispatched := s.dispatched ++ [a] } horizon ticker =
      s.alertsOf horizon ticker ++ if a.kind = horizon ∧ a.ticker.toUpper = ticker.toUpper then [a] else [] := by
  simp only [World.alertsOf, List.filter_append, List.filter_cons, List.filter_nil, Bool.and_eq_true,
    decide_eq_true_eq]

theorem lastDispatched_dispatch :
    World.lastDispatched { s with dispatched := s.dispatched ++ [a] } = amend a s.lastDispatched := by
  funext horizon ticker
  rw [World.lastDispatched, alertsOf_dispatch, amend]
  split
  · rw [List.getLast?_concat, Option.elim_some]
  · rw [List.append_nil, World.lastDispatched]

/-- A change in memory that leaves the last alert alone. -/
theorem last_update {α : Type} (last : α → LastAlert) {c : Correlator α} {f : α → α}
    (hf : ∀ state, last (f state) = last state) (k : String) :
    last ((c.update ticker f).getOrCreate k) = last (c.getOrCreate k) := by
  rw [Correlator.getOrCreate_update]
  split
  · rename_i hk
    rw [hf, Correlator.getOrCreate, Correlator.getOrCreate, hk]
  · rfl

theorem last_update_eq {α : Type} (last : α → LastAlert) (l : LastAlert) {c : Correlator α} {f : α → α}
    (hf : ∀ state, last (f state) = l) (k : String) :
    last ((c.update ticker f).getOrCreate k) = if ticker.toUpper = k.toUpper then l else last (c.getOrCreate k) := by
  rw [Correlator.getOrCreate_update]
  by_cases hk : ticker.toUpper = k.toUpper
  · rw [if_pos hk, if_pos hk.symm]
    exact hf _
  · rw [if_neg hk, if_neg (Ne.symm hk)]

/-- An upsert that leaves the columns of the last alert alone. -/
theorem last_upsert {ρ : Type} {key : ρ → String} (last : ρ → LastAlert) {t : Table key} {blank : ρ}
    {w : ColumnWrite ρ key} (hblank : last blank = .never) (hw : ∀ r, last (w.set r) = last r) (k : String) :
    ((upsertColumns t blank w).get k).elim .never last = (t.get k).elim .never last := by
  rw [get_upsertColumns]
  split
  · rw [Option.elim_some, hw]
    cases t.get k with
    | none => exact hblank
    | some r => rfl
  · rfl

theorem last_upsert_eq {ρ : Type} {key : ρ → String} (last : ρ → LastAlert) (l : LastAlert) {t : Table key} {blank : ρ}
    {w : ColumnWrite ρ key} (hw : ∀ r, last (w.set r) = l) (k : String) :
    ((upsertColumns t blank w).get k).elim .never last =
      if key blank = k then l else (t.get k).elim .never last := by
  rw [get_upsertColumns]
  by_cases hk : key blank = k
  · rw [if_pos hk, if_pos hk.symm]
    exact hw _
  · rw [if_neg hk, if_neg (Ne.symm hk)]

theorem lastInMemory_remember {f : TickerState → TickerState} (hf : ∀ state, (f state).last = state.last) :
    (s.remember ticker f).lastInMemory = s.lastInMemory := by
  funext horizon k
  cases horizon with
  | intraday => exact last_update _ hf k
  | longTerm => rfl

theorem lastInMemory_rememberLongTerm {f : LongTermTickerState → LongTermTickerState}
    (hf : ∀ state, (f state).last = state.last) :
    (s.rememberLongTerm ticker f).lastInMemory = s.lastInMemory := by
  funext horizon k
  cases horizon with
  | intraday => rfl
  | longTerm => exact last_update _ hf k

theorem lastOnDisk_saveColumns {w : ColumnWrite TickerRow TickerRow.ticker} (hw : ∀ r, (w.set r).last = r.last) :
    (s.saveColumns ticker w).lastOnDisk = s.lastOnDisk := by
  funext horizon k
  cases horizon with
  | intraday => exact last_upsert _ (by rfl) hw k.toUpper
  | longTerm => rfl

theorem lastOnDisk_saveLongTermColumns {w : ColumnWrite LongTermTickerRow LongTermTickerRow.ticker}
    (hw : ∀ r, (w.set r).last = r.last) : (s.saveLongTermColumns ticker w).lastOnDisk = s.lastOnDisk := by
  funext horizon k
  cases horizon with
  | intraday => rfl
  | longTerm => exact last_upsert _ (by rfl) hw k.toUpper

theorem lastOnDisk_remember (ticker : String) (f : TickerState → TickerState) :
    (s.remember ticker f).lastOnDisk = s.lastOnDisk := by
  funext horizon k
  cases horizon <;> rfl

theorem lastOnDisk_rememberLongTerm (ticker : String) (f : LongTermTickerState → LongTermTickerState) :
    (s.rememberLongTerm ticker f).lastOnDisk = s.lastOnDisk := by
  funext horizon k
  cases horizon <;> rfl

theorem lastInMemory_saveColumns (ticker : String) (w : ColumnWrite TickerRow TickerRow.ticker) :
    (s.saveColumns ticker w).lastInMemory = s.lastInMemory := by
  funext horizon k
  cases horizon <;> rfl

theorem lastInMemory_saveLongTermColumns (ticker : String) (w : ColumnWrite LongTermTickerRow LongTermTickerRow.ticker) :
    (s.saveLongTermColumns ticker w).lastInMemory = s.lastInMemory := by
  funext horizon k
  cases horizon <;> rfl

end Last

/-! ### `mark_alerted` and `save_alert` -/

/-- `mark_alerted`, for the ticker of the message. -/
def World.mark (s : World) (ticker : String) (a : Alert) : World :=
  match a with
  | .intraday a => s.remember ticker (·.markAlerted a.action a.triggeringSignal.price a.correlatedAt)
  | .longTerm a => s.rememberLongTerm ticker (·.markAlerted a.action a.marketPrice a.correlatedAt)

/-- `save_alert`, `save_long_term_alert`. -/
def World.saveAlert (s : World) (ticker : String) (a : Alert) : World :=
  match a with
  | .intraday a => s.saveColumns ticker (alertColumns a.action a.triggeringSignal.price a.correlatedAt)
  | .longTerm a => s.saveLongTermColumns ticker (longTermAlertColumns a.action a.marketPrice a.correlatedAt)

section Mark

variable {s : World} {a : Alert} {ticker : String}

theorem lastInMemory_mark (h : a.ticker.toUpper = ticker.toUpper) :
    (s.mark ticker a).lastInMemory = amend a s.lastInMemory := by
  funext horizon k
  rw [amend, h]
  cases a with
  | intraday a =>
    cases horizon with
    | intraday =>
      refine (last_update_eq TickerState.last (AlertOf.last (.intraday a)) (fun _ => by rfl) k).trans ?_
      simp [AlertOf.kind]
      rfl
    | longTerm => rfl
  | longTerm a =>
    cases horizon with
    | intraday => rfl
    | longTerm =>
      refine (last_update_eq LongTermTickerState.last (AlertOf.last (.longTerm a)) (fun _ => by rfl) k).trans ?_
      simp [AlertOf.kind]
      rfl

/-- A price that is a number is stored as it is. -/
theorem lastOnDisk_saveAlert (h : a.ticker.toUpper = ticker.toUpper) (hp : a.price.finite = true) :
    (s.saveAlert ticker a).lastOnDisk = amend a s.lastOnDisk := by
  have hreal : a.price.toReal = some a.price := PyFloat.toReal_of_finite hp
  funext horizon k
  rw [amend, h]
  cases a with
  | intraday a =>
    have hset : ∀ r, TickerRow.last ((alertColumns a.action a.triggeringSignal.price a.correlatedAt).set r) =
        AlertOf.last (.intraday a) := fun r => congrArg (LastAlert.mk _ _) hreal
    cases horizon with
    | intraday =>
      refine (last_upsert_eq TickerRow.last (AlertOf.last (.intraday a)) hset k.toUpper).trans ?_
      simp [AlertOf.kind]
      rfl
    | longTerm => rfl
  | longTerm a =>
    have hset : ∀ r, LongTermTickerRow.last ((longTermAlertColumns a.action a.marketPrice a.correlatedAt).set r) =
        AlertOf.last (.longTerm a) := fun r => congrArg (LastAlert.mk _ _) hreal
    cases horizon with
    | intraday => rfl
    | longTerm =>
      refine (last_upsert_eq LongTermTickerRow.last (AlertOf.last (.longTerm a)) hset k.toUpper).trans ?_
      simp [AlertOf.kind]
      rfl

end Mark

/-! ## Two alerts that follow each other -/

def CoreConfig.cooldown (cfg : CoreConfig) : Horizon → ℤ
  | .intraday => cfg.tickerCooldown
  | .longTerm => cfg.tickerCooldownLongTerm

def CoreConfig.retriggerPct (cfg : CoreConfig) : Horizon → ℚ
  | .intraday => cfg.priceDeltaRetriggerPct
  | .longTerm => cfg.priceDeltaRetriggerPctLongTerm

/-- `b` comes after `a`: unless it is related to earnings, by the cooldown at least, and for the same action with a price
that has moved by the given part of the earlier one. -/
def Spaced (cfg : CoreConfig) (a b : Alert) : Prop :=
  b.isEarningsRelated = false →
    cfg.cooldown b.kind ≤ b.correlatedAt - a.correlatedAt ∧
    (a.action = b.action →
      ∃ p q : ℚ, a.price = .fin p ∧ b.price = .fin q ∧ cfg.retriggerPct b.kind * |p| ≤ |q - p|)

theorem le_of_unmoved {p q limit : ℚ} (h : unmoved? (.fin q) (.fin p) limit = some false) : limit * |p| ≤ |q - p| := by
  have hp : p ≠ 0 := by
    rintro rfl
    cases h
  have hmove : limit ≤ |q - p| / p := by
    simpa [unmoved?, PyFloat.sub, PyFloat.abs, PyFloat.div?_fin hp, PyFloat.lt] using h
  rcases lt_or_gt_of_ne hp with hneg | hpos
  · have hlimit : limit ≤ 0 := hmove.trans (div_nonpos_of_nonneg_of_nonpos (abs_nonneg _) hneg.le)
    exact (mul_nonpos_of_nonpos_of_nonneg hlimit (abs_nonneg p)).trans (abs_nonneg _)
  · rw [abs_of_pos hpos]
    exact (le_div_iff₀ hpos).1 hmove

/-- The gates are passed with the last alert `a` in their fields. -/
theorem spaced_of_gates {cfg : CoreConfig} {a b : Alert} {now : Instant} (hnow : now ≤ b.correlatedAt)
    (ha : a.price.finite = true) (hb : b.price.finite = true)
    (h : b.isEarningsRelated = false → inCooldown a.last.time now (cfg.cooldown b.kind) = false ∧
      ∀ last ∈ repeatOf b.action a.last.action a.last.price,
        unmoved? b.price last (cfg.retriggerPct b.kind) = some false) : Spaced cfg a b := by
  intro hearnings
  obtain ⟨hcooldown, hrepeat⟩ := h hearnings
  constructor
  · have hwait : cfg.cooldown b.kind ≤ now - a.correlatedAt := by
      simpa [inCooldown, AlertOf.last] using hcooldown
    exact hwait.trans (sub_le_sub_right hnow _)
  · intro haction
    obtain ⟨p, hp⟩ := PyFloat.exists_of_finite ha
    obtain ⟨q, hq⟩ := PyFloat.exists_of_finite hb
    refine ⟨p, q, hp, hq, le_of_unmoved ?_⟩
    rw [← hq]
    apply hrepeat
    simp [repeatOf, AlertOf.last, haction, hp]

/-- The alert was made at the reading `n + 1` of the clock from a signal and a report that arrived within the window
before the reading `n`. -/
def Paired (cfg : CoreConfig) (env : Environment) (log : Log) : Alert → Prop
  | .intraday a => ∃ n state signal report action t t', buildAlert state signal report action (env.clock (n + 1)) = a ∧
      signalWire.Arrived log signal t ∧ env.clock n - t ≤ cfg.correlationWindow ∧
      reportWire.Arrived log report t' ∧ env.clock n - t' ≤ cfg.correlationWindow
  | .longTerm a => ∃ n state signal report action t t',
      buildLongTermAlert cfg state signal report action (env.clock (n + 1)) = a ∧
      fundamentalWire.Arrived log signal t ∧ env.clock n - t ≤ cfg.correlationWindowLongTerm ∧
      longTermReportWire.Arrived log report t' ∧ env.clock n - t' ≤ cfg.correlationWindowLongTerm

theorem Wire.Arrived.mono {α β : Type} {w : Wire α β} {log log' : Log} {x : α} {t : Instant} (h : w.Arrived log x t)
    (hl : log ⊆ log') : w.Arrived log' x t := by
  obtain ⟨y, hy, hrest⟩ := h
  exact ⟨y, hl hy, hrest⟩

theorem Paired.mono {cfg : CoreConfig} {env : Environment} {log log' : Log} {a : Alert} (h : Paired cfg env log a)
    (hl : log ⊆ log') : Paired cfg env log' a := by
  cases a with
  | intraday a =>
    obtain ⟨n, state, signal, report, action, t, t', ha, hs, hw, hr, hw'⟩ := h
    exact ⟨n, state, signal, report, action, t, t', ha, hs.mono hl, hw, hr.mono hl, hw'⟩
  | longTerm a =>
    obtain ⟨n, state, signal, report, action, t, t', ha, hs, hw, hr, hw'⟩ := h
    exact ⟨n, state, signal, report, action, t, t', ha, hs.mono hl, hw, hr.mono hl, hw'⟩

theorem le_of_isFresh {w : Option Instant} {t now : Instant} {window : ℤ} (ht : t ∈ w) (h : isFresh w now window = true) :
    now - t ≤ window := by
  obtain rfl := Option.mem_def.1 ht
  simpa [isFresh] using h

/-! ## The invariant -/

/-- What survives the process: the alerts so far and what the database keeps. -/
structure Ordered (cfg : CoreConfig) (env : Environment) (log : Log) (s : World) : Prop where
  outside : s.env = env
  spaced : ∀ horizon ticker, (s.alertsOf horizon ticker).IsChain (Spaced cfg)
  paired : ∀ a ∈ s.dispatched, Paired cfg env log a
  priced : ∀ a ∈ s.dispatched, a.price.finite = true
  kept : Kept log s

/-- While the process runs, the memory carries the last alert wherever the database does. -/
structure Awake (cfg : CoreConfig) (env : Environment) (log : Log) (s : World) : Prop extends
    Ordered cfg env log s where
  held : Held log s
  marked : Saved s → Marked s

namespace Beside

variable {s t : World}

theorem lastInMemory (h : Beside s t) : t.lastInMemory = s.lastInMemory := by
  funext horizon k
  cases horizon with
  | intraday => simp only [World.lastInMemory, h.correlator]
  | longTerm => simp only [World.lastInMemory, h.longTermCorrelator]

theorem lastOnDisk (h : Beside s t) : t.lastOnDisk = s.lastOnDisk := by
  funext horizon k
  cases horizon with
  | intraday => simp only [World.lastOnDisk, h.tickerState]
  | longTerm => simp only [World.lastOnDisk, h.tickerStateLongTerm]

theorem alertsOf (h : Beside s t) (horizon : Horizon) (k : String) : t.alertsOf horizon k = s.alertsOf horizon k := by
  simp only [World.alertsOf, h.dispatched]

theorem lastDispatched (h : Beside s t) : t.lastDispatched = s.lastDispatched := by
  funext horizon k
  simp only [World.lastDispatched, h.alertsOf]

theorem saved (h : Beside s t) : Saved t ↔ Saved s := by
  simp only [Saved, h.lastOnDisk, h.lastDispatched]

theorem marked (h : Beside s t) : Marked t ↔ Marked s := by
  simp only [Marked, h.lastInMemory, h.lastDispatched]

end Beside

section Invariant

variable {cfg : CoreConfig} {env : Environment} {log log' : Log} {s t : World}

theorem Ordered.mono (h : Ordered cfg env log s) (hl : log ⊆ log') : Ordered cfg env log' s :=
  ⟨h.outside, h.spaced, fun a ha => (h.paired a ha).mono hl, h.priced, h.kept.mono hl⟩

theorem Awake.mono (h : Awake cfg env log s) (hl : log ⊆ log') : Awake cfg env log' s :=
  ⟨h.toOrdered.mono hl, h.held.mono hl, h.marked⟩

theorem Ordered.beside (h : Ordered cfg env log s) (hb : Beside s t) : Ordered cfg env log t where
  outside := hb.env.trans h.outside
  spaced horizon ticker := hb.alertsOf horizon ticker ▸ h.spaced horizon ticker
  paired := hb.dispatched ▸ h.paired
  priced := hb.dispatched ▸ h.priced
  kept := ⟨hb.tickerState ▸ h.kept.rows, hb.tickerStateLongTerm ▸ h.kept.longTermRows⟩

theorem Awake.beside (h : Awake cfg env log s) (hb : Beside s t) : Awake cfg env log t where
  toOrdered := h.toOrdered.beside hb
  held := ⟨hb.correlator ▸ h.held.memory, hb.longTermCorrelator ▸ h.held.longTermMemory⟩
  marked hs := hb.marked.2 (h.marked (hb.saved.1 hs))

/-- The decision, with an alert that keeps its distance from the last one. -/
theorem Awake.dispatch {a : Alert} (h : Awake cfg env log s) (hs : Saved s) (hp : Paired cfg env log a)
    (hprice : a.price.finite = true)
    (hspaced : ∀ last ∈ (s.alertsOf a.kind a.ticker).getLast?, Spaced cfg last a) :
    Awake cfg env log { s with dispatched := s.dispatched ++ [a] } where
  outside := h.outside
  spaced horizon ticker := by
    rw [alertsOf_dispatch]
    split
    · rename_i hkey
      obtain ⟨rfl, hticker⟩ := hkey
      have hsame : s.alertsOf a.kind ticker = s.alertsOf a.kind a.ticker := by
        simp only [World.alertsOf, hticker]
      rw [hsame]
      refine (h.spaced _ _).append (List.isChain_singleton a) fun last hlast b hb => ?_
      obtain rfl : a = b := by simpa using hb
      exact hspaced last hlast
    · rw [List.append_nil]
      exact h.spaced horizon ticker
  paired b hb := by
    rcases List.mem_append.1 hb with hb | hb
    · exact h.paired b hb
    · rw [List.mem_singleton.1 hb]
      exact hp
  priced b hb := by
    rcases List.mem_append.1 hb with hb | hb
    · exact h.priced b hb
    · rw [List.mem_singleton.1 hb]
      exact hprice
  kept := ⟨h.kept.rows, h.kept.longTermRows⟩
  held := ⟨h.held.memory, h.held.longTermMemory⟩
  marked hnew := by
    -- The database has not changed, so it can carry the new alert only if the memory, which agrees with it, does.
    have hmemory : s.lastInMemory = s.lastDispatched := h.marked hs
    exact (hmemory.trans hs.symm).trans hnew

/-- A message takes its place in memory and leaves the last alert alone. -/
theorem Awake.remember {ticker : String} {f : TickerState → TickerState} (h : Awake cfg env log s)
    (hf : (f (s.correlator.getOrCreate ticker)).Held log ticker.toUpper) (hlast : ∀ state, (f state).last = state.last) :
    Awake cfg env log (s.remember ticker f) where
  outside := h.outside
  spaced := h.spaced
  paired := h.paired
  priced := h.priced
  kept := ⟨h.kept.rows, h.kept.longTermRows⟩
  held := h.held.remember hf
  marked hs := (lastInMemory_remember hlast).trans (h.marked ((lastOnDisk_remember ticker f).symm.trans hs))

theorem Awake.rememberLongTerm {ticker : String} {f : LongTermTickerState → LongTermTickerState}
    (h : Awake cfg env log s) (hf : (f (s.longTermCorrelator.getOrCreate ticker)).Held log ticker.toUpper)
    (hlast : ∀ state, (f state).last = state.last) : Awake cfg env log (s.rememberLongTerm ticker f) where
  outside := h.outside
  spaced := h.spaced
  paired := h.paired
  priced := h.priced
  kept := ⟨h.kept.rows, h.kept.longTermRows⟩
  held := h.held.rememberLongTerm hf
  marked hs := (lastInMemory_rememberLongTerm hlast).trans
    (h.marked ((lastOnDisk_rememberLongTerm ticker f).symm.trans hs))

/-- Likewise in the database. -/
theorem Awake.saveColumns {ticker : String} {w : ColumnWrite TickerRow TickerRow.ticker} (h : Awake cfg env log s)
    (hw : ∀ r, r.Kept log → r.ticker = ticker.toUpper → (w.set r).Kept log) (hlast : ∀ r, (w.set r).last = r.last) :
    Awake cfg env log (s.saveColumns ticker w) where
  outside := h.outside
  spaced := h.spaced
  paired := h.paired
  priced := h.priced
  kept := h.kept.saveColumns hw
  held := ⟨h.held.memory, h.held.longTermMemory⟩
  marked hs := (lastInMemory_saveColumns ticker w).trans (h.marked ((lastOnDisk_saveColumns hlast).symm.trans hs))

theorem Awake.saveLongTermColumns {ticker : String} {w : ColumnWrite LongTermTickerRow LongTermTickerRow.ticker}
    (h : Awake cfg env log s) (hw : ∀ r, r.Kept log → r.ticker = ticker.toUpper → (w.set r).Kept log)
    (hlast : ∀ r, (w.set r).last = r.last) : Awake cfg env log (s.saveLongTermColumns ticker w) where
  outside := h.outside
  spaced := h.spaced
  paired := h.paired
  priced := h.priced
  kept := h.kept.saveLongTermColumns hw
  held := ⟨h.held.memory, h.held.longTermMemory⟩
  marked hs := (lastInMemory_saveLongTermColumns ticker w).trans
    (h.marked ((lastOnDisk_saveLongTermColumns hlast).symm.trans hs))

/-- An alert was decided on; memory and database carry the one before. -/
structure Owing (cfg : CoreConfig) (env : Environment) (log : Log) (a : Alert) (l : Horizon → String → LastAlert)
    (s : World) : Prop where
  awake : Awake cfg env log s
  memory : s.lastInMemory = l
  disk : s.lastOnDisk = l
  dispatched : s.lastDispatched = amend a l

theorem Owing.beside {a : Alert} {l : Horizon → String → LastAlert} (h : Owing cfg env log a l s) (hb : Beside s t) :
    Owing cfg env log a l t :=
  ⟨h.awake.beside hb, hb.lastInMemory.trans h.memory, hb.lastOnDisk.trans h.disk, hb.lastDispatched.trans h.dispatched⟩

theorem Owing.mark {a : Alert} {ticker : String} {l : Horizon → String → LastAlert} (h : Owing cfg env log a l s)
    (ha : a.ticker.toUpper = ticker.toUpper) : Awake cfg env log (s.mark ticker a) where
  outside := by
    cases a <;> exact h.awake.outside
  spaced := by
    cases a <;> exact h.awake.spaced
  paired := by
    cases a <;> exact h.awake.paired
  priced := by
    cases a <;> exact h.awake.priced
  kept := by
    cases a <;> exact ⟨h.awake.kept.rows, h.awake.kept.longTermRows⟩
  held := by
    cases a with
    | intraday a =>
      have hold := h.awake.held.memory ticker
      exact h.awake.held.remember ⟨hold.signal, hold.report⟩
    | longTerm a =>
      have hold := h.awake.held.longTermMemory ticker
      exact h.awake.held.rememberLongTerm ⟨hold.signal, hold.report⟩
  marked _ := by
    have hlast : (s.mark ticker a).lastInMemory = amend a l := h.memory ▸ lastInMemory_mark ha
    rw [Marked, hlast, ← h.dispatched]
    cases a <;> rfl

/-- `save_alert` pays the debt. -/
theorem Owing.save {a : Alert} {ticker : String} {l : Horizon → String → LastAlert} (h : Owing cfg env log a l s)
    (ha : a.ticker.toUpper = ticker.toUpper) (hp : a.price.finite = true) :
    Awake cfg env log ((s.mark ticker a).saveAlert ticker a) ∧ Saved ((s.mark ticker a).saveAlert ticker a) := by
  have hmarked := h.mark ha
  have hmemory : ((s.mark ticker a).saveAlert ticker a).lastInMemory = amend a l := by
    rw [← h.memory, ← lastInMemory_mark ha]
    cases a with
    | intraday a => exact lastInMemory_saveColumns ticker _
    | longTerm a => exact lastInMemory_saveLongTermColumns ticker _
  have hdisk : ((s.mark ticker a).saveAlert ticker a).lastOnDisk = amend a l := by
    rw [lastOnDisk_saveAlert ha hp, ← h.disk]
    cases a with
    | intraday a => exact congrArg _ (lastOnDisk_remember ticker _)
    | longTerm a => exact congrArg _ (lastOnDisk_rememberLongTerm ticker _)
  have hdispatched : ((s.mark ticker a).saveAlert ticker a).lastDispatched = amend a l := by
    rw [← h.dispatched]
    cases a <;> rfl
  refine ⟨?_, hdisk.trans hdispatched.symm⟩
  constructor
  · cases a with
    | intraday a =>
      refine ⟨hmarked.outside, hmarked.spaced, hmarked.paired, hmarked.priced, ?_⟩
      exact hmarked.kept.saveColumns fun r hr _ => ⟨hr.upper, hr.signal, hr.report⟩
    | longTerm a =>
      refine ⟨hmarked.outside, hmarked.spaced, hmarked.paired, hmarked.priced, ?_⟩
      exact hmarked.kept.saveLongTermColumns fun r hr _ => ⟨hr.upper, hr.signal, hr.report⟩
  · cases a <;> exact ⟨hmarked.held.memory, hmarked.held.longTermMemory⟩
  · intro _
    exact hmemory.trans hdispatched.symm

end Invariant

/-! ## What passes the gates -/

section Gates

variable {cfg : CoreConfig} {env : Environment} {log : Log} {s : World}

/-- The alert can be dispatched for the ticker of the message. -/
structure Admissible (cfg : CoreConfig) (env : Environment) (log : Log) (s : World) (ticker : String) (a : Alert) :
    Prop where
  ticker : a.ticker.toUpper = ticker.toUpper
  priced : a.price.finite = true
  paired : Paired cfg env log a
  spaced : ∀ last ∈ (s.alertsOf a.kind a.ticker).getLast?, Spaced cfg last a

/-- What the gates read is the last alert. -/
theorem last_of_marked (h : Marked s) {horizon : Horizon} {ticker k : String} (hk : k.toUpper = ticker.toUpper)
    {a : Alert} (ha : a ∈ (s.alertsOf horizon k).getLast?) : s.lastInMemory horizon ticker = a.last := by
  have hsame : s.alertsOf horizon ticker = s.alertsOf horizon k := by
    simp only [World.alertsOf, hk]
  rw [h, World.lastDispatched, hsame, Option.mem_def.1 ha, Option.elim_some]

variable (h : Awake cfg env log s) (hs : Saved s) (hclock : Monotone env.clock) {ticker : String} {n : ℕ}
include h hs hclock

theorem admissible_of_evaluate {a : ActionableAlert PyFloat}
    (ha : evaluateVerbose cfg (s.correlator.getOrCreate ticker) (env.clock n) (env.clock (n + 1)) = .alert a) :
    Admissible cfg env log s ticker (.intraday a) := by
  obtain ⟨signal, report, action, hsignal, hreport, hfresh, hfresh', hcooldown, hrepeat, rfl⟩ := evaluate_eq_alert ha
  have hheld := h.held.memory ticker
  obtain ⟨⟨hticker, hprice⟩, t, ht, harrived⟩ := hheld.signal signal hsignal
  obtain ⟨-, t', ht', harrived'⟩ := hheld.report report hreport
  refine ⟨hticker, hprice, ?_, fun last hlast => ?_⟩
  · exact ⟨n, _, signal, report, action, t, t', rfl, harrived, le_of_isFresh ht hfresh, harrived',
      le_of_isFresh ht' hfresh'⟩
  · have hmem : last ∈ s.dispatched := (List.mem_filter.1 (List.mem_of_getLast? hlast)).1
    have hread : (s.correlator.getOrCreate ticker).last = last.last := last_of_marked (h.marked hs) hticker hlast
    refine spaced_of_gates (hclock (Nat.le_succ n)) (h.priced last hmem) hprice fun _ => ⟨?_, fun p hp => ?_⟩
    · rw [← hread]
      exact hcooldown
    · rw [← hread] at hp
      exact hrepeat p hp

theorem admissible_of_evaluateLongTerm {a : LongTermActionableAlert PyFloat}
    (ha : evaluateLongTermVerbose cfg (s.longTermCorrelator.getOrCreate ticker) (env.clock n) (env.clock (n + 1)) =
      .alert a) : Admissible cfg env log s ticker (.longTerm a) := by
  obtain ⟨signal, report, action, hsignal, hreport, hfresh, hfresh', hgates, rfl⟩ := evaluateLongTerm_eq_alert ha
  have hheld := h.held.longTermMemory ticker
  obtain ⟨⟨hticker, hprice⟩, t, ht, harrived⟩ := hheld.signal signal hsignal
  obtain ⟨-, t', ht', harrived'⟩ := hheld.report report hreport
  refine ⟨hticker, hprice, ?_, fun last hlast => ?_⟩
  · exact ⟨n, _, signal, report, action, t, t', rfl, harrived, le_of_isFresh ht hfresh, harrived',
      le_of_isFresh ht' hfresh'⟩
  · have hmem : last ∈ s.dispatched := (List.mem_filter.1 (List.mem_of_getLast? hlast)).1
    have hread : (s.longTermCorrelator.getOrCreate ticker).last = last.last :=
      last_of_marked (h.marked hs) hticker hlast
    refine spaced_of_gates (hclock (Nat.le_succ n)) (h.priced last hmem) hprice fun hearnings => ?_
    obtain ⟨hcooldown, hrepeat⟩ := hgates hearnings
    rw [← hread]
    exact ⟨hcooldown, hrepeat⟩

end Gates

/-! ## One message -/

section Rules

variable {cfg : CoreConfig} {env : Environment} {log : Log} {s : World}

/-- Between two messages. -/
def Calm (cfg : CoreConfig) (env : Environment) (log : Log) (s : World) : Prop := Awake cfg env log s ∧ Saved s

/-- The process is disturbed only where the database carries the last alerts. -/
def undisturbed (cfg : CoreConfig) (env : Environment) (log : Log) : Contract Label World where
  commit _ _ _ := True
  mayFault _ s := Saved s
  atCrash s := Ordered cfg env log s ∧ Saved s

variable {α : Type} {Q : α → World → Prop}

theorem wp_calm_call {l : Label} {post : World → World} {g : World → α} (h : Awake cfg env log s)
    (hQ : Q (g s) (post s)) :
    wp (undisturbed cfg env log) (.call l post (fun s => .ret (g s)) .raise) Q (Calm cfg env log) s :=
  ⟨fun _ => ⟨trivial, hQ⟩, fun hs => ⟨⟨h.toOrdered, hs⟩, h, hs⟩⟩

theorem wp_calm_write {l : Label} {g : World → World} {Q : Unit → World → Prop} (h : Awake cfg env log s)
    (hQ : Q () (g s)) : wp (undisturbed cfg env log) (Prog.write l g) Q (Calm cfg env log) s := wp_calm_call h hQ

theorem wp_calm_read {l : Label} {g : World → α} (h : Awake cfg env log s) (hQ : Q (g s) s) :
    wp (undisturbed cfg env log) (Prog.read l g) Q (Calm cfg env log) s := wp_calm_call h hQ

theorem beside_consult (s : World) : Beside s s.consult := ⟨rfl, rfl, rfl, rfl, rfl, rfl⟩

theorem wp_deliverAlert {ticker : String} {a : Alert} (h : Awake cfg env log s) (hs : Saved s)
    (ha : Admissible cfg env log s ticker a) :
    wp (undisturbed cfg env log) (deliverAlert a) (fun _ => Owing cfg env log a s.lastDispatched) (Calm cfg env log)
      s := by
  have hdecided : Owing cfg env log a s.lastDispatched { s with dispatched := s.dispatched ++ [a] } :=
    ⟨h.dispatch hs ha.paired ha.priced ha.spaced, h.marked hs, hs, lastDispatched_dispatch⟩
  have henqueued : Owing cfg env log a s.lastDispatched
      { (s.consult).enqueue (makeOutboxId a) (Alert.dump (a.withOutboxId (makeOutboxId a)))
          (outboxId_payload a (makeOutboxId a)) (s.env.clock s.consulted) with
        dispatched := s.dispatched ++ [a] } := hdecided.beside ⟨rfl, rfl, rfl, rfl, rfl, rfl⟩
  refine wp_bind (wp_calm_call h (wp_bind (wp_calm_write (h.beside (beside_consult s)) (wp_bind
    (wp_calm_call henqueued.awake ?_)))))
  have hpublished := henqueued.beside (.publish _ (Alert.dump (a.withOutboxId (makeOutboxId a))))
  split
  · have hread := hpublished.beside (beside_consult _)
    exact wp_bind (wp_bind (wp_calm_call hpublished.awake (wp_calm_write hread.awake
      (hread.beside ⟨rfl, rfl, rfl, rfl, rfl, rfl⟩))))
  · exact hpublished

theorem wp_recordSuppressed {ticker : String} {reason : SuppressionReason} {horizon : Horizon}
    (h : Calm cfg env log s) :
    wp (undisturbed cfg env log) (recordSuppressed ticker reason horizon) (fun _ => Calm cfg env log)
      (Calm cfg env log) s := by
  have hread : Awake cfg env log s.consult := h.1.beside (beside_consult s)
  refine wp_bind (wp_calm_call h.1 (wp_calm_write hread ⟨h.1.beside ?_, ?_⟩))
  · exact ⟨rfl, rfl, rfl, rfl, rfl, rfl⟩
  · exact (Beside.saved ⟨rfl, rfl, rfl, rfl, rfl, rfl⟩).2 h.2

theorem wp_conclude {ticker : String} {e : Evaluation (ActionableAlert PyFloat)} (h : Calm cfg env log s)
    (he : ∀ a, e = .alert a → Admissible cfg env log s ticker (.intraday a)) :
    wp (undisturbed cfg env log) (conclude ticker e) (fun _ => Calm cfg env log) (Calm cfg env log) s := by
  cases e with
  | alert a =>
    have ha := he a rfl
    refine wp_then (wp_deliverAlert h.1 h.2 ha) fun _ t ht => ?_
    exact wp_bind (wp_calm_write ht.awake (wp_calm_write (ht.mark ha.ticker) (ht.save ha.ticker ha.priced)))
  | suppressed reason => exact wp_recordSuppressed h
  | zeroDivision => exact h

theorem wp_concludeLongTerm {ticker : String} {e : Evaluation (LongTermActionableAlert PyFloat)}
    (h : Calm cfg env log s) (he : ∀ a, e = .alert a → Admissible cfg env log s ticker (.longTerm a)) :
    wp (undisturbed cfg env log) (concludeLongTerm ticker e) (fun _ => Calm cfg env log) (Calm cfg env log) s := by
  cases e with
  | alert a =>
    have ha := he a rfl
    refine wp_then (wp_deliverAlert h.1 h.2 ha) fun _ t ht => ?_
    exact wp_bind (wp_calm_write ht.awake (wp_calm_write (ht.mark ha.ticker) (ht.save ha.ticker ha.priced)))
  | suppressed reason => exact wp_recordSuppressed h
  | zeroDivision => exact h

theorem Calm.beside {t : World} (h : Calm cfg env log s) (hb : Beside s t) : Calm cfg env log t :=
  ⟨h.1.beside hb, hb.saved.2 h.2⟩

theorem Intraday.last_apply (x : Intraday) (now : Instant) (state : TickerState) :
    (x.apply now state).last = state.last := by
  cases x <;> rfl

theorem Intraday.last_columns (x : Intraday) (now : Instant) (r : TickerRow) :
    ((x.columns now).set r).last = r.last := by
  cases x <;> rfl

theorem LongTerm.last_apply (x : LongTerm) (now : Instant) (state : LongTermTickerState) :
    (x.apply cfg now state).last = state.last := by
  cases x with
  | signal x =>
    show (LongTermTickerState.countStreak x cfg.assumedWacc _).last = _
    unfold LongTermTickerState.countStreak
    split <;> rfl
  | report x => rfl

theorem LongTerm.last_columns (x : LongTerm) (now : Instant) (r : LongTermTickerRow) :
    ((x.columns now).set r).last = r.last := by
  cases x <;> rfl

/-- The message in memory. -/
theorem Calm.remember {x : Intraday} {now : Instant} (h : Calm cfg env log s) (hx : (now, .intraday x) ∈ log)
    (hp : (Received.intraday x).Priced) : Calm cfg env log (s.remember x.ticker (x.apply now)) :=
  ⟨h.1.remember ((h.1.held.memory x.ticker).apply hx hp) (x.last_apply now), (lastOnDisk_remember _ _).trans h.2⟩

/-- The message in the database. -/
theorem Calm.saveColumns {x : Intraday} {now : Instant} (h : Calm cfg env log s) (hx : (now, .intraday x) ∈ log)
    (hp : (Received.intraday x).Priced) : Calm cfg env log (s.saveColumns x.ticker (x.columns now)) :=
  ⟨h.1.saveColumns (fun _ hr hk => hr.columns hk hx hp) (x.last_columns now),
    (lastOnDisk_saveColumns (x.last_columns now)).trans h.2⟩

theorem Calm.rememberLongTerm {x : LongTerm} {now : Instant} (h : Calm cfg env log s) (hx : (now, .longTerm x) ∈ log)
    (hp : (Received.longTerm x).Priced) : Calm cfg env log (s.rememberLongTerm x.ticker (x.apply cfg now)) :=
  ⟨h.1.rememberLongTerm ((h.1.held.longTermMemory x.ticker).apply hx hp) (x.last_apply now),
    (lastOnDisk_rememberLongTerm _ _).trans h.2⟩

theorem Calm.saveLongTermColumns {x : LongTerm} {now : Instant} (h : Calm cfg env log s)
    (hx : (now, .longTerm x) ∈ log) (hp : (Received.longTerm x).Priced) :
    Calm cfg env log (s.saveLongTermColumns x.ticker (x.columns now)) :=
  ⟨h.1.saveLongTermColumns (fun _ hr hk => hr.columns hk hx hp) (x.last_columns now),
    (lastOnDisk_saveLongTermColumns (x.last_columns now)).trans h.2⟩

theorem Calm.saveStopState {ticker : String} (h : Calm cfg env log s) (state : LongTermTickerState) :
    Calm cfg env log (s.saveLongTermColumns ticker (stopStateColumns state)) :=
  ⟨h.1.saveLongTermColumns (fun _ hr _ => ⟨hr.upper, hr.signal, hr.report⟩) fun _ => rfl,
    (lastOnDisk_saveLongTermColumns fun _ => rfl).trans h.2⟩

variable (hclock : Monotone env.clock)
include hclock

theorem wp_correlate {ticker : String} (h : Calm cfg env log s) :
    wp (undisturbed cfg env log) (correlate cfg ticker) (fun _ => Calm cfg env log) (Calm cfg env log) s := by
  have hread : Calm cfg env log s.consult := h.beside (beside_consult s)
  have hread' : Calm cfg env log s.consult.consult := hread.beside (beside_consult _)
  refine wp_bind (wp_calm_call h.1 (wp_bind (wp_calm_call hread.1 (wp_bind (wp_calm_read hread'.1 ?_)))))
  refine wp_conclude hread' fun a ha => admissible_of_evaluate hread'.1 hread'.2 hclock (n := s.consulted) ?_
  rw [← h.1.outside]
  exact ha

theorem wp_correlateLongTerm {ticker : String} (h : Calm cfg env log s) :
    wp (undisturbed cfg env log) (correlateLongTerm cfg ticker) (fun _ => Calm cfg env log) (Calm cfg env log) s := by
  have hread : Calm cfg env log s.consult := h.beside (beside_consult s)
  have hread' : Calm cfg env log s.consult.consult := hread.beside (beside_consult _)
  refine wp_bind (wp_calm_call h.1 (wp_bind (wp_calm_call hread.1 (wp_bind (wp_calm_read hread'.1 ?_)))))
  refine wp_concludeLongTerm hread' fun a ha =>
    admissible_of_evaluateLongTerm hread'.1 hread'.2 hclock (n := s.consulted) ?_
  rw [← h.1.outside]
  exact ha

theorem wp_receive {x : Intraday} (h : Calm cfg env log s) (hx : (s.reading 0, .intraday x) ∈ log)
    (hp : (Received.intraday x).Priced) :
    wp (undisturbed cfg env log) (receive cfg x.ticker x.apply x.columns) (fun _ => Calm cfg env log)
      (Calm cfg env log) s := by
  have hread : Calm cfg env log s.consult := h.beside (beside_consult s)
  have hmemory := hread.remember hx hp
  have hsaved := hmemory.saveColumns hx hp
  exact wp_bind (wp_calm_call h.1 (wp_bind (wp_calm_write hread.1 (wp_bind (wp_calm_write hmemory.1
    (wp_correlate hclock hsaved))))))

theorem wp_receiveLongTerm {x : LongTerm} (h : Calm cfg env log s) (hx : (s.reading 0, .longTerm x) ∈ log)
    (hp : (Received.longTerm x).Priced) :
    wp (undisturbed cfg env log) (receiveLongTerm cfg x.ticker (x.apply cfg) x.columns) (fun _ => Calm cfg env log)
      (Calm cfg env log) s := by
  have hread : Calm cfg env log s.consult := h.beside (beside_consult s)
  have hmemory := hread.rememberLongTerm hx hp
  have hsaved := hmemory.saveLongTermColumns hx hp
  refine wp_bind (wp_calm_call h.1 (wp_bind (wp_calm_write hread.1 (wp_bind (wp_calm_write hmemory.1 (wp_bind ?_))))))
  refine wp_txn (fun a t ht => ⟨trivial, ?_⟩) (fun _ => ⟨trivial, hsaved⟩) fun hs => ⟨⟨hsaved.1.toOrdered, hs⟩, hsaved⟩
  rw [saveStopState_eq] at ht
  split at ht
  · obtain ⟨-, rfl⟩ := Prod.mk.inj (Option.some.inj ht)
    exact wp_correlateLongTerm hclock (hsaved.saveStopState _)
  · cases ht

theorem wp_spaced_job {x : Received} (h : Calm cfg env log s) (hx : (s.reading 0, x) ∈ log) (hp : x.Priced) :
    wp (undisturbed cfg env log) (x.job cfg) (fun _ => Calm cfg env log) (Calm cfg env log) s := by
  cases x with
  | dropped => exact h
  | unreadable => exact h
  | intraday x => exact wp_receive hclock h hx hp
  | longTerm x => exact wp_receiveLongTerm hclock h hx hp

end Rules

/-! ## Lives -/

variable {P : Type}

/-- The prices are numbers, and whatever goes wrong with a call goes wrong while the database carries the last alert of
every ticker. -/
def AlertsKept (_ : World) (x : Received) (es : List (Event Label World)) : Prop :=
  x.Priced ∧ ∀ e ∈ es, e.fault ≠ .none → Saved e.pre

theorem last_of_load {r : TickerRow} {state : TickerState} (h : r.load? = some state) : state.last = r.last := by
  obtain ⟨signal, -, hrest⟩ := Option.bind_eq_some_iff.1 h
  obtain ⟨report, -, rfl⟩ := Option.map_eq_some_iff.1 hrest
  rfl

theorem last_of_loadLongTerm {r : LongTermTickerRow} {state : LongTermTickerState} (h : r.load? = some state) :
    state.last = r.last := by
  obtain ⟨signal, -, hrest⟩ := Option.bind_eq_some_iff.1 h
  obtain ⟨report, -, rfl⟩ := Option.map_eq_some_iff.1 hrest
  rfl

/-- A restart finds the last alerts of the database. -/
theorem lastInMemory_reload {log : Log} {s t : World} (h : Kept log s) (ht : s.reload = some t) :
    t.lastInMemory = s.lastOnDisk := by
  obtain ⟨c, hc, hrest⟩ := Option.bind_eq_some_iff.1 ht
  obtain ⟨c', hc', rfl⟩ := Option.map_eq_some_iff.1 hrest
  funext horizon k
  cases horizon with
  | intraday =>
    refine forall_loadRows (p := fun k state => state.last = (s.tickerState.get k).elim .never TickerRow.last) hc
      (fun r hr => (h.rows r hr).upper) (fun k hk => ?_) (fun r hr state hload => ?_) k
    · rw [hk]
      rfl
    · rw [Table.get_eq_some.2 ⟨hr, rfl⟩, Option.elim_some]
      exact last_of_load hload
  | longTerm =>
    refine forall_loadRows
      (p := fun k state => state.last = (s.tickerStateLongTerm.get k).elim .never LongTermTickerRow.last) hc'
      (fun r hr => (h.longTermRows r hr).upper) (fun k hk => ?_) (fun r hr state hload => ?_) k
    · rw [hk]
      rfl
    · rw [Table.get_eq_some.2 ⟨hr, rfl⟩, Option.elim_some]
      exact last_of_loadLongTerm hload

/-- A start from a database that carries the last alerts. -/
theorem Ordered.reload {cfg : CoreConfig} {env : Environment} {log : Log} {s t : World} (h : Ordered cfg env log s)
    (hs : Saved s) (ht : s.reload = some t) : Calm cfg env log t := by
  have hheld : Held log t := h.kept.reload ht
  have hlast : t.lastInMemory = s.lastOnDisk := lastInMemory_reload h.kept ht
  obtain ⟨c, -, hrest⟩ := Option.bind_eq_some_iff.1 ht
  obtain ⟨c', -, rfl⟩ := Option.map_eq_some_iff.1 hrest
  have hdisk : World.lastOnDisk { s with correlator := c, longTermCorrelator := c' } = s.lastOnDisk := by
    funext horizon k
    cases horizon <;> rfl
  refine ⟨⟨⟨h.outside, h.spaced, h.paired, h.priced, h.kept.rows, h.kept.longTermRows⟩, hheld, fun _ => ?_⟩, ?_⟩
  · exact hlast.trans hs
  · exact hdisk.trans hs

/-- Up, the invariant holds; down, what survives of it. -/
theorem Life.ordered {cfg : CoreConfig} {v : Validators P} {env : Environment} {log : Log} {up : Bool} {s : World}
    (hclock : Monotone env.clock) (h : Life cfg v AlertsKept env log up s) :
    Ordered cfg env log s ∧ Saved s ∧ (up = true → Calm cfg env log s) := by
  induction h with
  | new =>
    refine ⟨⟨rfl, fun _ _ => List.isChain_nil, fun a ha => (List.not_mem_nil ha).elim,
      fun a ha => (List.not_mem_nil ha).elim, ⟨fun r hr => (List.not_mem_nil hr).elim,
        fun r hr => (List.not_mem_nil hr).elim⟩⟩, ?_, nofun⟩
    funext horizon k
    cases horizon <;> rfl
  | boot _ hx ih =>
    have hcalm := ih.1.reload ih.2.1 (reload_of_boot hx)
    exact ⟨hcalm.1.toOrdered, hcalm.2, fun _ => hcalm⟩
  | @message log s es t o m _ hx hkept ih =>
    obtain ⟨hpriced, hfaults⟩ := hkept
    obtain ⟨hawake, hsaved⟩ := ih.2.2 rfl
    have hstart : Calm cfg env (log ++ [(s.reading 0, received v m)]) s :=
      ⟨hawake.mono (List.subset_append_left _ _), hsaved⟩
    rw [handleMessage_eq] at hx
    obtain ⟨-, hend⟩ := wp_sound hx (wp_spaced_job hclock hstart (List.mem_append_right _ (List.mem_singleton.2 rfl))
      hpriced) fun e he => ⟨fun _ => trivial, hfaults e he⟩
    cases o with
    | done => exact ⟨hend.1.toOrdered, hend.2, fun _ => hend⟩
    | raised => exact ⟨hend.1.toOrdered, hend.2, fun _ => hend⟩
    | crashed => exact ⟨hend.1, hend.2, nofun⟩
  | flush _ hx ih =>
    have hcalm := (ih.2.2 rfl).beside (beside_flush hx)
    exact ⟨hcalm.1.toOrdered, hcalm.2, fun _ => hcalm⟩
  | stop _ ih => exact ⟨ih.1, ih.2.1, nofun⟩

/-- In every life of the process with a clock that never goes back: two alerts of a ticker and horizon that follow each
other keep their distance, and every alert was made from a signal and a report that arrived within the window. -/
theorem alerts_spaced {cfg : CoreConfig} {v : Validators P} {env : Environment} {log : Log} {up : Bool} {s : World}
    (hclock : Monotone env.clock) (h : Life cfg v AlertsKept env log up s) :
    (∀ horizon ticker, (s.alertsOf horizon ticker).IsChain (Spaced cfg)) ∧
      ∀ a ∈ s.dispatched, Paired cfg env log a := by
  obtain ⟨hordered, -, -⟩ := h.ordered hclock
  exact ⟨hordered.spaced, hordered.paired⟩

/-! ### Two lives -/

theorem monotone_slowly : Monotone slowly.clock := by
  intro m n h
  show (100 * (m : ℤ)) ≤ 100 * (n : ℤ)
  omega

/-- A process that has handled a signal and then a report, with the faults `faults` at the calls of the report. -/
def afterReport (faults : List Fault) : World :=
  (exec (handleMessage intradayOnly documents (reportMessage (.fin 100))) faults afterSignal).2.1

def reportLog : Log := signalLog ++ [(afterSignal.reading 0, received documents (reportMessage (.fin 100)))]

theorem alertsKept_of_quiet {m : Message Document} {s : World} (hm : (received documents m).Priced) :
    AlertsKept s (received documents m) (exec (handleMessage intradayOnly documents m) [] s).1 :=
  ⟨hm, fun e he hf => absurd (fault_exec_nil _ _ e he) hf⟩

theorem priced_signal (q : ℚ) : (received documents (signalMessage (.fin q))).Priced := by
  rintro y ⟨⟩
  rfl

theorem priced_report (q : ℚ) : (received documents (reportMessage (.fin q))).Priced := by
  intro y h
  cases h

/-- An alert at the price 100, and one at 300. -/
theorem alerts_spaced_sample :
    let s := (exec (handleMessage intradayOnly documents (signalMessage (.fin 300))) [] (afterReport [])).2.1
    (s.alertsOf .intraday "AAA").length = 2 ∧ (s.alertsOf .intraday "AAA").IsChain (Spaced intradayOnly) := by
  intro s
  have hsignal : Life intradayOnly documents AlertsKept slowly signalLog true afterSignal :=
    life_afterSignal (alertsKept_of_quiet (priced_signal 100))
  have hreport := Life.message (reportMessage (.fin 100)) hsignal (exec_sound _ [] _) (alertsKept_of_quiet (priced_report 100))
  have hup : decide ((exec (handleMessage intradayOnly documents (reportMessage (.fin 100))) [] afterSignal).2.2 ≠
      .crashed) = true := by decide +kernel
  rw [hup] at hreport
  have hlife := Life.message (signalMessage (.fin 300)) hreport (exec_sound _ [] _)
    (alertsKept_of_quiet (priced_signal 300))
  exact ⟨by decide +kernel, (alerts_spaced monotone_slowly hlife).1 .intraday "AAA"⟩

/-- In front of the last call of an alert, `save_alert`. -/
def cutAtSave : List Fault := List.replicate 12 .none ++ [.crash]

/-- The same action twice at the same price. -/
theorem not_spaced_of_repeat {l : List Alert} {action : AlertAction}
    (h : l.map (fun a => (a.action, a.price, a.isEarningsRelated, a.kind)) =
      [(action, .fin 100, false, .intraday), (action, .fin 100, false, .intraday)]) :
    ¬ l.IsChain (Spaced intradayOnly) := by
  intro hchain
  obtain ⟨a, rest, rfl, ha, hrest⟩ := List.map_eq_cons_iff.1 h
  obtain ⟨b, rest', rfl, hb, hnil⟩ := List.map_eq_cons_iff.1 hrest
  obtain rfl := List.map_eq_nil_iff.1 hnil
  simp only [Prod.mk.injEq] at ha hb
  obtain ⟨hactionA, hpriceA, -, -⟩ := ha
  obtain ⟨hactionB, hpriceB, hearnings, hkind⟩ := hb
  obtain ⟨-, hmove⟩ := (List.isChain_pair.1 hchain) hearnings
  obtain ⟨p, q, hp, hq, hle⟩ := hmove (hactionA.trans hactionB.symm)
  obtain rfl := PyFloat.fin.inj (hp.symm.trans hpriceA)
  obtain rfl := PyFloat.fin.inj (hq.symm.trans hpriceB)
  rw [hkind] at hle
  exact absurd hle (by decide +kernel)

/-- The process goes down in front of `save_alert`, and after the restart the next signal repeats the alert. -/
theorem unsaved_alert_repeated : ¬ ∀ (P : Type) (cfg : CoreConfig) (v : Validators P) (env : Environment) (log : Log)
    (s : World), Monotone env.clock →
    Life cfg v (fun _ x es => x.Priced ∧ ∀ e ∈ es, e.fault ≠ .raise) env log true s →
    ∀ horizon ticker, (s.alertsOf horizon ticker).IsChain (Spaced cfg) := by
  intro hall
  have hsignal : Life intradayOnly documents (fun _ x es => x.Priced ∧ ∀ e ∈ es, e.fault ≠ .raise) slowly signalLog true
      afterSignal :=
    life_afterSignal ⟨priced_signal 100, fun e he hf => nomatch (fault_exec_nil _ _ e he).symm.trans hf⟩
  have hreport := Life.message (reportMessage (.fin 100)) hsignal (exec_sound _ cutAtSave afterSignal)
    ⟨priced_report 100, by decide +kernel⟩
  have hdown : decide ((exec (handleMessage intradayOnly documents (reportMessage (.fin 100))) cutAtSave
      afterSignal).2.2 ≠ .crashed) = false := by decide +kernel
  rw [hdown] at hreport
  have hboot : (exec boot [] (afterReport cutAtSave)).2.2 = .done () := by decide +kernel
  have hrestart := Life.boot hreport (hboot ▸ exec_sound boot [] (afterReport cutAtSave))
  have hlife := Life.message (signalMessage (.fin 100)) hrestart (exec_sound _ [] _)
    ⟨priced_signal 100, fun e he hf => nomatch (fault_exec_nil _ _ e he).symm.trans hf⟩
  have hup : decide ((exec (handleMessage intradayOnly documents (signalMessage (.fin 100))) []
      (exec boot [] (afterReport cutAtSave)).2.1).2.2 ≠ .crashed) = true := by decide +kernel
  rw [hup] at hlife
  have hchain := hall Document intradayOnly documents slowly _ _ monotone_slowly hlife .intraday "AAA"
  have htwice : (World.alertsOf (exec (handleMessage intradayOnly documents (signalMessage (.fin 100))) []
      (exec boot [] (afterReport cutAtSave)).2.1).2.1 .intraday "AAA").map
        (fun a => (a.action, a.price, a.isEarningsRelated, a.kind)) =
      [(.confirmedBullish, .fin 100, false, .intraday), (.confirmedBullish, .fin 100, false, .intraday)] := by
    decide +kernel
  exact not_spaced_of_repeat htwice hchain

end TalonX.Core
