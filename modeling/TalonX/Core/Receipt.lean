import TalonX.Core.Engine
import TalonX.Transact.Hoare

/-!
# What a message is to the engine

The four channels come down to two kinds of messages, one for each horizon.

- `Intraday`, `LongTerm`: a valid payload, with its effect in memory (`apply`) and the columns that save it (`columns`);
- `received`: what a message is (`handleMessage_eq`); `Received.reaction`: what follows from it;
- `exec_handleMessage`: a message that is handled without faults changes the state of its ticker and horizon only,
  and returns, dispatches or raises as its reaction says.
-/

set_option autoImplicit false

namespace TalonX.Core

open Transact V2

inductive Intraday
  | signal (x : QuantSignal PyFloat)
  | report (x : ResearchReport PyFloat)

namespace Intraday

def ticker : Intraday → String
  | signal x => x.ticker
  | report x => x.ticker

def apply : Intraday → Instant → TickerState → TickerState
  | signal x => TickerState.updateSignal x
  | report x => TickerState.updateReport x

def columns : Intraday → Instant → ColumnWrite TickerRow TickerRow.ticker
  | signal x => signalColumns x
  | report x => reportColumns x

def numbers : Intraday → List PyFloat
  | signal x => x.numbers
  | report x => x.numbers

end Intraday

inductive LongTerm
  | signal (x : FundamentalFactorSignal PyFloat)
  | report (x : LongTermResearchReport PyFloat)

namespace LongTerm

def ticker : LongTerm → String
  | signal x => x.ticker
  | report x => x.ticker

def apply (cfg : CoreConfig) : LongTerm → Instant → LongTermTickerState → LongTermTickerState
  | signal x => LongTermTickerState.updateSignal x cfg.assumedWacc
  | report x => LongTermTickerState.updateReport x

def columns : LongTerm → Instant → ColumnWrite LongTermTickerRow LongTermTickerRow.ticker
  | signal x => fundamentalSignalColumns x
  | report x => longTermReportColumns x

def numbers : LongTerm → List PyFloat
  | signal x => x.numbers
  | report x => x.numbers

end LongTerm

inductive Received
  | dropped
  | unreadable
  | intraday (x : Intraday)
  | longTerm (x : LongTerm)

variable {P : Type}

def receivedOn (v : Validators P) (payload : P) : Channel → Received
  | .signals => (v.quantSignal payload).elim .dropped fun x => .intraday (.signal x)
  | .reports => (v.researchReport payload).elim .dropped fun x => .intraday (.report x)
  | .fundamentalSignals => (v.fundamentalSignal payload).elim .dropped fun x => .longTerm (.signal x)
  | .reportsLongTerm => (v.longTermReport payload).elim .dropped fun x => .longTerm (.report x)

def received (v : Validators P) (m : Message P) : Received :=
  match m.data with
  | none => .dropped
  | some (.value payload) => receivedOn v payload m.channel
  | some .decodeError => .dropped
  | some .raises => .unreadable

namespace Received

def job (cfg : CoreConfig) : Received → Job Unit
  | dropped => .ret ()
  | unreadable => .raise
  | intraday x => receive cfg x.ticker x.apply x.columns
  | longTerm x => receiveLongTerm cfg x.ticker (x.apply cfg) x.columns

/-- The state that a message is about. -/
def target : Received → Option (Horizon × String)
  | dropped | unreadable => none
  | intraday x => some (.intraday, x.ticker.toUpper)
  | longTerm x => some (.longTerm, x.ticker.toUpper)

end Received

theorem handleMessage_eq (cfg : CoreConfig) (v : Validators P) (m : Message P) :
    handleMessage cfg v m = (received v m).job cfg := by
  unfold handleMessage received
  cases hdata : m.data with
  | none => rfl
  | some loaded =>
    cases loaded with
    | decodeError => rfl
    | raises => rfl
    | value payload =>
      simp only [handlePayloadOn, receivedOn]
      cases m.channel with
      | signals => cases v.quantSignal payload <;> rfl
      | reports => cases v.researchReport payload <;> rfl
      | fundamentalSignals => cases v.fundamentalSignal payload <;> rfl
      | reportsLongTerm => cases v.longTermReport payload <;> rfl

/-! ## Reactions -/

inductive Reaction
  | quiet
  | alert (a : Alert)
  | raise

namespace Reaction

def of {α : Type} (wrap : α → Alert) : Evaluation α → Reaction
  | .alert a => alert (wrap a)
  | .suppressed _ => quiet
  | .zeroDivision => raise

def alerts : Reaction → List Alert
  | alert a => [a]
  | quiet | raise => []

def outcome : Reaction → Outcome Unit
  | raise => .raised
  | quiet | alert _ => .done ()

end Reaction

/-- The `n`-th next reading of the clock. -/
def World.reading (s : World) (n : ℕ) : Instant := s.env.clock (s.consulted + n)

/-- The state of the ticker in which the message is evaluated. -/
def Intraday.updated (x : Intraday) (s : World) : TickerState :=
  x.apply (s.reading 0) (s.correlator.getOrCreate x.ticker)

def LongTerm.updated (cfg : CoreConfig) (x : LongTerm) (s : World) : LongTermTickerState :=
  x.apply cfg (s.reading 0) (s.longTermCorrelator.getOrCreate x.ticker)

def Received.reaction (cfg : CoreConfig) (s : World) : Received → Reaction
  | dropped => .quiet
  | unreadable => .raise
  | intraday x => .of .intraday (evaluateVerbose cfg (x.updated s) (s.reading 1) (s.reading 2))
  | longTerm x =>
    if (x.updated cfg s).lastStreakFiscalYear.all fitsInteger then
      .of .longTerm (evaluateLongTermVerbose cfg (x.updated cfg s) (s.reading 1) (s.reading 2))
    else .raise

/-! ## A message without faults -/

/-- Only the state of the target differs, in memory and in the database; the outside is the same. -/
structure Contained (target : Option (Horizon × String)) (s t : World) : Prop where
  env : t.env = s.env
  memory : ∀ k : String, target ≠ some (.intraday, k.toUpper) →
    t.correlator.getOrCreate k = s.correlator.getOrCreate k
  longTermMemory : ∀ k : String, target ≠ some (.longTerm, k.toUpper) →
    t.longTermCorrelator.getOrCreate k = s.longTermCorrelator.getOrCreate k
  rows : ∀ k, target ≠ some (.intraday, k) → t.tickerState.get k = s.tickerState.get k
  longTermRows : ∀ k, target ≠ some (.longTerm, k) → t.tickerStateLongTerm.get k = s.tickerStateLongTerm.get k

namespace Contained

variable {target : Option (Horizon × String)} {s t u : World}

theorem refl (target : Option (Horizon × String)) (s : World) : Contained target s s :=
  ⟨rfl, fun _ _ => rfl, fun _ _ => rfl, fun _ _ => rfl, fun _ _ => rfl⟩

theorem trans (h : Contained target s t) (h' : Contained target t u) : Contained target s u where
  env := h'.env.trans h.env
  memory k hk := (h'.memory k hk).trans (h.memory k hk)
  longTermMemory k hk := (h'.longTermMemory k hk).trans (h.longTermMemory k hk)
  rows k hk := (h'.rows k hk).trans (h.rows k hk)
  longTermRows k hk := (h'.longTermRows k hk).trans (h.longTermRows k hk)

/-- The correlation state is the same. -/
theorem of_eq (he : t.env = s.env) (hm : t.correlator = s.correlator) (hlm : t.longTermCorrelator = s.longTermCorrelator)
    (hr : t.tickerState = s.tickerState) (hlr : t.tickerStateLongTerm = s.tickerStateLongTerm) :
    Contained target s t where
  env := he
  memory k _ := by rw [hm]
  longTermMemory k _ := by rw [hlm]
  rows k _ := by rw [hr]
  longTermRows k _ := by rw [hlr]

theorem remember {ticker : String} {f : TickerState → TickerState} (s : World) :
    Contained (some (.intraday, ticker.toUpper)) s (s.remember ticker f) where
  env := rfl
  memory k hk := by
    have hne : k.toUpper ≠ ticker.toUpper := fun h => hk (by rw [h])
    exact Correlator.getOrCreate_update.trans (if_neg hne)
  longTermMemory _ _ := rfl
  rows _ _ := rfl
  longTermRows _ _ := rfl

theorem rememberLongTerm {ticker : String} {f : LongTermTickerState → LongTermTickerState} (s : World) :
    Contained (some (.longTerm, ticker.toUpper)) s (s.rememberLongTerm ticker f) where
  env := rfl
  memory _ _ := rfl
  longTermMemory k hk := by
    have hne : k.toUpper ≠ ticker.toUpper := fun h => hk (by rw [h])
    exact Correlator.getOrCreate_update.trans (if_neg hne)
  rows _ _ := rfl
  longTermRows _ _ := rfl

theorem saveColumns {ticker : String} {w : ColumnWrite TickerRow TickerRow.ticker} (s : World) :
    Contained (some (.intraday, ticker.toUpper)) s (s.saveColumns ticker w) where
  env := rfl
  memory _ _ := rfl
  longTermMemory _ _ := rfl
  rows k hk := by
    have hne : k ≠ ticker.toUpper := fun h => hk (by rw [h])
    exact (get_upsertColumns ..).trans (if_neg hne)
  longTermRows _ _ := rfl

theorem saveLongTermColumns {ticker : String} {w : ColumnWrite LongTermTickerRow LongTermTickerRow.ticker} (s : World) :
    Contained (some (.longTerm, ticker.toUpper)) s (s.saveLongTermColumns ticker w) where
  env := rfl
  memory _ _ := rfl
  longTermMemory _ _ := rfl
  rows _ _ := rfl
  longTermRows k hk := by
    have hne : k ≠ ticker.toUpper := fun h => hk (by rw [h])
    exact (get_upsertColumns ..).trans (if_neg hne)

end Contained

/-- Only the target differs, and the alerts `new` were dispatched. -/
structure After (target : Option (Horizon × String)) (s : World) (new : List Alert) (t : World) : Prop where
  contained : Contained target s t
  dispatched : t.dispatched = s.dispatched ++ new

theorem After.then {target : Option (Horizon × String)} {s t u : World} {new : List Alert} (h : After target s new t)
    (hc : Contained target t u) (hd : u.dispatched = t.dispatched) : After target s new u :=
  ⟨h.contained.trans hc, hd.trans h.dispatched⟩

section Rules

variable {target : Option (Horizon × String)} {s s₀ : World} {R : World → Prop} {new : List Alert}

theorem After.publish {t : World} (h : After target s new t) (payload : Payload) :
    After target s new (t.publish payload) := by
  simp only [World.publish]
  split
  · exact h.then (.of_eq rfl rfl rfl rfl rfl) rfl
  · exact h.then (.of_eq rfl rfl rfl rfl rfl) rfl

/-- Nothing is asked of the calls. -/
abbrev anyhow : Contract Label World := .quiet fun _ _ _ => True

theorem wp_quiet_deliverAlert (a : Alert) (h : After target s₀ [] s) :
    wp anyhow (deliverAlert a) (fun _ => After target s₀ [a]) R s := by
  have hd : s.dispatched = s₀.dispatched := by simpa using h.dispatched
  refine wp_bind (wp_quiet_call trivial (wp_bind (wp_quiet_write trivial (wp_bind (wp_quiet_call trivial ?_)))))
  have hpublished : After target s₀ [a] (World.publish (Alert.dump (a.withOutboxId (makeOutboxId a)))
      { (s.consult).enqueue (makeOutboxId a) (Alert.dump (a.withOutboxId (makeOutboxId a)))
          (outboxId_payload a (makeOutboxId a)) (s.env.clock s.consulted) with
        dispatched := s.dispatched ++ [a] }) := by
    apply After.publish
    exact ⟨h.contained.trans (.of_eq rfl rfl rfl rfl rfl), by rw [hd]⟩
  split
  · exact wp_bind (wp_bind (wp_quiet_call trivial (wp_quiet_write trivial
      (hpublished.then (.of_eq rfl rfl rfl rfl rfl) rfl))))
  · exact hpublished

theorem wp_quiet_recordSuppressed {ticker : String} {reason : SuppressionReason} {horizon : Horizon}
    (h : After target s₀ new s) :
    wp anyhow (recordSuppressed ticker reason horizon) (fun _ => After target s₀ new) R s :=
  wp_bind (wp_quiet_call trivial (wp_quiet_write trivial (h.then (.of_eq rfl rfl rfl rfl rfl) rfl)))

/-- A program from `s` that reacts so: it changes the target only, dispatches the alerts of the reaction, and raises when
the reaction does. -/
def Reacts (target : Option (Horizon × String)) (s₀ : World) (x : Reaction) (p : Job Unit) (s : World) : Prop :=
  wp anyhow p (fun _ t => After target s₀ x.alerts t ∧ x.outcome = .done ())
    (fun t => After target s₀ x.alerts t ∧ x.outcome = .raised) s

theorem reacts_conclude {ticker : String} (e : Evaluation (ActionableAlert PyFloat))
    (h : After (some (.intraday, ticker.toUpper)) s₀ [] s) :
    Reacts (some (.intraday, ticker.toUpper)) s₀ (.of .intraday e) (conclude ticker e) s := by
  cases e with
  | alert a =>
    refine wp_then (wp_quiet_deliverAlert (.intraday a) h) fun _ t ht => ?_
    refine wp_bind (wp_quiet_write trivial (wp_quiet_write trivial ⟨?_, rfl⟩))
    exact (ht.then (.remember _) rfl).then (.saveColumns _) rfl
  | suppressed reason =>
    exact wp_mono (fun _ _ ht => ⟨ht, rfl⟩) (fun _ ht => ht) (wp_quiet_recordSuppressed h)
  | zeroDivision => exact ⟨h, rfl⟩

theorem reacts_concludeLongTerm {ticker : String} (e : Evaluation (LongTermActionableAlert PyFloat))
    (h : After (some (.longTerm, ticker.toUpper)) s₀ [] s) :
    Reacts (some (.longTerm, ticker.toUpper)) s₀ (.of .longTerm e) (concludeLongTerm ticker e) s := by
  cases e with
  | alert a =>
    refine wp_then (wp_quiet_deliverAlert (.longTerm a) h) fun _ t ht => ?_
    refine wp_bind (wp_quiet_write trivial (wp_quiet_write trivial ⟨?_, rfl⟩))
    exact (ht.then (.rememberLongTerm _) rfl).then (.saveLongTermColumns _) rfl
  | suppressed reason =>
    exact wp_mono (fun _ _ ht => ⟨ht, rfl⟩) (fun _ ht => ht) (wp_quiet_recordSuppressed h)
  | zeroDivision => exact ⟨h, rfl⟩

theorem After.start (target : Option (Horizon × String)) (s : World) : After target s [] s :=
  ⟨.refl target s, by simp⟩

theorem reacts_receive (cfg : CoreConfig) (x : Intraday) (s : World) :
    Reacts (some (.intraday, x.ticker.toUpper)) s (.of .intraday (evaluateVerbose cfg (x.updated s) (s.reading 1)
      (s.reading 2))) (receive cfg x.ticker x.apply x.columns) s := by
  refine wp_bind (wp_quiet_call trivial (wp_bind (wp_quiet_write trivial (wp_bind (wp_quiet_write trivial ?_)))))
  refine wp_bind (wp_quiet_call trivial (wp_bind (wp_quiet_call trivial (wp_bind (wp_quiet_read trivial ?_)))))
  have hstate : (s.consult.correlator.update x.ticker (x.apply (s.reading 0))).getOrCreate x.ticker = x.updated s :=
    Correlator.getOrCreate_update_self
  have hafter : After (some (.intraday, x.ticker.toUpper)) s []
      ((s.consult.remember x.ticker (x.apply (s.reading 0))).saveColumns x.ticker (x.columns (s.reading 0))) := by
    refine (After.start _ s).then ?_ rfl
    have hconsult : Contained (some (.intraday, x.ticker.toUpper)) s s.consult := .of_eq rfl rfl rfl rfl rfl
    exact (hconsult.trans (.remember _)).trans (.saveColumns _)
  rw [← hstate]
  exact reacts_conclude _ (hafter.then (.of_eq rfl rfl rfl rfl rfl) rfl)

theorem saveStopState_eq (ticker : String) (s : World) : s.saveStopState ticker =
    if (s.longTermCorrelator.getOrCreate ticker).lastStreakFiscalYear.all fitsInteger then
      some ((), s.saveLongTermColumns ticker (stopStateColumns (s.longTermCorrelator.getOrCreate ticker)))
    else none := rfl

theorem reacts_receiveLongTerm (cfg : CoreConfig) (x : LongTerm) (s : World) :
    Reacts (some (.longTerm, x.ticker.toUpper)) s ((Received.longTerm x).reaction cfg s)
      (receiveLongTerm cfg x.ticker (x.apply cfg) x.columns) s := by
  refine wp_bind (wp_quiet_call trivial (wp_bind (wp_quiet_write trivial (wp_bind (wp_quiet_write trivial (wp_bind ?_))))))
  have hstate : (s.consult.longTermCorrelator.update x.ticker (x.apply cfg (s.reading 0))).getOrCreate x.ticker =
      x.updated cfg s := Correlator.getOrCreate_update_self
  have hafter : After (some (.longTerm, x.ticker.toUpper)) s []
      ((s.consult.rememberLongTerm x.ticker (x.apply cfg (s.reading 0))).saveLongTermColumns x.ticker
        (x.columns (s.reading 0))) := by
    refine (After.start _ s).then ?_ rfl
    have hconsult : Contained (some (.longTerm, x.ticker.toUpper)) s s.consult := .of_eq rfl rfl rfl rfl rfl
    exact (hconsult.trans (.rememberLongTerm _)).trans (.saveLongTermColumns _)
  refine wp_quiet_txn (fun a t ht => ⟨trivial, ?_⟩) fun hnone => ⟨trivial, ?_⟩
  · rw [saveStopState_eq] at ht
    split at ht
    · rename_i hfits
      obtain ⟨-, rfl⟩ := Prod.mk.inj (Option.some.inj ht)
      refine wp_bind (wp_quiet_call trivial (wp_bind (wp_quiet_call trivial (wp_bind (wp_quiet_read trivial ?_)))))
      have hreact : (Received.longTerm x).reaction cfg s =
          .of .longTerm (evaluateLongTermVerbose cfg (x.updated cfg s) (s.reading 1) (s.reading 2)) :=
        if_pos (hstate ▸ hfits)
      rw [hreact, ← hstate]
      exact reacts_concludeLongTerm _ ((hafter.then (.saveLongTermColumns _) rfl).then (.of_eq rfl rfl rfl rfl rfl) rfl)
    · cases ht
  · rw [saveStopState_eq] at hnone
    split at hnone
    · cases hnone
    · rename_i hfits
      have hreact : (Received.longTerm x).reaction cfg s = .raise := if_neg (hstate ▸ hfits)
      rw [hreact]
      exact ⟨hafter, rfl⟩

end Rules

theorem reacts_job (cfg : CoreConfig) (x : Received) (s : World) : Reacts x.target s (x.reaction cfg s) (x.job cfg) s := by
  cases x with
  | dropped => exact ⟨.start none s, rfl⟩
  | unreadable => exact ⟨.start none s, rfl⟩
  | intraday x => exact reacts_receive cfg x s
  | longTerm x => exact reacts_receiveLongTerm cfg x s

theorem exec_handleMessage (cfg : CoreConfig) (v : Validators P) (m : Message P) (s : World) :
    After (received v m).target s ((received v m).reaction cfg s).alerts (exec (handleMessage cfg v m) [] s).2.1 ∧
      (exec (handleMessage cfg v m) [] s).2.2 = ((received v m).reaction cfg s).outcome := by
  rw [handleMessage_eq]
  rcases (wp_quiet (reacts_job cfg (received v m) s)).2 with ⟨a, ho, ha, hr⟩ | ⟨ho, ha, hr⟩
  · exact ⟨ha, ho.trans hr.symm⟩
  · exact ⟨ha, ho.trans hr.symm⟩

end TalonX.Core
