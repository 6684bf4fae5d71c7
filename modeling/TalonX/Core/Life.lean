import TalonX.Core.Receipt
import TalonX.Transact.Interleave
import TalonX.V2.Schemas

/-!
# The life of the engine

Messages, restarts and passes over the outbox, one after the other.

- `loadRows_states`, `isSome_loadRows`: what `load_into` makes of the rows;
- `Holds`: loading a table gives the states of a correlator (`Holds.load`, `Holds.upsert`);
- `Life`: the states of a process that is started, handles messages and goes down, and is started again.
-/

set_option autoImplicit false

namespace TalonX.Core

open Transact V2

/-! ## Loading a table -/

section Loading

variable {ρ α : Type} {key : ρ → String} {load? : ρ → Option α} {new : α}

theorem isSome_loadRows {rows : List ρ} (h : ∀ r ∈ rows, (load? r).isSome = true) (c : Correlator α) :
    (loadRows key load? c rows).isSome = true := by
  induction rows generalizing c with
  | nil => rfl
  | cons r rows ih =>
    obtain ⟨state, hr⟩ := Option.isSome_iff_exists.1 (h r List.mem_cons_self)
    rw [loadRows, hr, Option.bind_some]
    exact ih (fun q hq => h q (List.mem_cons_of_mem _ hq)) _

/-- A key that has a row gets what its row loads to, the others keep what they had. -/
theorem loadRows_states {rows : List ρ} (hn : (rows.map key).Nodup) (hk : ∀ r ∈ rows, (key r).toUpper = key r)
    {c c' : Correlator α} (h : loadRows key load? c rows = some c') (k : String) :
    (rows.find? fun r => key r = k).elim (some (c.states k)) load? = some (c'.states k) := by
  induction rows generalizing c with
  | nil =>
    obtain rfl := Option.some.inj h
    rfl
  | cons r rows ih =>
    obtain ⟨state, hr, hrest⟩ := Option.bind_eq_some_iff.1 h
    obtain ⟨hnew, hn⟩ := List.nodup_cons.1 hn
    have ih := ih hn (fun q hq => hk q (List.mem_cons_of_mem _ hq)) hrest
    have hkey : (key r).toUpper = key r := hk r List.mem_cons_self
    simp only [Correlator.update, hkey] at ih
    by_cases hrk : key r = k
    · subst hrk
      have hnone : rows.find? (fun q => key q = key r) = none := by
        rw [List.find?_eq_none]
        intro q hq heq
        exact hnew (of_decide_eq_true heq ▸ List.mem_map_of_mem hq)
      rw [hnone, Option.elim_none, Function.update_self] at ih
      rw [List.find?_cons_of_pos (by simp), Option.elim_some, hr]
      exact ih
    · rw [Function.update_of_ne (Ne.symm hrk)] at ih
      rw [List.find?_cons_of_neg (by simpa using hrk)]
      exact ih

/-- The rows are filed under upper-cased tickers, and loading them gives the states of `c`. -/
structure Holds (load? : ρ → Option α) (new : α) (t : Table key) (c : Correlator α) : Prop where
  upper : ∀ r ∈ t.rows, (key r).toUpper = key r
  loads : ∀ k : String, (t.get k.toUpper).elim (some new) load? = some (c.getOrCreate k)

theorem Holds.isSome_load {t : Table key} {c : Correlator α} (h : Holds load? new t c) {r : ρ} (hr : r ∈ t.rows) :
    (load? r).isSome = true := by
  have hget : t.get (key r).toUpper = some r := Table.get_eq_some.2 ⟨hr, (h.upper r hr).symm⟩
  have hload := h.loads (key r)
  rw [hget, Option.elim_some] at hload
  rw [hload]
  rfl

theorem holds_of_load {t : Table key} {c : Correlator α} (hu : ∀ r ∈ t.rows, (key r).toUpper = key r)
    (h : loadRows key load? ⟨fun _ => new⟩ t.rows = some c) : Holds load? new t c :=
  ⟨hu, fun k => loadRows_states t.unique hu h k.toUpper⟩

/-- A new process finds the states again. -/
theorem Holds.load {t : Table key} {c : Correlator α} (h : Holds load? new t c) :
    ∃ c', loadRows key load? ⟨fun _ => new⟩ t.rows = some c' ∧ Holds load? new t c' ∧
      ∀ k, c'.getOrCreate k = c.getOrCreate k := by
  have hsome : (loadRows key load? ⟨fun _ => new⟩ t.rows).isSome = true := isSome_loadRows (fun r hr => h.isSome_load hr) _
  obtain ⟨c', hc⟩ := Option.isSome_iff_exists.1 hsome
  have hc' := holds_of_load h.upper hc
  refine ⟨c', hc, hc', fun k => ?_⟩
  exact Option.some.inj ((hc'.loads k).symm.trans (h.loads k))

/-- An upsert that does to the row what `f` does to the state. -/
theorem Holds.upsert {t : Table key} {c : Correlator α} {ticker : String} {blank : ρ} {w : ColumnWrite ρ key}
    {f : α → α} (h : Holds load? new t c) (hblank : key blank = ticker.toUpper) (hnew : load? blank = some new)
    (hw : ∀ r state, load? r = some state → load? (w.set r) = some (f state)) :
    Holds load? new (upsertColumns t blank w) (c.update ticker f) := by
  have hidem : ticker.toUpper.toUpper = ticker.toUpper := toUpper_toUpper ticker
  refine ⟨fun r hr => ?_, fun k => ?_⟩
  · rcases keys_upsertColumns hr with hkey | ⟨q, hq, hkey⟩
    · rw [hkey, hblank, hidem]
    · rw [← hkey]
      exact h.upper q hq
  · rw [get_upsertColumns, Correlator.getOrCreate_update, hblank]
    by_cases hk : k.toUpper = ticker.toUpper
    · rw [if_pos hk, if_pos hk, hk, Option.elim_some]
      have hload := h.loads ticker
      cases hget : t.get ticker.toUpper with
      | none =>
        rw [hget, Option.elim_none] at hload
        have hstate : new = c.getOrCreate ticker := Option.some.inj hload
        rw [← hstate]
        exact hw blank new hnew
      | some r =>
        rw [hget, Option.elim_some] at hload
        exact hw r _ hload
    · rw [if_neg hk, if_neg hk]
      exact h.loads k

end Loading

/-! ## Passes over the outbox -/

/-- The correlation state and the alerts are the same. -/
structure Beside (s t : World) : Prop where
  correlator : t.correlator = s.correlator
  longTermCorrelator : t.longTermCorrelator = s.longTermCorrelator
  tickerState : t.tickerState = s.tickerState
  tickerStateLongTerm : t.tickerStateLongTerm = s.tickerStateLongTerm
  dispatched : t.dispatched = s.dispatched
  env : t.env = s.env

namespace Beside

theorem refl (s : World) : Beside s s := ⟨rfl, rfl, rfl, rfl, rfl, rfl⟩

theorem trans {s t u : World} (h : Beside s t) (h' : Beside t u) : Beside s u :=
  ⟨h'.correlator.trans h.correlator, h'.longTermCorrelator.trans h.longTermCorrelator,
    h'.tickerState.trans h.tickerState, h'.tickerStateLongTerm.trans h.tickerStateLongTerm,
    h'.dispatched.trans h.dispatched, h'.env.trans h.env⟩

theorem publish (s : World) (payload : Payload) : Beside s (s.publish payload) := by
  simp only [World.publish]
  split <;> exact ⟨rfl, rfl, rfl, rfl, rfl, rfl⟩

end Beside

section Flush

variable {s₀ : World}

theorem keeps_beside {α : Type} {l : Label} {post : World → World} {g : World → α} (h : ∀ s, Beside s (post s)) :
    Keeps (Beside s₀) (fun _ _ _ => True) (.call l post (fun s => .ret (g s)) .raise : Job α) :=
  keeps_call fun s hs => ⟨hs.trans (h s), trivial⟩

theorem keeps_attempt (now : Instant) (records : Table OutboxRecord.outboxId) (r : OutboxRecord) :
    Keeps (Beside s₀) (fun _ _ _ => True) (attempt now records r) := by
  unfold attempt
  split
  · refine keeps_bind (keeps_beside fun s => .publish s _) fun ok => ?_
    exact keeps_bind (keeps_beside fun _ => ⟨rfl, rfl, rfl, rfl, rfl, rfl⟩) fun wait => trivial
  · trivial

theorem keeps_flush : Keeps (Beside s₀) (fun _ _ _ => True) flush := by
  refine keeps_bind (keeps_beside fun _ => ⟨rfl, rfl, rfl, rfl, rfl, rfl⟩) fun now => ?_
  refine keeps_bind (keeps_beside Beside.refl) fun records => ?_
  refine keeps_bind (keeps_foldEach (keeps_attempt now) _ _) fun records' => ?_
  exact keeps_beside fun _ => ⟨rfl, rfl, rfl, rfl, rfl, rfl⟩

/-- Whatever happens during a pass over the outbox. -/
theorem beside_flush {s t : World} {es : List (Event Label World)} {o : Outcome Unit} (h : Exec flush s es t o) :
    Beside s t := h.inv_of_keeps keeps_flush (.refl s)

end Flush

/-! ## Lives -/

variable {P : Type}

/-- A start that goes well has loaded the database. -/
theorem reload_of_boot {s t : World} {es : List (Event Label World)} (h : Exec boot s es t (.done ())) :
    s.reload = some t := by
  cases h with
  | ok h =>
    beta_reduce at h
    cases hload : s.reload with
    | none =>
      rw [hload] at h
      cases h
    | some u =>
      rw [hload] at h
      cases h
      rfl
  | fault h => cases h

/-- The messages that arrived, with the time. -/
abbrev Log := List (Instant × Received)

/-- `Life log true s`: the process is up, has got the messages of `log` and has come to `s`; `Life log false s`: it is
down. -/
inductive Life (cfg : CoreConfig) (v : Validators P) (permits : World → Received → List (Event Label World) → Prop)
    (env : Environment) : Log → Bool → World → Prop
  | new : Life cfg v permits env [] false (World.empty env)
  | boot {log s es t} : Life cfg v permits env log false s → Exec boot s es t (.done ()) →
      Life cfg v permits env log true t
  | message {log s es t o} (m : Message P) : Life cfg v permits env log true s → Exec (handleMessage cfg v m) s es t o →
      permits s (received v m) es → Life cfg v permits env (log ++ [(s.reading 0, received v m)]) (o ≠ .crashed) t
  | flush {log s es t o} : Life cfg v permits env log true s → Exec flush s es t o →
      Life cfg v permits env log (o ≠ .crashed) t
  | stop {log s} : Life cfg v permits env log true s → Life cfg v permits env log false s

/-! ## A sample -/

/-- A process that has started and handled a signal. -/
def afterSignal : World :=
  (exec (handleMessage intradayOnly documents (signalMessage (.fin 100))) [] (exec boot [] (World.empty slowly)).2.1).2.1

def signalLog : Log := [(0, .intraday (.signal (buySignal (.fin 100))))]

theorem life_afterSignal {permits : World → Received → List (Event Label World) → Prop}
    (h : permits (exec boot [] (World.empty slowly)).2.1 (received documents (signalMessage (.fin 100)))
      (exec (handleMessage intradayOnly documents (signalMessage (.fin 100))) []
        (exec boot [] (World.empty slowly)).2.1).1) :
    Life intradayOnly documents permits slowly signalLog true afterSignal := by
  have hboot : Life intradayOnly documents permits slowly [] true (exec boot [] (World.empty slowly)).2.1 :=
    .boot .new (exec_sound boot [] (World.empty slowly))
  have hmessage := Life.message (signalMessage (.fin 100)) hboot (exec_sound _ [] _) h
  have hup : decide ((exec (handleMessage intradayOnly documents (signalMessage (.fin 100))) []
      (exec boot [] (World.empty slowly)).2.1).2.2 ≠ .crashed) = true := by decide +kernel
  rwa [hup] at hmessage

end TalonX.Core
