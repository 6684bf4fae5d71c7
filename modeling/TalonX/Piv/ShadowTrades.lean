import TalonX.Piv.ShadowPrices

/-!
# Shadow trades over runs

What the records of the shadow ledger say about the bars they were made from, over any sequence of calls and restarts.

- `Clean`: a call at which the levels of a trade, fixed at its recommendation, meet the prices of the bar;
- `rows_step`, `rows_run`: prices and excursions;
- `FirstLater`: a fill at the open of the first bar after the recommendation; `firstLater_run`;
- `shadow_trades_honest`, and a bar that opens below a stop.
-/

set_option autoImplicit false

namespace TalonX.Piv.Shadow

open Clock Transact
open TalonX.Core (PyFloat)

variable (policy : HorizonPolicy) (config : ExecutionConfig)

/-- The bars of a run are lawful. -/
def Event.Lawful : Event → Prop
  | .bar _ b => LawfulBar b
  | _ => True

/-- A fill does not open past a level of its trade that the same bar reaches, a later bar does not gap over a level, a
deadline is in the calendar, and a forced price is one that the trade has seen. -/
def Clean (L : ShadowLedger) : Event → Prop
  | .bar symbol b =>
    (∀ p ∈ L.positions.rows, p.symbol = symbol → p.status = .pendingFill → p.recommendationTime < b.timestamp →
      (deadlineOf policy p.horizon b.timestamp).isSome = true ∧ LevelsMeet p b b.openPrice b.openPrice) ∧
    ∀ p ∈ L.positions.rows, p.symbol = symbol → p.status = .opened → LevelsMeet p b b.low b.high
  | .forceClose symbol _ (some price) _ =>
    ∀ p ∈ L.positions.rows, p.symbol = symbol → p.status = .opened → ∀ mae mfe, p.maePrice = some mae →
      p.mfePrice = some mfe → mae.le price = true ∧ price.le mfe = true
  | _ => True

/-- Every step of a run is clean, in the state that it is made in. -/
def CleanRun (es : List Event) : Prop :=
  ∀ pre e post, es = pre ++ e :: post → e.Lawful ∧ Clean policy (runShadow policy config pre) e

theorem CleanRun.initial {es reached : List Event} (h : CleanRun policy config es) (hp : reached <+: es) :
    CleanRun policy config reached := by
  obtain ⟨rest, rfl⟩ := hp
  rintro pre e post rfl
  exact h pre e (post ++ rest) (by rw [List.append_assoc, List.cons_append])

variable {policy config}

/-! ## Prices and excursions -/

section

variable {L : ShadowLedger}

theorem rowSound_position (d : Decision) (source : String) : RowSound (d.position source) where
  pending _ := rfl
  opened hs := by cases hs
  closed hs := by cases hs
  ordered _ _ h := by cases h

theorem RowSound.unresolve {p : ShadowPosition} (h : RowSound p) (quality reason : String) :
    RowSound (p.unresolve quality reason) where
  pending hs := by cases hs
  opened hs := by cases hs
  closed hs := by cases hs
  ordered := h.ordered

theorem rows_step (h : ∀ r ∈ L.positions.rows, RowSound r) {e : Event} (hlaw : e.Lawful) (hclean : Clean policy L e)
    {r : ShadowPosition} (hr : StepRow policy config L e r) :
    RowSound r ∧ ∀ symbol b, e = .bar symbol b → r.status = .closed → r ∉ L.positions.rows → ExitOn b r := by
  cases hr with
  | kept hr => exact ⟨h r hr, fun _ _ _ _ hnew => absurd hr hnew⟩
  | recorded => exact ⟨rowSound_position _ _, fun _ _ _ hs => by cases hs⟩
  | filled hp hs hlater hd =>
    rename_i b p deadline
    have hlaw : LawfulBar b := hlaw
    obtain ⟨-, hmeet⟩ := hclean.1 p hp rfl hs hlater
    have hopen : (b.openPrice).le b.openPrice = true := PyFloat.le_self_right hlaw.low_open
    have ht : Tracked (p.fill config b deadline) b.openPrice b.openPrice b.openPrice := ⟨rfl, rfl, rfl, hopen, hopen⟩
    have hfair : Fair (p.fill config b deadline) b b.openPrice :=
      ⟨(hmeet.fair_fill hlaw).stop, (hmeet.fair_fill hlaw).target⟩
    obtain ⟨hsound, hexit⟩ := advance_sound config hlaw rfl ht hfair
      (levelsAround_of_levelHit hlaw.low_open hlaw.open_high)
    refine ⟨hsound, fun symbol b' he hc _ => ?_⟩
    obtain ⟨-, rfl⟩ := Event.bar.inj he
    exact hexit hc
  | watched hp hs =>
    rename_i b p
    have hlaw : LawfulBar b := hlaw
    obtain ⟨entry, mae, mfe, ht, ha⟩ := (h p hp).opened hs
    have hfair : Fair p b entry := (hclean.2 p hp rfl hs).fair_open ht ha
    obtain ⟨hsound, hexit⟩ := advance_sound config hlaw hs ht hfair fun _ => ha
    refine ⟨hsound, fun symbol b' he hc _ => ?_⟩
    obtain ⟨-, rfl⟩ := Event.bar.inj he
    exact hexit hc
  | forced hp hs =>
    obtain ⟨entry, mae, mfe, ht, -⟩ := (h _ hp).opened hs
    obtain ⟨hmae, hmfe⟩ := hclean _ hp rfl hs mae mfe ht.mae_eq ht.mfe_eq
    exact ⟨ht.close hmae hmfe, nofun⟩
  | dropped hp => exact ⟨(h _ hp).unresolve _ _, nofun⟩

end

theorem rows_run {es : List Event} (h : CleanRun policy config es) :
    ∀ r ∈ (runShadow policy config es).positions.rows, RowSound r := by
  induction es using List.reverseRecOn with
  | nil => exact fun r hr => absurd hr List.not_mem_nil
  | append_singleton es e ih =>
    intro r hr
    rw [runShadow_append] at hr
    obtain ⟨hlaw, hclean⟩ := h es e [] rfl
    exact (rows_step (ih (h.initial policy config (List.prefix_append es [e]))) hlaw hclean
      (step_row (coherent_runShadow policy config es) hr)).1

/-! ## Fills -/

/-- A record after the call that made it: it waits and has seen no later bar, it ended without a fill, or it was filled at
the open of the first later bar. -/
inductive Entered (p : ShadowPosition) (post : List Event) : Prop
  | waiting (hs : p.status = .pendingFill) (hraw : p.simulatedEntryPriceRaw = none)
      (hnone : ∀ b, Event.bar p.symbol b ∈ post → ¬ p.recommendationTime < b.timestamp)
  | dropped (hs : p.status = .unresolved) (hraw : p.simulatedEntryPriceRaw = none)
  | filled (hs : p.status ≠ .pendingFill) (mid : List Event) (b : Bar) (rest : List Event)
      (hpost : post = mid ++ .bar p.symbol b :: rest)
      (hmid : ∀ b', Event.bar p.symbol b' ∈ mid → ¬ p.recommendationTime < b'.timestamp)
      (hlater : p.recommendationTime < b.timestamp) (hraw : p.simulatedEntryPriceRaw = some b.openPrice)
      (htime : p.hypotheticalFillTime = some b.timestamp)

/-- A record was made by one call for its recommendation, and entered from then on. -/
def FirstLater (policy : HorizonPolicy) (config : ExecutionConfig) (es : List Event) (p : ShadowPosition) : Prop :=
  ∃ pre d source post, es = pre ++ .consider d source :: post ∧
    (∀ q ∈ (runShadow policy config pre).positions.rows, q.shadowId ≠ p.shadowId) ∧
    d.position source ∈ (runShadow policy config (pre ++ [.consider d source])).positions.rows ∧
    p.shadowId = (d.position source).shadowId ∧ p.symbol = d.ticker ∧ p.recommendationTime = d.timestamp ∧ Entered p post

/-- What a fill and the bars after it leave as it is. -/
structure SameTrade (p p' : ShadowPosition) : Prop where
  shadowId : p'.shadowId = p.shadowId
  symbol : p'.symbol = p.symbol
  recommendationTime : p'.recommendationTime = p.recommendationTime

theorem FirstLater.next {es : List Event} {e : Event} {p p' : ShadowPosition} (h : FirstLater policy config es p)
    (hsame : SameTrade p p') (hnext : ∀ post, Entered p post → Entered p' (post ++ [e])) :
    FirstLater policy config (es ++ [e]) p' := by
  obtain ⟨pre, d, source, post, rfl, hnew, hmade, hid, hsym, htime, hpost⟩ := h
  refine ⟨pre, d, source, post ++ [e], by rw [List.append_assoc, List.cons_append], ?_, hmade, hsame.shadowId.trans hid,
    hsame.symbol.trans hsym, hsame.recommendationTime.trans htime, hnext post hpost⟩
  rw [hsame.shadowId]
  exact hnew

/-- After a fill nothing of it changes. -/
theorem Entered.later {p p' : ShadowPosition} {post : List Event} {e : Event} (h : Entered p post)
    (hsame : SameTrade p p') (hs : p.status = .opened) (hs' : p'.status ≠ .pendingFill)
    (hraw' : p'.simulatedEntryPriceRaw = p.simulatedEntryPriceRaw)
    (htime' : p'.hypotheticalFillTime = p.hypotheticalFillTime) : Entered p' (post ++ [e]) := by
  cases h with
  | waiting hp => rw [hs] at hp; cases hp
  | dropped hp => rw [hs] at hp; cases hp
  | filled _ mid b rest hpost hmid hlater hraw htime =>
    refine .filled hs' mid b (rest ++ [e]) ?_ ?_ ?_ (hraw'.trans hraw) (htime'.trans htime)
    · rw [hpost, hsame.symbol, List.append_assoc, List.cons_append]
    · rw [hsame.symbol, hsame.recommendationTime]
      exact hmid
    · rw [hsame.recommendationTime]
      exact hlater

theorem sameTrade_advance (p : ShadowPosition) (b : Bar) : SameTrade p (advance config p b) := by
  unfold advance
  split <;> exact ⟨rfl, rfl, rfl⟩

theorem advance_entry (config : ExecutionConfig) (p : ShadowPosition) (b : Bar) :
    (advance config p b).simulatedEntryPriceRaw = p.simulatedEntryPriceRaw ∧
      (advance config p b).hypotheticalFillTime = p.hypotheticalFillTime := by
  unfold advance
  split <;> exact ⟨rfl, rfl⟩

theorem advance_not_pending {p : ShadowPosition} (hs : p.status = .opened) (b : Bar) :
    (advance config p b).status ≠ .pendingFill := by
  rcases advance_status config hs b with h | h <;> rw [h] <;> decide

/-- One call: a fill is at the first later bar, since a record that waits has seen none. -/
theorem firstLater_step {es : List Event} (h : ∀ p ∈ (runShadow policy config es).positions.rows, FirstLater policy config es p)
    {e : Event} (hclean : Clean policy (runShadow policy config es) e) {r : ShadowPosition}
    (hmem : r ∈ (runShadow policy config (es ++ [e])).positions.rows)
    (hr : StepRow policy config (runShadow policy config es) e r) : FirstLater policy config (es ++ [e]) r := by
  cases hr with
  | kept hr hbar =>
    refine (h r hr).next ⟨rfl, rfl, rfl⟩ fun post hpost => ?_
    cases hpost with
    | waiting hs hraw hnone =>
      refine .waiting hs hraw fun b hb hlt => ?_
      rcases List.mem_append.1 hb with hb | hb
      · exact hnone b hb hlt
      · -- only a deadline out of range would have kept it waiting
        obtain rfl := List.mem_singleton.1 hb
        have hd := (hclean.1 r hr rfl hs hlt).1
        rw [hbar r.symbol b rfl rfl hs hlt] at hd
        cases hd
    | dropped hs hraw => exact .dropped hs hraw
    | filled hs mid b rest hpost hmid hlater hraw htime =>
      refine .filled hs mid b (rest ++ [e]) ?_ hmid hlater hraw htime
      rw [hpost, List.append_assoc, List.cons_append]
  | recorded hnew =>
    rename_i d source
    exact ⟨es, d, source, [], rfl, hnew, hmem, rfl, rfl, rfl, .waiting rfl rfl fun b hb => absurd hb List.not_mem_nil⟩
  | filled hp hs hlater hd =>
    rename_i b p deadline
    have hadvance : SameTrade (p.fill config b deadline) (advance config (p.fill config b deadline) b) :=
      sameTrade_advance (p.fill config b deadline) b
    have hsame : SameTrade p (advance config (p.fill config b deadline) b) :=
      ⟨hadvance.shadowId, hadvance.symbol, hadvance.recommendationTime⟩
    obtain ⟨hraw, htime⟩ := advance_entry config (p.fill config b deadline) b
    refine (h p hp).next hsame fun post hpost => ?_
    cases hpost with
    | waiting _ _ hnone =>
      refine .filled (advance_not_pending rfl b) post b [] ?_ ?_ ?_ hraw htime
      · rw [hsame.symbol]
      · rw [hsame.symbol, hsame.recommendationTime]
        exact hnone
      · rw [hsame.recommendationTime]
        exact hlater
    | dropped hs' => rw [hs] at hs'; cases hs'
    | filled hs' => exact absurd hs hs'
  | watched hp hs =>
    rename_i b p
    obtain ⟨hraw, htime⟩ := advance_entry config p b
    exact (h p hp).next (sameTrade_advance p b) fun post hpost =>
      hpost.later (sameTrade_advance p b) hs (advance_not_pending hs b) hraw htime
  | forced hp hs =>
    refine (h _ hp).next ⟨rfl, rfl, rfl⟩ fun post hpost => hpost.later ⟨rfl, rfl, rfl⟩ hs ?_ rfl rfl
    exact fun hs => by cases hs
  | dropped hp hlive =>
    rename_i p
    have hs' : ∀ quality reason, (p.unresolve quality reason).status ≠ .pendingFill := fun _ _ hs => by cases hs
    refine (h p hp).next ⟨rfl, rfl, rfl⟩ fun post hpost => ?_
    rcases live_iff.1 hlive with hs | hs
    · cases hpost with
      | waiting _ hraw => exact .dropped rfl hraw
      | dropped hu => rw [hs] at hu; cases hu
      | filled hu => exact absurd hs hu
    · exact hpost.later ⟨rfl, rfl, rfl⟩ hs (hs' _ _) rfl rfl

theorem firstLater_run {es : List Event} (h : CleanRun policy config es) :
    ∀ r ∈ (runShadow policy config es).positions.rows, FirstLater policy config es r := by
  induction es using List.reverseRecOn with
  | nil => exact fun r hr => absurd hr List.not_mem_nil
  | append_singleton es e ih =>
    intro r hr
    have hstep : StepRow policy config (runShadow policy config es) e r := by
      rw [runShadow_append] at hr
      exact step_row (coherent_runShadow policy config es) hr
    exact firstLater_step (ih (h.initial policy config (List.prefix_append es [e]))) (h es e [] rfl).2 hr hstep

/-! ## The result -/

/-- What the records say in one state of a run. -/
structure Honest (policy : HorizonPolicy) (config : ExecutionConfig) (es : List Event) : Prop where
  single : SingleLive (runShadow policy config es).positions.rows
  entry : ∀ r ∈ (runShadow policy config es).positions.rows, FirstLater policy config es r
  exit : ∀ pre symbol b, es = pre ++ [.bar symbol b] → ∀ r ∈ (runShadow policy config es).positions.rows,
    r.status = .closed → r ∉ (runShadow policy config pre).positions.rows → ExitOn b r
  ordered : ∀ r ∈ (runShadow policy config es).positions.rows, ∀ mae mfe, r.maePrice = some mae →
    r.mfePrice = some mfe → mae.le mfe = true
  between : ∀ r ∈ (runShadow policy config es).positions.rows, r.status = .closed → ExitBetween r

/-- In a run of clean calls, every state that is reached. -/
theorem shadow_trades_honest (policy : HorizonPolicy) (config : ExecutionConfig) (es : List Event)
    (h : CleanRun policy config es) (reached : List Event) (hp : reached <+: es) : Honest policy config reached := by
  have h := h.initial policy config hp
  refine ⟨(coherent_runShadow policy config reached).single, firstLater_run h, ?_, fun r hr => (rows_run h r hr).ordered,
    fun r hr => (rows_run h r hr).closed⟩
  rintro pre symbol b rfl r hr hs hnew
  obtain ⟨hlaw, hclean⟩ := h pre (.bar symbol b) [] rfl
  rw [runShadow_append] at hr
  have hstep := step_row (coherent_runShadow policy config pre) hr
  exact (rows_step (rows_run (h.initial policy config (List.prefix_append pre [.bar symbol b]))) hlaw hclean hstep).2
    symbol b rfl hs hnew

/-! ## Two runs -/

/-- A recommendation with a stop at 99 and a target at 105. -/
def recommended : Decision where
  decisionId := "d1"
  ticker := "AAPL"
  recommendation := .buy
  timestamp := ⟨0, by decide⟩
  entryPrice := some (.fin 100)
  stopPrice := some (.fin 99)
  targetPrice := some (.fin 105)
  horizon := none
  experimental := false
  experimentalId := none

/-- A bar one minute later. -/
def nextBar (openPrice high low close : ℚ) : Bar :=
  ⟨⟨60000000, by decide⟩, .fin openPrice, .fin high, .fin low, .fin close⟩

/-- The bar opens between the levels, and reaches the target. -/
def targetRun : List Event := [.consider recommended "STRATEGY", .bar "AAPL" (nextBar 100 106 (199 / 2) 104)]

/-- The bar opens below the stop, and stays there. -/
def gapRun : List Event := [.consider recommended "STRATEGY", .bar "AAPL" (nextBar 98 (197 / 2) 97 98)]

theorem recommended_rows (policy : HorizonPolicy) (config : ExecutionConfig) :
    (runShadow policy config [.consider recommended "STRATEGY"]).positions.rows = [recommended.position "STRATEGY"] := rfl

theorem cleanRun_target : CleanRun (fun _ => none) {} targetRun := by
  have hbar : LawfulBar (nextBar 100 106 (199 / 2) 104) := by constructor <;> decide +kernel
  intro pre e post he
  rcases pre with _ | ⟨e', _ | ⟨e'', pre⟩⟩
  · obtain ⟨rfl, -⟩ := List.cons.inj he
    exact ⟨trivial, trivial⟩
  · obtain ⟨hfirst, he⟩ := List.cons.inj he
    obtain ⟨rfl, -⟩ := List.cons.inj he
    rw [← hfirst]
    refine ⟨hbar, fun p hp _ _ _ => ?_, fun p hp _ hs => ?_⟩
    · rw [recommended_rows, List.mem_singleton] at hp
      subst hp
      refine ⟨rfl, fun stop target hs ht hlow => ?_, fun stop target hs ht _ _ => ?_⟩
      · -- the bar stays above the stop
        obtain rfl := Option.some.inj hs
        exact absurd hlow (by decide +kernel)
      · obtain rfl := Option.some.inj ht
        decide +kernel
    · rw [recommended_rows, List.mem_singleton] at hp
      subst hp
      cases hs
  · have := congrArg List.length he
    simp [targetRun] at this

theorem shadow_trades_honest_target : Honest (fun _ => none) {} targetRun :=
  shadow_trades_honest _ _ targetRun cleanRun_target targetRun (List.prefix_refl _)

/-- Bought at 98 and sold at the stop of 99, where the bar never was: a stop with a profit. -/
theorem gap_through_stop : (∀ e ∈ gapRun, e.Lawful) ∧
    (∃ r ∈ (runShadow (fun _ => none) {} gapRun).positions.rows, r.exitReason = some "STOP" ∧
      r.simulatedExitPriceRaw = some (.fin 99) ∧ r.grossResult = some (.fin 1)) ∧
    ¬ Honest (fun _ => none) {} gapRun := by
  obtain ⟨r, hr⟩ : ∃ r, (runShadow (fun _ => none) {} gapRun).positions.rows = [r] :=
    List.length_eq_one_iff.1 (by decide +kernel)
  have hclosed : (runShadow (fun _ => none) {} gapRun).positions.rows.map
      (fun r => (r.status, r.exitReason, r.simulatedExitPriceRaw, r.grossResult)) =
        [(.closed, some "STOP", some (.fin 99), some (.fin 1))] := by decide +kernel
  rw [hr, List.map_singleton, List.singleton_inj, Prod.mk.injEq, Prod.mk.injEq, Prod.mk.injEq] at hclosed
  obtain ⟨hstatus, hreason, hprice, hgross⟩ := hclosed
  refine ⟨?_, ⟨r, hr ▸ List.mem_singleton.2 rfl, hreason, hprice, hgross⟩, fun h => ?_⟩
  · intro e he
    rcases List.mem_cons.1 he with rfl | he
    · trivial
    · obtain rfl := List.mem_singleton.1 he
      constructor <;> decide +kernel
  · have hnew : r ∉ (runShadow (fun _ => none) {} [.consider recommended "STRATEGY"]).positions.rows := by
      rw [recommended_rows, List.mem_singleton]
      rintro rfl
      cases hstatus
    obtain ⟨price, gross, hprice', -, -, hhigh, -⟩ :=
      h.exit _ "AAPL" _ rfl r (hr ▸ List.mem_singleton.2 rfl) hstatus hnew
    obtain rfl := Option.some.inj (hprice.symm.trans hprice')
    exact absurd hhigh (by decide +kernel)

end TalonX.Piv.Shadow
