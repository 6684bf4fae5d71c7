import TalonX.Piv.Exits
import TalonX.Piv.Holdings

/-!
# A triggered exit is not lost

- `covered_onBars`: after a tick, the open position of a symbol that had a bar has an exit plan;
- `Saves`: exit reasons that are saved stay saved;
- `Armed`: the open position has a saved exit reason, and its plan, if there is one, has a reason too;
- `Fires`: the price of a bar fires the exit of a position, and `Holding`: the position stays open.
-/

set_option autoImplicit false

namespace TalonX.Piv

open Transact V2

variable {cfg : Config} {s t : LifecycleState} {e : Engine} {symbol : Symbol} {p : Position} {R : Position → Prop}

/-! ## Plans after a tick -/

namespace Engine

@[simp] theorem state_flag : (e.flag symbol).state = e.state := by
  unfold flag
  split
  · rfl
  split <;> rfl

end Engine

theorem rehydratePlan_of_quantity (h : 0 < p.quantity) : ∃ plan, Engine.rehydratePlan p = some plan ∧
    plan.exitReason = p.triggeredExitReason := by
  refine ⟨_, if_pos (.inr h), ?_⟩
  rfl

theorem beside_flag {symbol' : Symbol} (hne : symbol ≠ symbol') : Beside e (e.flag symbol') symbol := by
  unfold Engine.flag
  split
  · exact ⟨rfl, rfl⟩
  split
  · exact ⟨rfl, rfl⟩
  · exact beside_setPlan hne

/-- An orphan heals: an open position has a quantity. -/
theorem covered_flag (hk : Kept e) : Covered (e.flag symbol) symbol := by
  intro hopen
  unfold Engine.flag at hopen ⊢
  split at hopen
  · rename_i hplan
    rw [if_pos hplan]
    exact hplan
  rename_i hplan
  rw [if_neg hplan]
  split at hopen
  · rename_i hflat
    rw [hflat] at hopen
    cases hopen
  · rename_i p hp
    have hmem := (hk.single.openPositionFor_eq_some.1 hp).1
    obtain ⟨plan, hplan, -⟩ := rehydratePlan_of_quantity (hk.single.entry p hmem).2
    rw [Engine.plans_setPlan_self, hplan]
    rfl

theorem Kept.exec (hk : Kept e) (x : Part) : Kept (e.exec cfg x).engine := hk.engineStep (.part e x)

/-- What a part is not about stays as it is. -/
theorem beside_exec (hk : Kept e) {x : Part} (hne : symbol ≠ x.symbol) : Beside e (e.exec cfg x).engine symbol := by
  cases x with
  | flag symbol' => exact beside_flag hne
  | entry sig d => exact beside_handleEntry hk hne
  | exit symbol' bar forced d =>
    apply beside_checkExit hk _ hne
    intro r hr
    cases forced
    · cases hr
    · exact (Option.some.inj hr).symm

theorem covered_exec (hk : Kept e) (x : Part) (hc : Covered e symbol) : Covered (e.exec cfg x).engine symbol := by
  by_cases hs : symbol = x.symbol
  · subst hs
    cases x with
    | flag symbol => exact covered_flag hk
    | entry sig d => exact covered_handleEntry hc
    | exit symbol bar forced d => exact covered_checkExit hc
  · exact (beside_exec hk hs).covered hc

/-- What every part preserves holds after the parts, however far they come. -/
theorem runParts_induction {I : Engine → Prop} (hI : ∀ e x, I e → I (e.exec cfg x).engine) {xs : List Part}
    (h : I e) : I (e.runParts cfg xs).engine := by
  induction xs generalizing e with
  | nil => exact h
  | cons x xs ih =>
    unfold Engine.runParts
    dsimp only
    split
    · exact ih (hI e x h)
    · exact hI e x h

theorem runParts_append {xs ys : List Part} : (e.runParts cfg (xs ++ ys)) =
    if (e.runParts cfg xs).goesOn then
      ⟨((e.runParts cfg xs).engine.runParts cfg ys).engine, ((e.runParts cfg xs).engine.runParts cfg ys).goesOn,
        (e.runParts cfg xs).calls ++ ((e.runParts cfg xs).engine.runParts cfg ys).calls⟩
    else e.runParts cfg xs := by
  induction xs generalizing e with
  | nil => rfl
  | cons x xs ih =>
    rw [List.cons_append]
    simp only [Engine.runParts]
    by_cases hx : (e.exec cfg x).goesOn
    · rw [if_pos hx, if_pos hx, ih]
      by_cases hxs : ((e.exec cfg x).engine.runParts cfg xs).goesOn
      · simp only [if_pos hxs, List.append_assoc]
      · simp only [if_neg hxs]
    · rw [if_neg hx, if_neg hx, if_neg hx]

theorem kept_runParts (hk : Kept e) (xs : List Part) : Kept (e.runParts cfg xs).engine :=
  runParts_induction (fun _ x h => h.exec x) hk

theorem covered_runParts (hk : Kept e) (xs : List Part) (hc : Covered e symbol) :
    Covered (e.runParts cfg xs).engine symbol :=
  (runParts_induction (I := fun e => Kept e ∧ Covered e symbol)
    (fun _ x h => ⟨h.1.exec x, covered_exec h.1 x h.2⟩) ⟨hk, hc⟩).2

/-- Orphans are looked for before anything that could raise. -/
theorem covered_flags (hk : Kept e) {bars : List (Symbol × Bar × Dealing)} (h : ∃ b ∈ bars, b.1 = symbol) :
    (e.runParts cfg (bars.map fun b => .flag b.1)).goesOn ∧
      Covered (e.runParts cfg (bars.map fun b => .flag b.1)).engine symbol := by
  have hgoes : ∀ (bars : List (Symbol × Bar × Dealing)) (e : Engine),
      (e.runParts cfg (bars.map fun b => .flag b.1)).goesOn := by
    intro bars
    induction bars with
    | nil => exact fun _ => rfl
    | cons b bars ih => exact fun e => ih _
  refine ⟨hgoes bars e, ?_⟩
  induction bars generalizing e with
  | nil =>
    obtain ⟨b, hb, -⟩ := h
    cases hb
  | cons b bars ih =>
    show Covered ((e.flag b.1).runParts cfg (bars.map fun b => .flag b.1)).engine symbol
    have hflagged := hk.flag b.1
    obtain ⟨b', hb', hs⟩ := h
    rcases List.mem_cons.1 hb' with rfl | hb'
    · exact covered_runParts hflagged _ (by rw [← hs]; exact covered_flag hk)
    · exact ih hflagged ⟨b', hb', hs⟩

/-- After a tick, cut short or not, what is open and had a bar has a plan. -/
theorem covered_onBars (hk : Kept e) (t : Tick) (h : ∃ b ∈ t.bars, b.1 = symbol) :
    Covered (e.onBars cfg t).engine symbol := by
  obtain ⟨hgoes, hc⟩ := @covered_flags cfg e symbol hk t.bars h
  unfold Engine.onBars Tick.parts
  rw [runParts_append, if_pos hgoes]
  exact covered_runParts (kept_runParts hk _) _ hc

/-! ## Saved reasons -/

/-- Everything that is done to the lifecycle. -/
inductive Move (cfg : Config) : LifecycleState → LifecycleState → Prop
  | change {s t : LifecycleState} : Change cfg s t → Move cfg s t
  | admitBuy {s t : LifecycleState} {r : OrderRequest} {i : IntentId} :
    admitIntent cfg s r = .ok (i, t) → i.side = .buy → Move cfg s t
  | trigger (s : LifecycleState) (symbol : Symbol) (reason : ExitReason) : Move cfg s (markExitTriggered s symbol reason)

abbrev Moves (cfg : Config) : LifecycleState → LifecycleState → Prop := Relation.ReflTransGen (Move cfg)

theorem moves_of_changes (h : Changes cfg s t) : Moves cfg s t := by
  induction h with
  | refl => exact .refl
  | tail _ hc ih => exact ih.tail (.change hc)

/-- Saved exit reasons stay saved. -/
def Saves (s t : LifecycleState) : Prop :=
  ∀ p ∈ s.positions.rows, p.triggeredExitReason.isSome → ∃ p' ∈ t.positions.rows, p'.id = p.id ∧ p'.triggeredExitReason.isSome

theorem Step.saves (h : Step R s t) : Saves s t := by
  intro p hp hr
  obtain ⟨p', hp', hg⟩ := h.kept p hp
  refine ⟨p', hp', hg.id, ?_⟩
  rcases hg.triggered with hsame | ⟨hnone, -⟩
  · rw [hsame]
    exact hr
  · rw [hnone] at hr
    cases hr

theorem Saves.trans {u : LifecycleState} (h : Saves s t) (h' : Saves t u) : Saves s u := by
  intro p hp hr
  obtain ⟨p', hp', hid, hr'⟩ := h p hp hr
  obtain ⟨p'', hp'', hid', hr''⟩ := h' p' hp' hr'
  exact ⟨p'', hp'', by rw [hid', hid], hr''⟩

theorem Single.move (h : Single s) (hm : Move cfg s t) : Single t ∧ Saves s t := by
  cases hm with
  | change hc =>
    have hstep := hc.step (fun _ => False) h
    exact ⟨h.step hstep, hstep.saves⟩
  | admitBuy hadm hside =>
    refine ⟨h.admitBuy hadm hside, fun p hp hr => ⟨p, ?_, rfl, hr⟩⟩
    obtain ⟨-, -, budgets, -, rfl⟩ := admitIntent_ok hadm
    exact hp
  | trigger symbol reason =>
    have hstep := step_trigger h symbol reason
    exact ⟨h.step hstep, hstep.saves⟩

theorem Single.saves (h : Single s) (hm : Moves cfg s t) : Saves s t := by
  have hboth : Single t ∧ Saves s t := by
    induction hm with
    | refl => exact ⟨h, fun p hp hr => ⟨p, hp, rfl, hr⟩⟩
    | tail _ hm ih => exact ⟨(ih.1.move hm).1, ih.2.trans (ih.1.move hm).2⟩
  exact hboth.2

theorem moves_orderIntent {r : OrderRequest} {submit : Option SubmitAnswer} {out : Submitted}
    (h : orderIntent cfg s r submit = (t, out)) :
    Moves cfg s t ∧ ∀ id, out = .accepted id → ∀ rows atEnd, Moves cfg s (pollOrderUntilTerminal t id rows atEnd) := by
  rcases orderIntent_cases h with ⟨rfl, rfl⟩ | ⟨i, u, hadm, hc, hlive⟩
  · exact ⟨.refl, nofun⟩
  · have hadmitted : Moves cfg s u := by
      apply Relation.ReflTransGen.single
      cases hside : i.side with
      | buy => exact .admitBuy hadm hside
      | sell => exact .change (.admitSell hadm hside)
    have hsent := hadmitted.trans (moves_of_changes hc)
    exact ⟨hsent, fun id hid rows atEnd => hsent.trans (moves_of_changes (changes_pollRounds (hlive id hid)))⟩

theorem moves_sellOut {plan : Plan} {bar : Bar} {reason : ExitReason} {d : Dealing} :
    Moves cfg e.state (e.sellOut cfg symbol plan bar reason d).engine.state := by
  unfold Engine.sellOut
  split
  · exact .refl
  dsimp only
  split
  · rename_i t hout
    exact (moves_orderIntent hout).1
  · rename_i t hout
    exact (moves_orderIntent hout).1
  · rename_i t id hout
    have hpolled := (moves_orderIntent hout).2 id rfl d.poll d.pollEnd
    split
    · exact hpolled
    · dsimp only
      split <;> exact hpolled

theorem moves_latch {plan : Plan} {bar : Bar} {force : Option ExitReason} :
    Moves cfg e.state (e.latch symbol plan p bar force).state := by
  unfold Engine.latch
  dsimp only
  split
  · exact Relation.ReflTransGen.single (.trigger ..)
  · exact .refl

theorem moves_exec {x : Part} : Moves cfg e.state (e.exec cfg x).engine.state := by
  cases x with
  | flag symbol =>
    show Moves cfg e.state (e.flag symbol).state
    rw [Engine.state_flag]
  | entry sig d =>
    show Moves cfg e.state (e.handleEntry cfg sig d).engine.state
    unfold Engine.handleEntry
    split
    · exact .refl
    split
    · exact .refl
    dsimp only
    split
    · rename_i t hout
      exact (moves_orderIntent hout).1
    · rename_i t hout
      exact (moves_orderIntent hout).1
    · rename_i t id hout
      exact (moves_orderIntent hout).2 id rfl d.poll d.pollEnd
  | exit symbol bar forced d =>
    show Moves cfg e.state (e.checkExit cfg symbol bar _ d).engine.state
    unfold Engine.checkExit
    split
    · exact .refl
    split
    · dsimp only
      split <;> exact .refl
    dsimp only
    split
    · exact moves_latch
    split
    · exact moves_latch
    · exact moves_latch.trans moves_sellOut

theorem EngineStep.saves {e' : Engine} (h : EngineStep cfg e e') (hk : Kept e) : Saves e.state e'.state := by
  apply @Single.saves cfg _ _ hk.single
  cases h with
  | part x => exact moves_exec
  | change hc => exact Relation.ReflTransGen.single (.change hc)
  | restart => exact .refl

/-! ## Armed positions -/

variable {k : PositionId}

/-- The position is the open one of its symbol. -/
def OpenAt (e : Engine) (symbol : Symbol) (k : PositionId) : Prop :=
  ∃ p, e.state.openPositionFor symbol = some p ∧ p.id = k

instance : Decidable (OpenAt e symbol k) :=
  decidable_of_iff ((e.state.openPositionFor symbol).any (·.id = k)) <| by simp [OpenAt, Option.any_eq_true]

structure Armed (e : Engine) (symbol : Symbol) (k : PositionId) : Prop where
  saved : ∃ p, e.state.openPositionFor symbol = some p ∧ p.id = k ∧ p.triggeredExitReason.isSome
  reasoned : Reasoned e symbol

theorem saved_openAt {e' : Engine} (hk : Kept e) (hk' : Kept e') (hs : Saves e.state e'.state)
    (h : ∃ p, e.state.openPositionFor symbol = some p ∧ p.id = k ∧ p.triggeredExitReason.isSome)
    (ho : OpenAt e' symbol k) :
    ∃ p, e'.state.openPositionFor symbol = some p ∧ p.id = k ∧ p.triggeredExitReason.isSome := by
  obtain ⟨p, hp, rfl, hr⟩ := h
  obtain ⟨p', hp', hid⟩ := ho
  obtain ⟨p'', hmem, hid', hr'⟩ := hs p (hk.single.openPositionFor_eq_some.1 hp).1 hr
  have hsame := e'.state.positions.eq_of_key hmem (hk'.single.openPositionFor_eq_some.1 hp').1 (by rw [hid', hid])
  exact ⟨p', hp', hid, by rw [← hsame]; exact hr'⟩

/-- A new process takes the reason of the open position over. -/
theorem reasoned_restart (hk : Kept e) (hp : e.state.openPositionFor symbol = some p)
    (hr : p.triggeredExitReason.isSome) : Reasoned e.restart symbol := by
  obtain ⟨hmem, hopen, hsym⟩ := hk.single.openPositionFor_eq_some.1 hp
  intro plan hplan
  have hfilter : p ∈ e.state.positions.rows.filter fun p => p.status = .opened && p.symbol = symbol :=
    List.mem_filter.2 ⟨hmem, by simp [hopen, hsym]⟩
  rcases Option.or_eq_some_iff.1 hplan with hfound | ⟨hnone, -⟩
  · obtain ⟨q, hq, hq'⟩ := List.exists_of_findSome?_eq_some hfound
    obtain ⟨hqmem, hcond⟩ := List.mem_filter.1 hq
    simp only [Bool.and_eq_true, decide_eq_true_eq] at hcond
    obtain rfl := hk.single.opened_unique hqmem hmem hcond.1 hopen (by rw [hcond.2, hsym])
    obtain ⟨plan', hplan', hreason⟩ := rehydratePlan_of_quantity (hk.single.entry q hqmem).2
    rw [hq'] at hplan'
    obtain rfl := Option.some.inj hplan'
    rw [hreason]
    exact hr
  · obtain ⟨plan', hplan', -⟩ := rehydratePlan_of_quantity (hk.single.entry p hmem).2
    rw [List.findSome?_eq_none_iff.1 hnone p hfilter] at hplan'
    cases hplan'

/-- So does the search for orphans. -/
theorem reasoned_flag (h : Armed e symbol k) (hk : Kept e) : Reasoned (e.flag symbol) symbol := by
  obtain ⟨p, hp, -, hr⟩ := h.saved
  unfold Engine.flag
  split
  · exact h.reasoned
  rw [hp]
  obtain ⟨plan', hplan', hreason⟩ :=
    rehydratePlan_of_quantity (hk.single.entry p (hk.single.openPositionFor_eq_some.1 hp).1).2
  intro plan hplan
  dsimp only at hplan
  rw [Engine.plans_setPlan_self, hplan'] at hplan
  obtain rfl := Option.some.inj hplan
  rw [hreason]
  exact hr

theorem reasoned_sellOut {plan : Plan} {bar : Bar} {reason : ExitReason} {d : Dealing} (h : Reasoned e symbol) :
    Reasoned (e.sellOut cfg symbol plan bar reason d).engine symbol := by
  intro plan' hplan'
  rcases @plans_sellOut cfg e symbol plan bar reason d with hsame | ⟨hnone, -⟩
  · rw [hsame] at hplan'
    exact h plan' hplan'
  · rw [hnone] at hplan'
    cases hplan'

/-- The latch keeps a reason, and the sale keeps the plan or drops it. -/
theorem reasoned_checkExit {bar : Bar} {force : Option ExitReason} {d : Dealing} (h : Reasoned e symbol) :
    Reasoned (e.checkExit cfg symbol bar force d).engine symbol := by
  unfold Engine.checkExit
  split
  · exact h
  rename_i plan hplan
  split
  · dsimp only
    split
    · exact h
    · intro plan' hplan'
      rw [Engine.plans_setPlan_self] at hplan'
      cases hplan'
  rename_i p hp
  have hlatched : Reasoned (e.latch symbol plan p bar force) symbol := by
    intro plan' hplan'
    rw [plans_latch] at hplan'
    obtain rfl := Option.some.inj hplan'
    obtain ⟨r, hr⟩ := Option.isSome_iff_exists.1 (h plan hplan)
    rw [hr]
    rfl
  dsimp only
  split
  · exact hlatched
  split
  · exact hlatched
  · exact reasoned_sellOut hlatched

theorem reasoned_exec (hk : Kept e) (h : Armed e symbol k) (x : Part) : Reasoned (e.exec cfg x).engine symbol := by
  by_cases hs : symbol = x.symbol
  · subst hs
    cases x with
    | flag symbol => exact reasoned_flag h hk
    | entry sig d =>
      obtain ⟨p, hp, -⟩ := h.saved
      show Reasoned (e.handleEntry cfg sig d).engine sig.symbol
      rw [engine_handleEntry (Option.isSome_iff_exists.2 ⟨p, hp⟩)]
      exact h.reasoned
    | exit symbol bar forced d => exact reasoned_checkExit h.reasoned
  · exact (beside_exec hk hs).reasoned h.reasoned

/-- An armed position stays armed while it is open. -/
theorem Armed.step {e' : Engine} (h : Armed e symbol k) (hk : Kept e) (hs : EngineStep cfg e e')
    (ho : OpenAt e' symbol k) : Armed e' symbol k where
  saved := saved_openAt hk (hk.engineStep hs) (hs.saves hk) h.saved ho
  reasoned := by
    cases hs with
    | part x => exact reasoned_exec hk h x
    | change hc => exact h.reasoned
    | restart =>
      obtain ⟨p, hp, -, hr⟩ := h.saved
      exact reasoned_restart hk hp hr

/-- The price of the bar fires the exit of the position. -/
def Fires (e : Engine) (symbol : Symbol) (bar : Bar) (k : PositionId) : Prop :=
  ∃ plan p, e.plans symbol = some plan ∧ e.state.openPositionFor symbol = some p ∧ p.id = k ∧
    (Engine.priceTrigger plan p bar none).isSome

instance {bar : Bar} : Decidable (Fires e symbol bar k) :=
  decidable_of_iff ((e.plans symbol).any fun plan => (e.state.openPositionFor symbol).any fun p =>
    p.id = k && (Engine.priceTrigger plan p bar none).isSome) <| by
      simp [Fires, Option.any_eq_true]

theorem openPositionFor_markExitTriggered (h : Single s) (hp : s.openPositionFor symbol = some p) (reason : ExitReason) :
    ∃ p', (markExitTriggered s symbol reason).openPositionFor symbol = some p' ∧ p'.id = p.id ∧
      p'.triggeredExitReason.isSome := by
  have hsingle := h.step (step_trigger h symbol reason)
  obtain ⟨hmem, hopen, hsym⟩ := h.openPositionFor_eq_some.1 hp
  unfold markExitTriggered at hsingle ⊢
  rw [hp] at hsingle ⊢
  dsimp only at hsingle ⊢
  split
  · rename_i hr
    exact ⟨p, hp, rfl, hr⟩
  · rename_i hr
    rw [if_neg hr] at hsingle
    refine ⟨{ p with triggeredExitReason := some reason }, ?_, rfl, rfl⟩
    apply hsingle.openPositionFor_eq_some.2
    refine ⟨mem_updateRows.2 ⟨p, hmem, ?_⟩, hopen, hsym⟩
    simp

theorem armed_of_fires (hk : Kept e) {bar : Bar} {d : Dealing} (hf : Fires e symbol bar k)
    (ho : OpenAt (e.exec cfg (.exit symbol bar false d)).engine symbol k) :
    Armed (e.exec cfg (.exit symbol bar false d)).engine symbol k := by
  obtain ⟨plan, p, hplan, hp, rfl, hprice⟩ := hf
  obtain ⟨reason, hreason⟩ := Option.isSome_iff_exists.1 hprice
  have hnone : plan.exitReason = none := by
    unfold Engine.priceTrigger at hreason
    split at hreason
    · rename_i hcond
      simp only [Bool.and_eq_true, Option.isNone_iff_eq_none] at hcond
      exact hcond.1.2
    · cases hreason
  have hexit : Engine.exitReason plan p bar none = some reason := by
    unfold Engine.exitReason
    rw [hnone, hreason]
    rfl
  have hk₁ : Kept (e.latch symbol plan p bar none) := hk.latch hp hplan bar none nofun
  have harmed : Armed (e.latch symbol plan p bar none) symbol p.id := by
    constructor
    · have hstate : (e.latch symbol plan p bar none).state = markExitTriggered e.state symbol reason := by
        simp only [Engine.latch, hnone, hexit]
      rw [hstate]
      exact openPositionFor_markExitTriggered hk.single hp reason
    · intro plan' hplan'
      rw [plans_latch, hnone, hexit] at hplan'
      obtain rfl := Option.some.inj hplan'
      rfl
  have hrun : (e.exec cfg (.exit symbol bar false d)).engine =
      if !d.recorded then e.latch symbol plan p bar none
      else ((e.latch symbol plan p bar none).sellOut cfg symbol plan bar reason d).engine := by
    show (e.checkExit cfg symbol bar none d).engine = _
    unfold Engine.checkExit
    rw [hplan, hp]
    dsimp only
    split
    · rfl
    · rw [hexit]
  have hk₂ : Kept (e.exec cfg (.exit symbol bar false d)).engine := hk.exec _
  rw [hrun] at ho hk₂ ⊢
  split
  · exact harmed
  · rename_i hrecorded
    rw [if_neg hrecorded] at ho hk₂
    exact ⟨saved_openAt hk₁ hk₂ (hk₁.single.saves moves_sellOut) harmed.saved ho, reasoned_sellOut harmed.reasoned⟩

/-! ## The exit check of a tick -/

def Part.checks (x : Part) (symbol : Symbol) : Bool :=
  match x with
  | .exit symbol' _ _ _ => symbol' = symbol
  | _ => false

/-- The tick up to the exit check of a symbol. -/
def Engine.beforeExit (cfg : Config) (e : Engine) (t : Tick) (symbol : Symbol) : Ran :=
  e.runParts cfg (t.parts.takeWhile fun x => !x.checks symbol)

/-- Only its exit check touches the open position of a symbol. -/
theorem openAt_exec (hk : Kept e) {x : Part} (hx : x.checks symbol = false) (h : OpenAt e symbol k) :
    OpenAt (e.exec cfg x).engine symbol k := by
  by_cases hs : symbol = x.symbol
  · cases x with
    | flag symbol' =>
      show OpenAt (e.flag symbol') symbol k
      unfold OpenAt
      rw [Engine.state_flag]
      exact h
    | entry sig d =>
      obtain ⟨p, hp, hid⟩ := h
      obtain rfl : symbol = sig.symbol := hs
      refine ⟨p, ?_, hid⟩
      show (e.handleEntry cfg sig d).engine.state.openPositionFor sig.symbol = some p
      rw [engine_handleEntry (Option.isSome_iff_exists.2 ⟨p, hp⟩)]
      exact hp
    | exit symbol' bar forced d =>
      have hsame : decide (symbol' = symbol) = false := hx
      exact absurd hs.symm (of_decide_eq_false hsame)
  · obtain ⟨p, hp, hid⟩ := h
    exact ⟨p, by rw [(beside_exec hk hs).opened]; exact hp, hid⟩

theorem Armed.openAt (h : Armed e symbol k) : OpenAt e symbol k := by
  obtain ⟨p, hp, hid, -⟩ := h.saved
  exact ⟨p, hp, hid⟩

theorem Armed.runParts {xs : List Part} (hxs : ∀ x ∈ xs, x.checks symbol = false) (hk : Kept e)
    (h : Armed e symbol k) : Armed (e.runParts cfg xs).engine symbol k := by
  induction xs generalizing e with
  | nil => exact h
  | cons x xs ih =>
    obtain ⟨hx, hrest⟩ := List.forall_mem_cons.1 hxs
    have hnext : Armed (e.exec cfg x).engine symbol k := h.step hk (.part e x) (openAt_exec hk hx h.openAt)
    unfold Engine.runParts
    dsimp only
    split
    · exact ih hrest (hk.exec x) hnext
    · exact hnext

/-- The exit check of a symbol, in its tick. -/
theorem parts_checking {t : Tick} {bar : Bar} {d : Dealing} (hfed : t.fed) (hbar : (symbol, bar, d) ∈ t.bars) :
    ∃ before after, t.parts = t.bars.map (fun b => .flag b.1) ++ before ++ .exit symbol bar false d :: after ∧
      ∀ x ∈ t.bars.map (fun b => Part.flag b.1) ++ before, x.checks symbol = false := by
  obtain ⟨l₁, l₂, hbars⟩ := List.append_of_mem hbar
  have hfirst : ∀ b ∈ l₁, b.1 ≠ symbol := by
    intro b hb hs
    have hnodup := t.distinct
    rw [hbars, List.map_append, List.map_cons, List.nodup_append] at hnodup
    exact hnodup.2.2 b.1 (List.mem_map_of_mem hb) symbol List.mem_cons_self hs
  refine ⟨t.signals.map (fun x => .entry x.1 x.2) ++ l₁.map (fun b => .exit b.1 b.2.1 false b.2.2),
    l₂.map fun b => .exit b.1 b.2.1 false b.2.2, ?_, ?_⟩
  · unfold Tick.parts
    rw [if_pos hfed, List.append_assoc, List.append_assoc]
    congr 2
    rw [hbars, List.map_append, List.map_cons]
  · intro x hx
    rcases List.mem_append.1 hx with hflag | hrest
    · obtain ⟨b, -, rfl⟩ := List.mem_map.1 hflag
      rfl
    rcases List.mem_append.1 hrest with hentry | hexit
    · obtain ⟨y, -, rfl⟩ := List.mem_map.1 hentry
      rfl
    · obtain ⟨b, hb, rfl⟩ := List.mem_map.1 hexit
      exact decide_eq_false (hfirst b hb)

/-- The exit check of an armed position with a plan sells what is left and not spoken for. -/
theorem calls_checkExit (h : Armed e symbol k) (hc : Covered e symbol) {bar : Bar} {d : Dealing} (hd : d.recorded)
    (hleft : shareTolerance < e.state.remainingHoldings symbol) :
    ∃ r, (e.checkExit cfg symbol bar none d).calls = [r] ∧ r.symbol = symbol ∧ r.side = some .sell ∧
      r.quantity = some (e.state.remainingHoldings symbol) := by
  obtain ⟨p, hp, -, -⟩ := h.saved
  obtain ⟨plan, hplan⟩ := Option.isSome_iff_exists.1 (hc (by rw [hp]; rfl))
  obtain ⟨reason, hreason⟩ := Option.isSome_iff_exists.1 (h.reasoned plan hplan)
  have hexit : Engine.exitReason plan p bar none = some reason := by
    unfold Engine.exitReason
    rw [hreason]
    rfl
  have hstate : (e.latch symbol plan p bar none).state = e.state := by
    simp only [Engine.latch, hreason]
  refine ⟨(e.latch symbol plan p bar none).exitRequest symbol plan bar reason, ?_, rfl, rfl, ?_⟩
  · unfold Engine.checkExit
    rw [hplan, hp]
    simp only [hd, Bool.not_true, Bool.false_eq_true, if_false, hexit]
    unfold Engine.sellOut
    rw [hstate, if_neg (not_le.2 hleft)]
    dsimp only
    split
    · rfl
    · rfl
    · split <;> rfl
  · show some ((e.latch symbol plan p bar none).state.remainingHoldings symbol) = _
    rw [hstate]

/-- A tick that comes to the exit check of an armed position sells what is left. -/
theorem calls_onBars (h : Armed e symbol k) (hk : Kept e) {t : Tick} {bar : Bar} {d : Dealing}
    (hbar : (symbol, bar, d) ∈ t.bars) (hfed : t.fed) (hgoes : (e.beforeExit cfg t symbol).goesOn) (hd : d.recorded)
    (hleft : shareTolerance < (e.beforeExit cfg t symbol).engine.state.remainingHoldings symbol) :
    ∃ r ∈ (e.onBars cfg t).calls, r.symbol = symbol ∧ r.side = some .sell ∧
      r.quantity = some ((e.beforeExit cfg t symbol).engine.state.remainingHoldings symbol) := by
  obtain ⟨before, after, hparts, hbefore⟩ := parts_checking hfed hbar
  let flags : List Part := t.bars.map fun b => .flag b.1
  have htake : t.parts.takeWhile (fun x => !x.checks symbol) = flags ++ before := by
    rw [hparts, List.takeWhile_append_of_pos fun x hx => by rw [hbefore x hx]; rfl]
    simp [Part.checks, flags]
  have hreach : e.beforeExit cfg t symbol = e.runParts cfg (flags ++ before) := by
    unfold Engine.beforeExit
    rw [htake]
  rw [hreach] at hgoes hleft ⊢
  have harmed : Armed (e.runParts cfg (flags ++ before)).engine symbol k := h.runParts hbefore hk
  have hcovered : Covered (e.runParts cfg (flags ++ before)).engine symbol := by
    obtain ⟨hflags, hc⟩ := @covered_flags cfg e symbol hk t.bars ⟨_, hbar, rfl⟩
    rw [runParts_append, if_pos hflags]
    exact covered_runParts (kept_runParts hk _) _ hc
  obtain ⟨r, hcalls, hr⟩ := @calls_checkExit cfg _ _ _ harmed hcovered bar d hd hleft
  refine ⟨r, ?_, hr⟩
  have hmem : r ∈ ((e.runParts cfg (flags ++ before)).engine.runParts cfg (.exit symbol bar false d :: after)).calls := by
    have hexec : r ∈ ((e.runParts cfg (flags ++ before)).engine.exec cfg (.exit symbol bar false d)).calls := by
      show r ∈ ((e.runParts cfg (flags ++ before)).engine.checkExit cfg symbol bar none d).calls
      rw [hcalls]
      exact List.mem_singleton_self r
    unfold Engine.runParts
    dsimp only
    split
    · exact List.mem_append_left _ hexec
    · exact hexec
  unfold Engine.onBars
  rw [hparts, runParts_append, if_pos hgoes]
  exact List.mem_append_right _ hmem

/-! ## The claim -/

/-- The engine goes on, while the position stays open. -/
def Holding (cfg : Config) (symbol : Symbol) (k : PositionId) (e e' : Engine) : Prop :=
  OpenAt e symbol k ∧ Relation.ReflTransGen (fun a b => EngineStep cfg a b ∧ OpenAt b symbol k) e e'

theorem Armed.holding {e' : Engine} (hk : Kept e) (h : Armed e symbol k)
    (hh : Relation.ReflTransGen (fun a b => EngineStep cfg a b ∧ OpenAt b symbol k) e e') :
    Kept e' ∧ Armed e' symbol k := by
  induction hh with
  | refl => exact ⟨hk, h⟩
  | tail _ hs ih => exact ⟨ih.1.engineStep hs.1, ih.2.step ih.1 hs.1 hs.2⟩

theorem Reached.runParts (h : Reached cfg e) (xs : List Part) : Reached cfg (e.runParts cfg xs).engine :=
  runParts_induction (fun e x h => h.tail (.part e x)) h

theorem triggered_exit_kept (cfg : Config) :
    (∀ (e₀ e : Engine) (symbol : Symbol) (bar : Bar) (d : Dealing) (k : PositionId), Reached cfg e₀ →
      Fires e₀ symbol bar k → Holding cfg symbol k (e₀.exec cfg (.exit symbol bar false d)).engine e →
      ∀ (t : Tick) (bar' : Bar) (d' : Dealing), (symbol, bar', d') ∈ t.bars → t.fed →
        (e.beforeExit cfg t symbol).goesOn → d'.recorded →
        shareTolerance < (e.beforeExit cfg t symbol).engine.state.remainingHoldings symbol →
        ∃ r ∈ (e.onBars cfg t).calls, r.symbol = symbol ∧ r.side = some .sell ∧
          r.quantity = some ((e.beforeExit cfg t symbol).engine.state.remainingHoldings symbol)) ∧
    (∀ e, Reached cfg e → ∀ (t : Tick), ∀ b ∈ t.bars, Covered (e.onBars cfg t).engine b.1) ∧
    ∀ e, Reached cfg e → ∀ (symbol : Symbol) (plan : Plan) (p : Position) (bar : Bar) (force : Option ExitReason)
      (reason : ExitReason), e.plans symbol = some plan → e.state.openPositionFor symbol = some p →
      (∀ r, force = some r → r = .endOfSession) → Engine.exitReason plan p bar force = some reason →
      reason ≠ .endOfSession → Fair (e.latch symbol plan p bar force).fired p := by
  refine ⟨?_, ?_, ?_⟩
  · intro e₀ e symbol bar d k hreached hfires ⟨hopen, hhold⟩ t bar' d' hbar hfed hgoes hd hleft
    have hk₀ := Kept.of_reached hreached
    have harmed := armed_of_fires hk₀ hfires hopen
    obtain ⟨hk, ha⟩ := harmed.holding (hk₀.exec _) hhold
    exact calls_onBars ha hk hbar hfed hgoes hd hleft
  · intro e hreached t b hb
    exact covered_onBars (Kept.of_reached hreached) t ⟨b, hb, rfl⟩
  · intro e hreached symbol plan p bar force reason hplan hp hforce hreason hne
    exact (Kept.of_reached hreached).fair_exitReason hp hplan hforce hreason hne

/-! ## Sessions on fixed inputs -/

def enabledSession : Engine := { state := { sessionEnabled := true } }

theorem reached_enabledSession : Reached openConfig enabledSession :=
  Relation.ReflTransGen.single (.change (.settings true false {}))

def bullishSignal (symbol : Symbol) : EntrySignal :=
  { symbol, barTimestamp := 0, price := 100, stopPrice := some 95, targetPrice := some 110, bullish := true
    approval := .approved }

def entered (symbol : Symbol) : PositionId :=
  ⟨⟨"strategy_entry_" ++ symbol ++ "_0", symbol, .buy, 1, by norm_num⟩⟩

/-- The entry is filled at the first poll. -/
def buyFilled (symbol : Symbol) : Part :=
  .entry (bullishSignal symbol)
    { submit := some (.answered symbol)
      poll := [{ id := symbol, clientOrderId := .ofIntent (entered symbol).entry, symbol, side := some .buy, qty := .finite 1
                 status := .known .filled, filledQty := some (.finite 1), filledAvgPrice := some (.finite 100)
                 filledAt := some (.zoned 5) }] }

/-- The bar reaches the stop. -/
def stopBar (t : Instant) : Bar := ⟨t, 90, 96⟩

/-- The broker's answer to a SELL carries no id. -/
def unanswered : Dealing := { submit := some (.answered "") }

def boughtBoth : Engine := (enabledSession.runParts openConfig [buyFilled "AAPL", buyFilled "MSFT"]).engine

theorem reached_boughtBoth : Reached openConfig boughtBoth := reached_enabledSession.runParts _

def firedFirst : Engine := (boughtBoth.exec openConfig (.exit "AAPL" (stopBar 10) false unanswered)).engine

/-- The exit of AAPL was rejected, the price has recovered, and the process has started anew. -/
def recoveredTick : Tick :=
  { bars := [("AAPL", ⟨20, 99, 101⟩, unanswered)], distinct := by decide }

theorem triggered_exit_kept_sample :
    ∃ r ∈ (firedFirst.restart.onBars openConfig recoveredTick).calls, r.symbol = "AAPL" ∧ r.side = some .sell ∧
      r.quantity = some 1 := by
  have hopen : OpenAt firedFirst "AAPL" (entered "AAPL") := by decide +kernel
  have hhold : Holding openConfig "AAPL" (entered "AAPL") firedFirst firedFirst.restart :=
    ⟨hopen, Relation.ReflTransGen.single ⟨.restart _, hopen⟩⟩
  have hleft : (firedFirst.restart.beforeExit openConfig recoveredTick "AAPL").engine.state.remainingHoldings "AAPL" = 1 := by
    decide +kernel
  have hfires : Fires boughtBoth "AAPL" (stopBar 10) (entered "AAPL") := by decide +kernel
  have hcalls := (triggered_exit_kept openConfig).1 boughtBoth firedFirst.restart "AAPL" (stopBar 10) unanswered
    (entered "AAPL") reached_boughtBoth hfires hhold recoveredTick _ unanswered List.mem_cons_self rfl (by decide +kernel) rfl
    (by rw [hleft]; norm_num [shareTolerance])
  rw [hleft] at hcalls
  exact hcalls

def firedBoth : Engine := (firedFirst.exec openConfig (.exit "MSFT" (stopBar 10) false unanswered)).engine

/-- The SELL of AAPL raises. -/
def raisingTick : Tick :=
  { bars := [("AAPL", stopBar 20, { submit := some .raised }), ("MSFT", stopBar 20, unanswered)], distinct := by decide }

/-- The BUY of MSFT raises, and is confirmed and filled afterwards. -/
def orphaned : Engine :=
  let e := (enabledSession.runParts openConfig [buyFilled "AAPL", .entry (bullishSignal "MSFT") { submit := some .raised }]).engine
  let s := e.state.recordOrder (entered "MSFT").entry "MSFT"
  { e with state := applyBrokerUpdate s "MSFT" ⟨.known .filled, .finite 1, none, none⟩ }

theorem reached_orphaned : Reached openConfig orphaned := by
  have hentries := reached_enabledSession.runParts
    [buyFilled "AAPL", .entry (bullishSignal "MSFT") { submit := some .raised }]
  have huncertain : ((enabledSession.runParts openConfig
      [buyFilled "AAPL", .entry (bullishSignal "MSFT") { submit := some .raised }]).engine.state.intents.get
        (entered "MSFT").entry).any (·.unsettled) := by
    decide +kernel
  obtain ⟨q, hq, hu⟩ := Option.any_eq_true _ _ |>.1 huncertain
  exact (hentries.tail (.change (.record "MSFT" hq hu))).tail (.change (.report "MSFT" _))

/-- A raise in the tick keeps MSFT from being sold, and a tick without a bar of MSFT leaves it without a plan. -/
theorem exit_attempt_cut_short :
    (¬ ∀ (e₀ e : Engine) (symbol : Symbol) (bar : Bar) (d : Dealing) (k : PositionId), Reached openConfig e₀ →
      Fires e₀ symbol bar k → Holding openConfig symbol k (e₀.exec openConfig (.exit symbol bar false d)).engine e →
      ∀ (t : Tick) (bar' : Bar) (d' : Dealing), (symbol, bar', d') ∈ t.bars → t.fed → d'.recorded →
        shareTolerance < e.state.remainingHoldings symbol →
        ∃ r ∈ (e.onBars openConfig t).calls, r.symbol = symbol ∧ r.side = some .sell) ∧
    ¬ ∀ (e₀ e : Engine) (symbol : Symbol) (bar : Bar) (d : Dealing) (k : PositionId), Reached openConfig e₀ →
      Fires e₀ symbol bar k → Holding openConfig symbol k (e₀.exec openConfig (.exit symbol bar false d)).engine e →
      ∀ (t : Tick) (bar' : Bar) (d' : Dealing), (symbol, bar', d') ∈ t.bars →
        ∀ symbol', Covered (e.onBars openConfig t).engine symbol' := by
  constructor
  · intro h
    have hopen : OpenAt firedBoth "MSFT" (entered "MSFT") := by decide +kernel
    have hfires : Fires firedFirst "MSFT" (stopBar 10) (entered "MSFT") := by decide +kernel
    have hleft : firedBoth.state.remainingHoldings "MSFT" = 1 := by decide +kernel
    obtain ⟨r, hr, hsym, -⟩ := h firedFirst firedBoth "MSFT" (stopBar 10) unanswered (entered "MSFT")
      (reached_boughtBoth.tail (.part _ _)) hfires ⟨hopen, .refl⟩ raisingTick _ _
      (List.mem_cons_of_mem _ List.mem_cons_self) rfl rfl (by rw [hleft]; norm_num [shareTolerance])
    have hcalls : (firedBoth.onBars openConfig raisingTick).calls.all (·.symbol = "AAPL") := by decide +kernel
    rw [List.all_eq_true] at hcalls
    have hother := of_decide_eq_true (hcalls r hr)
    rw [hsym] at hother
    exact absurd hother (by decide)
  · intro h
    let e := (orphaned.exec openConfig (.exit "AAPL" (stopBar 10) false unanswered)).engine
    have hheld : OpenAt e "AAPL" (entered "AAPL") := by decide +kernel
    have hfires : Fires orphaned "AAPL" (stopBar 10) (entered "AAPL") := by decide +kernel
    have hopen : ((e.onBars openConfig recoveredTick).engine.state.openPositionFor "MSFT").isSome := by decide +kernel
    have hplan : ((e.onBars openConfig recoveredTick).engine.plans "MSFT").isSome = false := by decide +kernel
    have hcovered := h orphaned e "AAPL" (stopBar 10) unanswered (entered "AAPL") reached_orphaned hfires ⟨hheld, .refl⟩
      recoveredTick _ _ List.mem_cons_self "MSFT" hopen
    rw [hplan] at hcovered
    cases hcovered

end TalonX.Piv
